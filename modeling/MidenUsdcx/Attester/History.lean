import MidenUsdcx.Attester.Payout
import MidenUsdcx.Attester.Refinement
/-!
# The history of a note (`submission_events`)

`row_step` says once what a commit can do to a note's submission row and which history rows it adds.
From it follow the two laws about authorizations: a new one is committed only after the last one is
provably over, and what is sent is always the bytes of the latest one.
-/
namespace LightAttester
open Checked Keyed Store

variable {C : Crates} {s s' : Store} {L : List Entry} {n : NoteId}

def EventRow.authorizes (n : NoteId) (e : EventRow) : Prop := e.noteId = n ∧ e.kind = .authorized

/-! ## What a commit does to a note's row -/

/-- The row of `n` after a commit on `s`, with the history rows it adds. -/
inductive RowStep (s : Store) (n : NoteId) : Write → List EventRow → Option SavedSubmission → Prop where
  | keep {w added} : (∀ e ∈ added, ¬ e.authorizes n) → RowStep s n w added (s.row n)
  | save {record e} : record.noteId = n →
      (∀ r, s.row n = some r → r.status = .expired ∧ r.withdrawalId.isSome) → e.authorizes n →
      e.body = some record.body → e.endpoint = some record.endpoint →
      RowStep s n (.save record) [e] (some (authorizedRow record))
  | outcome {out r added} : out.noteId = n → s.row n = some r → (r.status = .submitting ∨ r.status = .submitted) →
      r.Reads out → (∀ e ∈ added, ¬ e.authorizes n) →
      (out.status = .expired → (∃ e ∈ added, e.noteId = n ∧ e.kind = .outcome ∧ e.status = some .expired) ∨
        ∃ e, latestOutcome n s.events.reverse = some e ∧ e.status = some .expired) →
      RowStep s n (.outcome out) added (some (withOutcome r out))
  | resent {t body saved r added} : s.row n = some r → r.status = .submitting → r.withdrawalId = none →
      (∀ e ∈ added, ¬ e.authorizes n) →
      RowStep s n (.limit n t body (some (saved, .recovery))) added (some (limitedRow r body))
  | rejected {t body saved r} : s.row n = some r → r.status = .submitting → r.withdrawalId = none →
      RowStep s n (.limit n t body (some (saved, .first)))
        [.bare n .withdrawalLimit (some 400) (some body) none] none
  | released {w r added} : w.isRelease = true → s.row n = some r → r.status = .held → r.withdrawalId = none →
      (∀ e ∈ added, ¬ e.authorizes n) → (∃ e ∈ added, e.noteId = n ∧ e.kind = .operatorRelease) →
      RowStep s n w added none

theorem scan_events {cs : List BurnCandidate} {ds : List DiscoveredBurn} {hd : BlockHeader}
    (h : s.saveScanProgress cs ds hd = .ok s') : s'.events = s.events := by
  obtain ⟨-, s1, s2, st, h1, h2, -, rfl⟩ := saveScanProgress_ok h
  show s2.events = s.events
  exact scan_induct (P := fun z => z.events = s.events)
    (fun a c z _ ha hz => by obtain ⟨-, -, rfl⟩ := insertCandidate_ok hz; exact ha)
    (fun a d z _ ha hz => by
      rcases insertBurn_ok hz with ⟨-, -, -, rfl⟩ | ⟨b, -, -, -, rfl⟩ <;> exact ha) rfl h1 h2

/-- What releases do to the rows and to the history. -/
structure Released (s s' : Store) (added : List EventRow) : Prop where
  events : s'.events = s.events ++ added
  kinds : ∀ e ∈ added, e.kind = .burnReleased ∨ e.kind = .operatorRelease
  rows : ∀ n, s'.row n = s.row n ∨ ∃ r, s.row n = some r ∧ r.status = .held ∧ r.withdrawalId = none ∧
    s'.row n = none ∧ ∃ e ∈ added, e.noteId = n ∧ e.kind = .operatorRelease

theorem Released.refl (s : Store) : Released s s [] := ⟨by simp, by simp, fun _ => Or.inl rfl⟩

theorem Released.trans {s1 s2 s3 : Store} {a b : List EventRow} (h : Released s1 s2 a) (h' : Released s2 s3 b) :
    Released s1 s3 (a ++ b) := by
  refine ⟨by rw [h'.events, h.events, List.append_assoc], fun e he => ?_, fun n => ?_⟩
  · rcases List.mem_append.1 he with he | he
    · exact h.kinds e he
    · exact h'.kinds e he
  · rcases h.rows n with hr | ⟨r, hr, hst, hid, hnone, e, he, hn⟩
    · rcases h'.rows n with hr' | ⟨r, hr', hst, hid, hnone, e, he, hn⟩
      · exact Or.inl (hr'.trans hr)
      · exact Or.inr ⟨r, hr ▸ hr', hst, hid, hnone, e, List.mem_append_right _ he, hn⟩
    · refine Or.inr ⟨r, hr, hst, hid, ?_, e, List.mem_append_left _ he, hn⟩
      rcases h'.rows n with hr' | ⟨r', hr', -⟩
      · rw [hr', hnone]
      · rw [hnone] at hr'; cases hr'

theorem releaseHold_released {m : NoteId} {flag : Bool} {k : Nat × Nat} (h : s.releaseHold m flag = .ok (s', k)) :
    ∃ added, Released s s' added := by
  rcases releaseHold_ok h with ⟨b, hb, -, rfl⟩ | ⟨b, r, hb, -, hr, hst, hid, rfl⟩
  · exact ⟨[_], rfl, by simp [eventOf], fun _ => Or.inl rfl⟩
  · refine ⟨[_], rfl, by simp [eventOf], fun n => ?_⟩
    by_cases hn : n = m
    · subst hn
      refine Or.inr ⟨r, hr, hst, hid, ?_, _, List.mem_singleton_self _, burn_noteId hb, rfl⟩
      rw [dropRow_row, if_pos rfl]
    · refine Or.inl ?_
      rw [dropRow_row, if_neg hn]
      rfl

theorem release_released {w : Write} (h : w.apply C s = .ok s') (hw : w.isRelease = true) :
    ∃ added, Released s s' added := by
  refine Write.release_induct (P := fun z => ∃ added, Released s z added) (fun hP hrel => ?_) h hw ⟨[], .refl s⟩
  obtain ⟨a, hP⟩ := hP
  obtain ⟨b, hb⟩ := releaseHold_released hrel
  exact ⟨a ++ b, hP.trans hb⟩

/-- A transaction about one note leaves the rows of the others. -/
theorem RowStep.other {w : Write} {m n : NoteId} {added : List EventRow} (hw : w.apply C s = .ok s')
    (hm : w.note = some m) (hn : n ≠ m) (hadded : ∀ e ∈ added, e.noteId = m) : RowStep s n w added (s'.row n) := by
  rw [(Write.apply_frame hw hm hn).2]
  exact .keep fun e he h => hn (h.1.symm.trans (hadded e he))

theorem row_step_outcome {out : SavedSubmission} (hw : (Write.outcome out).apply C s = .ok s')
    (hok : WriteOk C L s (.outcome out)) :
    ∃ added, s'.events = s.events ++ added ∧ ∀ n, RowStep s n (.outcome out) added (s'.row n) := by
  obtain ⟨-, -, r0, hr0, hst, hreads⟩ := hok
  obtain ⟨r, hleaves⟩ := outcome_leaves hw
  obtain rfl : r0 = r := Option.some.inj (hr0.symm.trans hleaves.stored)
  obtain ⟨added, hev, hadded, hclose⟩ : ∃ added, s'.events = s.events ++ added ∧
      (∀ e ∈ added, e.noteId = out.noteId ∧ e.kind ≠ .authorized) ∧
      (out.status = .expired →
        (∃ e ∈ added, e.noteId = out.noteId ∧ e.kind = .outcome ∧ e.status = some .expired) ∨
        ∃ e, latestOutcome out.noteId s.events.reverse = some e ∧ e.status = some .expired) := by
    rcases hleaves.events with ⟨hev, hrep⟩ | ⟨b, hb, hev⟩
    · refine ⟨[], by rw [hev, List.append_nil], by simp, fun hexp => Or.inr ?_⟩
      cases hlast : latestOutcome out.noteId s.events.reverse with
      | none => simp [repeatsLatestOutcome, hlast] at hrep
      | some e =>
        simp only [repeatsLatestOutcome, hlast, Option.any_some, Bool.and_eq_true, beq_iff_eq] at hrep
        exact ⟨e, rfl, by rw [hrep.1.1.1.1, hexp]⟩
    · have hbid := burn_noteId hb
      refine ⟨[_], hev, by simpa [eventOf] using hbid, fun hexp => ?_⟩
      exact Or.inl ⟨_, List.mem_singleton_self _, hbid, rfl, congrArg some hexp⟩
  refine ⟨added, hev, fun n => ?_⟩
  by_cases hn : n = out.noteId
  · subst hn
    rw [hleaves.row]
    exact .outcome rfl hr0 hst hreads (fun e he h => (hadded e he).2 h.2) hclose
  · exact RowStep.other hw rfl hn fun e he => (hadded e he).1

theorem row_step_limit {k : NoteId} {t : Nat} {body : Bytes} {sub : Option (SavedSubmission × SubmissionAttempt)}
    (hw : (Write.limit k t body sub).apply C s = .ok s') :
    ∃ added, s'.events = s.events ++ added ∧ ∀ n, RowStep s n (.limit k t body sub) added (s'.row n) := by
  obtain ⟨b, f, hleaves⟩ := limit_leaves hw
  refine ⟨_, hleaves.events, fun n => ?_⟩
  by_cases hn : n = k
  · subst hn
    have hno : ∀ e ∈ [EventRow.bare n .withdrawalLimit (some 400) (some body) none], ¬ e.authorizes n := by
      simp [EventRow.authorizes, EventRow.bare]
    rw [hleaves.row]
    cases hleaves.source with
    | prepare => exact .keep hno
    | first hr =>
      obtain ⟨hrow, hst, hid, -⟩ := sameRequest_eq_some hr
      rw [dropRow_row, if_pos rfl]
      exact .rejected hrow hst hid
    | @recovery saved r hr =>
      obtain ⟨hrow, hst, hid, -⟩ := sameRequest_eq_some hr
      have hrid : (limitedRow r body).noteId = n := show r.noteId = n from row_noteId hrow
      rw [putRow_row, if_pos hrid]
      exact .resent hrow hst hid hno
  · exact RowStep.other hw rfl hn (by simp [EventRow.bare])

/-- **What a commit can do** to any note's row, and what it adds to the history. -/
theorem row_step {w : Write} (hw : w.apply C s = .ok s') (hok : WriteOk C L s w) :
    ∃ added, s'.events = s.events ++ added ∧ ∀ n, RowStep s n w added (s'.row n) := by
  cases w with
  | create faucet anchor =>
    cases hw
    obtain rfl : s = .blank := hok
    exact ⟨[], rfl, fun n => .keep (by simp)⟩
  | scan cs ds hd =>
    refine ⟨[], by rw [scan_events hw, List.append_nil], fun n => ?_⟩
    rw [(scan_keeps hw).1]
    exact .keep (by simp)
  | save record =>
    obtain ⟨-, hexp, b, hb, rfl⟩ := saveSubmission_ok hw
    have hbid := burn_noteId hb
    refine ⟨[_], rfl, fun n => ?_⟩
    by_cases hn : n = record.noteId
    · subst hn
      rw [addEvent_row, putRow_row, if_pos (show (authorizedRow record).noteId = record.noteId from rfl)]
      exact .save rfl hexp ⟨hbid, rfl⟩ rfl rfl
    · exact RowStep.other hw rfl hn (by simpa [eventOf] using hbid)
  | outcome out => exact row_step_outcome hw hok
  | hold k reason resp =>
    obtain ⟨b, -, rfl⟩ := holdBurn_ok hw
    exact ⟨[_], rfl, fun n => .keep (by simp [EventRow.authorizes, EventRow.bare])⟩
  | advance k t =>
    obtain ⟨b, -, -, rfl⟩ := advanceLimitRetry_ok hw
    exact ⟨[], by simp, fun n => .keep (by simp)⟩
  | limit k t body sub => exact row_step_limit hw
  | release | releaseAll =>
    obtain ⟨added, hrel⟩ := release_released hw rfl
    refine ⟨added, hrel.events, fun n => ?_⟩
    have hno : ∀ e ∈ added, ¬ e.authorizes n := fun e he h => by
      rcases hrel.kinds e he with hk | hk <;> rw [h.2] at hk <;> cases hk
    rcases hrel.rows n with hr | ⟨r, hr, hst, hid, hnone, hev⟩
    · rw [hr]; exact .keep hno
    · rw [hnone]; exact .released rfl hr hst hid hno hev

/-! ## One authorization at a time -/

/-- The limit row `c` answers the first POST of the authorization `a`: the POST follows the commit that
added `a`, the rejection is its reply, and the commit that keeps the reply adds `c`. -/
def AnswersFirstPost (L : List Entry) (n : NoteId) (older : List EventRow) (a c : EventRow) : Prop :=
  ∃ later t body saved now request record s0 s1 s2 s3 earlier,
    L = later ++ ⟨.commit (.limit n t body (some (saved, .first))), s3⟩ :: ⟨.clock now, s2⟩ ::
      ⟨.post n request (.ok ⟨.badRequest, body⟩), s1⟩ :: ⟨.commit (.save record), s0⟩ :: earlier ∧
    record.noteId = n ∧ s0.events = older ++ [a] ∧ s3.events = older ++ [a, c] ∧ c.response = some body

/-- The history row `c` ends the authorization `a` of `n`: it expired, an operator released it, or Circle
refused its first send. -/
def Ends (L : List Entry) (n : NoteId) (older : List EventRow) (a c : EventRow) : Prop :=
  c.noteId = n ∧ (c.kind = .outcome ∧ c.status = some .expired ∨ c.kind = .operatorRelease ∨
    c.kind = .withdrawalLimit ∧ AnswersFirstPost L n older a c)

theorem Ends.cons {older : List EventRow} {a c : EventRow} {e : Entry} (h : Ends L n older a c) :
    Ends (e :: L) n older a c := by
  obtain ⟨hn, h | h | ⟨hk, later, t, body, saved, now, request, record, s0, s1, s2, s3, earlier, hL, h⟩⟩ := h
  · exact ⟨hn, Or.inl h⟩
  · exact ⟨hn, Or.inr (Or.inl h)⟩
  · exact ⟨hn, Or.inr (Or.inr ⟨hk, e :: later, t, body, saved, now, request, record, s0, s1, s2, s3, earlier,
      by rw [hL]; rfl, h⟩)⟩

/-- Splitting at an element that is none of the last ones. -/
theorem split_of_append {α : Type} {P : α → Prop} {xs ys older newer : List α} {a : α}
    (h : xs ++ ys = older ++ a :: newer) (ha : P a) (hys : ∀ y ∈ ys, ¬ P y) :
    ∃ mid, xs = older ++ a :: mid ∧ newer = mid ++ ys := by
  rcases List.append_eq_append_iff.1 h with ⟨zs, h1, h2⟩ | ⟨zs, h1, h2⟩
  · exact absurd ha (hys a (h2 ▸ List.mem_append_right _ List.mem_cons_self))
  · cases zs with
    | nil =>
      have : ys = a :: newer := by simpa using h2.symm
      exact absurd ha (hys a (this ▸ List.mem_cons_self))
    | cons z zs =>
      obtain ⟨rfl, rfl⟩ := List.cons.inj h2
      exact ⟨zs, h1, rfl⟩

/-- The latest outcome belongs to the latest authorization. -/
theorem latestOutcome_mem {a e : EventRow} {older : List EventRow} (ha : a.authorizes n) :
    ∀ {newer : List EventRow}, latestOutcome n (newer ++ a :: older) = some e →
      e ∈ newer ∧ e.noteId = n ∧ e.kind = .outcome
  | [], h => by
    obtain ⟨hn, hk⟩ := ha
    simp [latestOutcome, hn, hk] at h
  | x :: newer, h => by
    rw [List.cons_append, latestOutcome] at h
    split at h
    · rename_i hx
      cases h
      exact ⟨List.mem_cons_self, hx⟩
    · split at h
      · cases h
      · obtain ⟨hmem, hrest⟩ := latestOutcome_mem ha h
        exact ⟨List.mem_cons_of_mem _ hmem, hrest⟩

/-- Every authorization of `n` but the latest is over, and the latest is over unless its row is still
there and has not expired. -/
structure OneOpen (L : List Entry) (s : Store) (n : NoteId) : Prop where
  past : ∀ older a mid b later, s.events = older ++ a :: (mid ++ b :: later) → a.authorizes n → b.authorizes n →
    (∀ e ∈ mid, ¬ e.authorizes n) → ∃ c ∈ mid, Ends L n older a c
  last : ∀ older a mid, s.events = older ++ a :: mid → a.authorizes n → (∀ e ∈ mid, ¬ e.authorizes n) →
    (∃ c ∈ mid, Ends L n older a c) ∨ ∃ r, s.row n = some r ∧ r.status ≠ .expired

theorem OneOpen.skip {e : Entry} (h : OneOpen L s n) : OneOpen (e :: L) s n where
  past older a mid b later he ha hb hmid := by
    obtain ⟨c, hc, hends⟩ := h.past older a mid b later he ha hb hmid
    exact ⟨c, hc, hends.cons⟩
  last older a mid he ha hmid := by
    rcases h.last older a mid he ha hmid with ⟨c, hc, hends⟩ | hrow
    · exact Or.inl ⟨c, hc, hends.cons⟩
    · exact Or.inr hrow

/-- A commit that authorizes nothing keeps the past; the latest authorization stays, or ends. -/
theorem OneOpen.extend {e : Entry} {added : List EventRow} (h : OneOpen L s n) (hev : s'.events = s.events ++ added)
    (hadded : ∀ c ∈ added, ¬ c.authorizes n)
    (hrow : ∀ older a mid, s.events = older ++ a :: mid → a.authorizes n → (∀ c ∈ mid, ¬ c.authorizes n) →
      ∀ r, s.row n = some r → r.status ≠ .expired →
        (∃ c ∈ mid ++ added, Ends (e :: L) n older a c) ∨ ∃ r, s'.row n = some r ∧ r.status ≠ .expired) :
    OneOpen (e :: L) s' n where
  past older a mid b later he ha hb hmid := by
    rw [hev, ← List.cons_append, ← List.append_assoc] at he
    obtain ⟨later', hs, -⟩ := split_of_append he hb hadded
    rw [List.append_assoc, List.cons_append] at hs
    obtain ⟨c, hc, hends⟩ := h.past older a mid b later' hs ha hb hmid
    exact ⟨c, hc, hends.cons⟩
  last older a mid he ha hmid := by
    rw [hev] at he
    obtain ⟨mid', hs, rfl⟩ := split_of_append he ha hadded
    have hmid' : ∀ c ∈ mid', ¬ c.authorizes n := fun c hc => hmid c (List.mem_append_left _ hc)
    rcases h.last older a mid' hs ha hmid' with ⟨c, hc, hends⟩ | ⟨r, hr, hst⟩
    · exact Or.inl ⟨c, List.mem_append_left _ hc, hends.cons⟩
    · exact hrow older a mid' hs ha hmid' r hr hst

/-- A new authorization: the one before is over, since its row is gone or expired. -/
theorem OneOpen.authorize {e : Entry} {a' : EventRow} {r' : SavedSubmission} (h : OneOpen L s n)
    (hev : s'.events = s.events ++ [a'])
    (hold : ∀ r, s.row n = some r → r.status = .expired) (hnew : s'.row n = some r') (hst : r'.status ≠ .expired) :
    OneOpen (e :: L) s' n where
  past older a mid b later he ha hb hmid := by
    rw [hev] at he
    rcases List.eq_nil_or_concat later with rfl | ⟨later', x, rfl⟩
    · have hsplit : s.events ++ [a'] = (older ++ a :: mid) ++ [b] := by simpa using he
      obtain ⟨hs, -⟩ := List.append_inj' hsplit rfl
      rcases h.last older a mid hs ha hmid with ⟨c, hc, hends⟩ | ⟨r, hr, hne⟩
      · exact ⟨c, hc, hends.cons⟩
      · exact absurd (hold r hr) hne
    · have hsplit : s.events ++ [a'] = (older ++ a :: (mid ++ b :: later')) ++ [x] := by simpa using he
      obtain ⟨hs, -⟩ := List.append_inj' hsplit rfl
      obtain ⟨c, hc, hends⟩ := h.past older a mid b later' hs ha hb hmid
      exact ⟨c, hc, hends.cons⟩
  last _ _ _ _ _ _ := Or.inr ⟨r', hnew, hst⟩

/-- The rejection of a first send: the log shows the send, and right before it the commit of the latest
authorization. -/
theorem answers_first {t : Nat} {body : Bytes} {saved : SavedSubmission} {older mid : List EventRow} {a c : EventRow}
    (hL : Legal C L s) (hw : WriteOk C L s (.limit n t body (some (saved, .first))))
    (hs : s.events = older ++ a :: mid) (hmid : ∀ e ∈ mid, ¬ e.authorizes n)
    (hev : s'.events = s.events ++ [c]) (hc : c.response = some body) :
    AnswersFirstPost (⟨.commit (.limit n t body (some (saved, .first))), s'⟩ :: L) n older a c := by
  obtain ⟨-, ⟨now, older1, config, policy, hclock, -⟩, clock, request, s1, record, s2, older2, -, hrec, rfl⟩ := hw
  obtain rfl : clock = ⟨.clock now, s⟩ := (List.cons.inj hclock).1
  -- neither the clock nor the POST changes the store the authorization was committed to
  obtain ⟨hL1, hs1⟩ := hL.tail
  obtain ⟨hL2, hs2, -⟩ := hL1.tail
  obtain ⟨-, hsave, -⟩ := hL2.tail
  obtain rfl : s = s1 := hs1
  obtain rfl : s = s2 := hs2
  obtain ⟨-, -, b, hb, hs'⟩ := saveSubmission_ok hsave
  have hlast : s.events = (storeOf older2).events ++ [eventOf b (some (authorizedRow record)) .authorized none] :=
    congrArg Store.events hs'
  have hnil : mid = [] := by
    rcases List.eq_nil_or_concat mid with rfl | ⟨mid', x, rfl⟩
    · rfl
    · have hsplit : (older ++ a :: mid') ++ [x] =
          (storeOf older2).events ++ [eventOf b (some (authorizedRow record)) .authorized none] := by
        rw [← hlast, hs]
        simp
      obtain ⟨-, hx⟩ := List.append_inj' hsplit rfl
      refine absurd ⟨?_, ?_⟩ (hmid x (by simp))
      · rw [(List.cons.inj hx).1]
        exact (burn_noteId hb).trans hrec
      · rw [(List.cons.inj hx).1]
        rfl
  subst hnil
  exact ⟨[], t, body, saved, now, request, record, s, s, s, s', older2, rfl, hrec, hs, by rw [hev, hs]; simp, hc⟩

theorem OneOpen.commit {w : Write} (hL : Legal C L s) (h : OneOpen L s n) (hw : w.apply C s = .ok s')
    (hok : WriteOk C L s w) : OneOpen (⟨.commit w, s'⟩ :: L) s' n := by
  obtain ⟨added, hev, hrows⟩ := row_step hw hok
  have hrow := hrows n
  generalize hr' : s'.row n = row' at hrow
  cases hrow with
  | keep hno => exact h.extend hev hno fun _ _ _ _ _ _ r hr hst => Or.inr ⟨r, hr'.trans hr, hst⟩
  | save hn hold _ _ _ => exact h.authorize hev (fun r hr => (hold r hr).1) hr' (by simp [authorizedRow])
  | @outcome out r _ hn hr hst _ hno hclose =>
    refine h.extend hev hno fun older a mid hs ha _ _ _ _ => ?_
    by_cases hexp : out.status = .expired
    · refine Or.inl ?_
      rcases hclose hexp with ⟨c, hc, hcn, hck, hcs⟩ | ⟨c, hlast, hcs⟩
      · exact ⟨c, List.mem_append_right _ hc, hcn, Or.inl ⟨hck, hcs⟩⟩
      · rw [hs, List.reverse_append, List.reverse_cons, List.append_assoc] at hlast
        obtain ⟨hmem, hcn, hck⟩ := latestOutcome_mem ha hlast
        exact ⟨c, List.mem_append_left _ (List.mem_reverse.1 hmem), hcn, Or.inl ⟨hck, hcs⟩⟩
    · exact Or.inr ⟨_, hr', hexp⟩
  | @resent t body saved r _ hr hst _ hno =>
    exact h.extend hev hno fun _ _ _ _ _ _ _ _ _ => Or.inr ⟨_, hr', by rw [limitedRow, hst]; decide⟩
  | @rejected t body saved r hr hst hid =>
    refine h.extend hev (by simp [EventRow.authorizes, EventRow.bare]) fun older a mid hs _ hmid _ _ _ => Or.inl ?_
    exact ⟨_, List.mem_append_right _ (List.mem_singleton_self _), rfl,
      Or.inr (Or.inr ⟨rfl, answers_first hL hok hs hmid hev rfl⟩)⟩
  | released _ _ _ _ hno hrel =>
    obtain ⟨c, hc, hcn, hck⟩ := hrel
    exact h.extend hev hno fun _ _ _ _ _ _ _ _ _ =>
      Or.inl ⟨c, List.mem_append_right _ hc, hcn, Or.inr (Or.inl hck)⟩

theorem legal_oneOpen (h : Legal C L s) (n : NoteId) : OneOpen L s n := by
  refine h.induct (P := fun L s => OneOpen L s n) ⟨?_, ?_⟩ fun {L s s' a} hL ih ha => ?_
  · intro older a mid b later he
    simp [Store.blank] at he
  · intro older a mid he
    simp [Store.blank] at he
  · rcases ha.store with rfl | ⟨w, rfl, hw, hok⟩
    · exact ih.skip
    · exact ih.commit hL hw hok

/-! ## A finished withdrawal -/

/-- A row that is finalized or failed is left alone by every commit. -/
theorem RowStep.final {w : Write} {added : List EventRow} {row' : Option SavedSubmission} {r : SavedSubmission}
    (h : RowStep s n w added row') (hr : s.row n = some r) (hst : r.status = .finalized ∨ r.status = .failed) :
    row' = some r := by
  have contra : ∀ {r0 : SavedSubmission}, s.row n = some r0 → r0.status = .finalized ∨ r0.status = .failed := by
    intro r0 hr0
    rw [hr] at hr0
    cases hr0
    exact hst
  cases h with
  | keep _ => exact hr
  | save _ hold _ _ _ =>
    have hexp := (hold r hr).1
    rcases hst with h | h <;> rw [h] at hexp <;> cases hexp
  | outcome _ hr0 hst0 _ _ _ =>
    rcases contra hr0 with h | h <;> rw [h] at hst0 <;> rcases hst0 with h0 | h0 <;> cases h0
  | resent hr0 hst0 _ _ => rcases contra hr0 with h | h <;> rw [h] at hst0 <;> cases hst0
  | rejected hr0 hst0 _ => rcases contra hr0 with h | h <;> rw [h] at hst0 <;> cases hst0
  | released _ hr0 hst0 _ _ _ => rcases contra hr0 with h | h <;> rw [h] at hst0 <;> cases hst0

theorem legal_final {l : List Entry} {r : SavedSubmission} (h : Legal C (l ++ L) s)
    (hr : (storeOf L).row n = some r) (hst : r.status = .finalized ∨ r.status = .failed) : s.row n = some r := by
  refine h.forward (P := fun _ s => s.row n = some r) hr fun _ _ hrow ha => ?_
  rcases ha.store with rfl | ⟨w, rfl, hw, hok⟩
  · exact hrow
  · obtain ⟨added, -, hrows⟩ := row_step hw hok
    exact (hrows n).final hrow hst

/-- Nothing is prepared, signed or posted for a row with one of these statuses. -/
theorem allowed_final {a : Act} {r : SavedSubmission} (ha : Allowed C L s a s') (hr : s.row n = some r)
    (hst : r.status = .finalized ∨ r.status = .failed) :
    a.prepares n = false ∧ a.signs n = false ∧ a.posts n = false := by
  have hfresh : ∀ {d : DiscoveredBurn}, FreshItem L s d → d.noteId ≠ n := by
    rintro d hd rfl
    have hexp := hd.2.2.2 r hr
    rcases hst with h | h <;> rw [h] at hexp <;> cases hexp
  cases a with
  | prepare burn fee reply => simpa [Act.prepares, Act.signs, Act.posts] using hfresh ha.2.1
  | sign m digest =>
    obtain ⟨-, d, rfl, hd⟩ := ha
    simpa [Act.prepares, Act.signs, Act.posts] using hfresh hd
  | post m request reply =>
    obtain ⟨-, -, -, -, r0, hr0, hst0, -⟩ := ha
    refine ⟨rfl, rfl, ?_⟩
    by_contra hm
    obtain rfl : m = n := by simpa [Act.posts] using hm
    rw [hr] at hr0
    cases hr0
    rcases hst with h | h <;> rw [h] at hst0 <;> cases hst0
  | _ => exact ⟨rfl, rfl, rfl⟩

/-- What keeps a burn from being authorized twice. -/
structure AuthorizedOnce (w : World) (n : NoteId) : Prop where
  /-- The history only grows, and an authorization is added only where the row was missing or expired. -/
  guarded : ∀ later e earlier, w.log = later ++ e :: earlier →
    ∃ added, e.store.events = (storeOf earlier).events ++ added ∧ ∀ a ∈ added, a.authorizes n →
      (storeOf earlier).row n = none ∨
        ∃ r, (storeOf earlier).row n = some r ∧ r.status = .expired ∧ r.withdrawalId.isSome
  /-- Between two authorizations that follow each other, the first one ends. -/
  ended : ∀ older a mid b later, w.store.events = older ++ a :: (mid ++ b :: later) → a.authorizes n →
    b.authorizes n → (∀ e ∈ mid, ¬ e.authorizes n) → ∃ c ∈ mid, Ends w.log n older a c
  /-- A finalized or failed row stays as it is, and nothing is prepared, signed or posted for it again. -/
  final : ∀ later e earlier r, w.log = later ++ e :: earlier → e.store.row n = some r →
    r.status = .finalized ∨ r.status = .failed →
    w.store.row n = some r ∧ ∀ f ∈ later, f.store.row n = some r ∧ f.act.prepares n = false ∧
      f.act.signs n = false ∧ f.act.posts n = false

theorem guarded_entry {later earlier : List Entry} {e : Entry} (h : Legal C (later ++ e :: earlier) s) :
    ∃ added, e.store.events = (storeOf earlier).events ++ added ∧ ∀ a ∈ added, a.authorizes n →
      (storeOf earlier).row n = none ∨
        ∃ r, (storeOf earlier).row n = some r ∧ r.status = .expired ∧ r.withdrawalId.isSome := by
  obtain ⟨-, ha⟩ := h.entry
  rcases ha.store with hsame | ⟨w, hact, hw, hok⟩
  · exact ⟨[], by rw [hsame, List.append_nil], fun a ha => by cases ha⟩
  · obtain ⟨added, hev, hrows⟩ := row_step hw hok
    refine ⟨added, hev, fun a ha hauth => ?_⟩
    have hrow := hrows n
    generalize e.store.row n = row' at hrow
    cases hrow with
    | save _ hold _ _ _ =>
      cases hr : (storeOf earlier).row n with
      | none => exact Or.inl rfl
      | some r => exact Or.inr ⟨r, rfl, hold r hr⟩
    | keep hno => exact absurd hauth (hno a ha)
    | outcome _ _ _ _ hno _ => exact absurd hauth (hno a ha)
    | resent _ _ _ hno => exact absurd hauth (hno a ha)
    | rejected _ _ _ =>
      rw [List.mem_singleton.1 ha] at hauth
      cases hauth.2
    | released _ _ _ _ hno _ => exact absurd hauth (hno a ha)

/-- **No double authorization.** In every run, whatever crashes and whoever releases, a burn gets a new
authorization only after the one before has ended, and none once it is finalized or failed. -/
theorem authorized_once (C : Crates) (lifetimes : List Lifetime) (n : NoteId) :
    AuthorizedOnce (runAll C lifetimes) n where
  guarded later e earlier hlog := guarded_entry (hlog ▸ runs_legal lifetimes)
  ended := (legal_oneOpen (runs_legal lifetimes) n).past
  final later e earlier r hlog hr hst := by
    have hlegal := hlog ▸ runs_legal (C := C) lifetimes
    refine ⟨legal_final hlegal hr hst, fun f hf => ?_⟩
    obtain ⟨l1, l2, rfl⟩ := List.append_of_mem hf
    rw [List.append_assoc, List.cons_append] at hlegal
    obtain ⟨hbefore, ha⟩ := hlegal.entry
    have hrow := legal_final hbefore hr hst
    have hafter := legal_final (l := f :: l2) (Legal.step hbefore ha) hr hst
    exact ⟨hafter, allowed_final ha hrow hst⟩

/-! ## What is sent is what was authorized -/

/-- `a` is the latest authorization of `n` in the history. -/
def LatestAuth (events : List EventRow) (n : NoteId) (a : EventRow) : Prop :=
  ∃ older newer, events = older ++ a :: newer ∧ a.authorizes n ∧ ∀ e ∈ newer, ¬ e.authorizes n

theorem LatestAuth.append {events added : List EventRow} {a : EventRow} (h : LatestAuth events n a)
    (hadded : ∀ e ∈ added, ¬ e.authorizes n) : LatestAuth (events ++ added) n a := by
  obtain ⟨older, newer, rfl, ha, hnewer⟩ := h
  refine ⟨older, newer ++ added, by simp, ha, fun e he => ?_⟩
  rcases List.mem_append.1 he with he | he
  · exact hnewer e he
  · exact hadded e he

/-- The row of a note holds the bytes and the endpoint of its latest authorization. -/
theorem legal_latest (h : Legal C L s) {r : SavedSubmission} (hr : s.row n = some r) :
    ∃ a, LatestAuth s.events n a ∧ a.body = some r.body ∧ a.endpoint = some r.endpoint := by
  revert r
  refine h.store_induct (P := fun s => ∀ {r : SavedSubmission}, s.row n = some r →
    ∃ a, LatestAuth s.events n a ∧ a.body = some r.body ∧ a.endpoint = some r.endpoint) (fun hr => by cases hr) ?_
  intro L s s' w _ ih hw hok r hr
  obtain ⟨added, hev, hrows⟩ := row_step hw hok
  have hrow := hrows n
  have hkeep : ∀ {r0 : SavedSubmission}, s.row n = some r0 → r.body = r0.body → r.endpoint = r0.endpoint →
      (∀ e ∈ added, ¬ e.authorizes n) →
      ∃ a, LatestAuth s'.events n a ∧ a.body = some r.body ∧ a.endpoint = some r.endpoint := by
    intro r0 hr0 hbody hend hno
    obtain ⟨a, ha, hab, hae⟩ := ih hr0
    rw [hev, hbody, hend]
    exact ⟨a, ha.append hno, hab, hae⟩
  rw [hr] at hrow
  generalize hrow' : some r = row' at hrow
  cases hrow with
  | keep hno => exact hkeep hrow'.symm rfl rfl hno
  | @save record e _ _ hauth hbody hend =>
    cases hrow'
    exact ⟨e, ⟨s.events, [], hev, hauth, by simp⟩, hbody, hend⟩
  | @outcome out r0 _ _ hr0 _ _ hno _ =>
    cases hrow'
    exact hkeep hr0 rfl rfl hno
  | @resent t body saved r0 _ hr0 _ _ hno =>
    cases hrow'
    exact hkeep hr0 rfl rfl hno
  | rejected => cases hrow'
  | released => cases hrow'

/-- An ID on a row stays there, with the endpoint it belongs to, until the note is authorized anew. -/
theorem RowStep.kept {w : Write} {added : List EventRow} {row' : Option SavedSubmission} {r : SavedSubmission}
    {id : String} (h : RowStep s n w added row') (hr : s.row n = some r) (hid : r.withdrawalId = some id)
    (hno : ∀ e ∈ added, ¬ e.authorizes n) :
    ∃ r', row' = some r' ∧ r'.withdrawalId = some id ∧ r'.endpoint = r.endpoint := by
  have hsame : ∀ {r0 : SavedSubmission}, s.row n = some r0 → r0 = r := fun hr0 => by
    rw [hr] at hr0
    exact (Option.some.inj hr0).symm
  cases h with
  | keep _ => exact ⟨r, hr, hid, rfl⟩
  | save _ _ hauth _ _ => exact absurd hauth (hno _ (List.mem_singleton_self _))
  | outcome _ hr0 _ hreads _ _ =>
    obtain rfl := hsame hr0
    exact ⟨_, rfl, hreads.kept id hid, rfl⟩
  | resent hr0 _ hnone _ =>
    obtain rfl := hsame hr0
    rw [hid] at hnone
    cases hnone
  | rejected hr0 _ hnone =>
    obtain rfl := hsame hr0
    rw [hid] at hnone
    cases hnone
  | released _ hr0 _ hnone _ _ =>
    obtain rfl := hsame hr0
    rw [hid] at hnone
    cases hnone

/-- The same over a stretch of the log, together with what the history gained. -/
theorem legal_kept {l : List Entry} {r : SavedSubmission} {id : String} (h : Legal C (l ++ L) s)
    (hr : (storeOf L).row n = some r) (hid : r.withdrawalId = some id) :
    ∃ added, s.events = (storeOf L).events ++ added ∧ ((∀ e ∈ added, ¬ e.authorizes n) →
      ∃ r', s.row n = some r' ∧ r'.withdrawalId = some id ∧ r'.endpoint = r.endpoint) := by
  refine h.forward (P := fun _ s => ∃ added, s.events = (storeOf L).events ++ added ∧
    ((∀ e ∈ added, ¬ e.authorizes n) → ∃ r', s.row n = some r' ∧ r'.withdrawalId = some id ∧ r'.endpoint = r.endpoint))
    ⟨[], by simp, fun _ => ⟨r, hr, hid, rfl⟩⟩ fun _ _ hP ha => ?_
  rcases ha.store with rfl | ⟨w, rfl, hw, hok⟩
  · exact hP
  · obtain ⟨before, hev, hkept⟩ := hP
    obtain ⟨added, hev', hrows⟩ := row_step hw hok
    refine ⟨before ++ added, by rw [hev', hev, List.append_assoc], fun hno => ?_⟩
    obtain ⟨r1, hr1, hid1, hend1⟩ := hkept fun e he => hno e (List.mem_append_left _ he)
    obtain ⟨r2, hr2, hid2, hend2⟩ := (hrows n).kept hr1 hid1 fun e he => hno e (List.mem_append_right _ he)
    exact ⟨r2, hr2, hid2, hend2.trans hend1⟩

/-- A lookup of the saved ID: a GET on the host of the endpoint, for this withdrawal. -/
def LooksUp (request : Request) (endpoint : Url) (id : String) : Prop :=
  request.method = .get ∧ request.url.scheme = endpoint.scheme ∧ request.url.host = endpoint.host ∧
    request.url.port = endpoint.port ∧ request.url.path = "/v1/withdrawal/" ++ id ∧ request.url.query = none ∧
    request.body = none

theorem looksUp_of_statusRequest {r : SavedSubmission} {id : String} {request : Request}
    (h : statusRequest r id = .ok request) : LooksUp request r.endpoint id := by
  simp only [statusRequest, orThrow_bind_ok, pure_ok, Url.join] at h
  obtain ⟨url, hurl, rfl⟩ := h
  split at hurl
  · cases hurl
  · cases hurl
    exact ⟨rfl, rfl, rfl, rfl, rfl, rfl, rfl⟩

/-- While the row has an ID, a note is only looked up under it, or prepared again once it expired. -/
theorem allowed_kept {a : Act} {r : SavedSubmission} {id : String} (ha : Allowed C L s a s') (hr : s.row n = some r)
    (hid : r.withdrawalId = some id) :
    a.posts n = false ∧ (∀ request reply, a = .get n request reply → LooksUp request r.endpoint id) ∧
      (a.prepares n = true ∨ a.signs n = true → s' = s ∧ r.status = .expired) := by
  have hfresh : ∀ {d : DiscoveredBurn}, FreshItem L s d → d.noteId = n → r.status = .expired :=
    fun hd hdn => hd.2.2.2 r (hdn ▸ hr)
  refine ⟨?_, ?_, ?_⟩
  · cases a with
    | post m request reply =>
      obtain ⟨-, -, -, -, r0, hr0, -, hid0, -⟩ := ha
      by_contra hm
      obtain rfl : m = n := by simpa [Act.posts] using hm
      rw [hr] at hr0
      cases hr0
      rw [hid] at hid0
      cases hid0
    | _ => rfl
  · rintro request reply rfl
    obtain ⟨-, -, -, r0, id0, hr0, -, hid0, hreq⟩ := ha
    rw [hr] at hr0
    cases hr0
    rw [hid] at hid0
    cases hid0
    exact looksUp_of_statusRequest hreq
  · intro hact
    cases a with
    | prepare burn fee reply => exact ⟨ha.1, hfresh ha.2.1 (by simpa [Act.prepares, Act.signs] using hact)⟩
    | sign m digest =>
      obtain ⟨hs, d, hd, hitem⟩ := ha
      exact ⟨hs, hfresh hitem (hd.trans (by simpa [Act.prepares, Act.signs] using hact))⟩
    | _ => simp [Act.prepares, Act.signs] at hact

/-- What is sent for a burn, against what is saved. -/
structure SentAsSaved (w : World) (n : NoteId) : Prop where
  /-- A POST is the request of the row, which has no ID yet and the bytes of the latest authorization. -/
  posts : ∀ later request reply s earlier, w.log = later ++ ⟨.post n request reply, s⟩ :: earlier →
    s = storeOf earlier ∧ ∃ r a, s.row n = some r ∧ r.status = .submitting ∧ r.withdrawalId = none ∧
      LatestAuth s.events n a ∧ a.body = some r.body ∧ a.endpoint = some r.endpoint ∧
      request = { method := .post, url := r.endpoint, body := some r.body }
  /-- From the commit of an ID until a new authorization, the ID stays, a GET asks for it, there is no POST, and
  only an expired withdrawal is prepared and signed again. -/
  lookups : ∀ later f mid e earlier r id added, w.log = later ++ f :: (mid ++ e :: earlier) →
    e.store.row n = some r → r.withdrawalId = some id → f.store.events = e.store.events ++ added →
    (∀ a ∈ added, ¬ a.authorizes n) →
    (∃ r', f.store.row n = some r' ∧ r'.withdrawalId = some id ∧ r'.endpoint = r.endpoint) ∧
    f.act.posts n = false ∧
    (∀ request reply, f.act = .get n request reply → LooksUp request r.endpoint id) ∧
    (f.act.prepares n = true ∨ f.act.signs n = true → ∃ r', f.store.row n = some r' ∧ r'.status = .expired)

/-- **Persist before send.** In every run, across crashes, restarts and changes of configuration, each POST
carries the bytes of the latest committed authorization, and once an ID is committed every further request
for the note is a GET for it, except for preparing an expired withdrawal again. -/
theorem sent_as_saved (C : Crates) (lifetimes : List Lifetime) (n : NoteId) :
    SentAsSaved (runAll C lifetimes) n where
  posts later request reply s earlier hlog := by
    obtain ⟨hL, hs, -, -, -, r, hr, hst, hid, hreq⟩ := (hlog ▸ runs_legal (C := C) lifetimes).entry
    obtain ⟨a, ha, hbody, hend⟩ := legal_latest hL hr
    obtain rfl : s = storeOf earlier := hs
    exact ⟨rfl, r, a, hr, hst, hid, ha, hbody, hend, hreq⟩
  lookups later f mid e earlier r id added hlog hr hid hev hno := by
    obtain ⟨hL, ha⟩ := (hlog ▸ runs_legal (C := C) lifetimes).entry
    obtain ⟨added', hev', hkept'⟩ := legal_kept (l := f :: mid) (Legal.step hL ha) hr hid
    obtain rfl : added' = added := List.append_cancel_left (hev'.symm.trans hev)
    refine ⟨hkept' hno, ?_⟩
    -- the row just before the act, where nothing new was authorized either
    obtain ⟨before, hevb, hkeptb⟩ := legal_kept hL hr hid
    have hbefore : ∀ a ∈ before, ¬ a.authorizes n := by
      rcases ha.store with hs | ⟨w, -, hw, hok⟩
      · rw [hs, hevb] at hev
        exact List.append_cancel_left hev ▸ hno
      · obtain ⟨more, hmore, -⟩ := row_step hw hok
        rw [hmore, hevb, List.append_assoc] at hev
        exact fun a ham => hno a (List.append_cancel_left hev ▸ List.mem_append_left _ ham)
    obtain ⟨rb, hrb, hidb, hendb⟩ := hkeptb hbefore
    obtain ⟨hpost, hget, hprep⟩ := allowed_kept ha hrb hidb
    refine ⟨hpost, fun request reply h => hendb ▸ hget request reply h, fun h => ?_⟩
    obtain ⟨hs, hexp⟩ := hprep h
    exact ⟨rb, by rw [hs, hrb], hexp⟩

/-! ## A withdrawal that expires

The note of the captured reply is published in the anchor block, consumed in the next and deep enough after one
more. Each list of choices below answers one stretch of calls, in order. -/

namespace Sample

def header (n : Nat) : BlockHeader := { blockNum := n, commitment := BitVec.ofNat 256 n }

def anchorBlock : SignedBlock := { header := header 100, outputNoteBatches := [[.isPublic note]], transactions := [] }

def burnBlock : SignedBlock :=
  { header := header 101, outputNoteBatches := [], transactions := [⟨faucet, [note.nullifier]⟩] }

def emptyBlock : SignedBlock := { header := header 102, outputNoteBatches := [], transactions := [] }

/-- Calls that go well and bring nothing. -/
def still (calls : Nat) : List Env :=
  let env : Env := {}
  List.replicate calls env

def served (block : SignedBlock) : Env := { block := some block }

def tip : Env := { limits := some { latestCommittedBlock := 102, proofLagBlock := 101 } }

def signs : Env := { signature := some signature }

def answers (status : StatusCode) (j : Json) : Env := { http := .answered status [bytesOf j] false }

/-- `start` on an empty disk: the anchor block becomes the first checkpoint. -/
def starting : List Env := still 1 ++ [served anchorBlock] ++ still 9

/-- A cycle that scans the next two blocks and takes its lists. -/
def scanning : List Env :=
  still 4 ++ [tip] ++ still 1 ++ [served burnBlock] ++ still 3 ++ [served emptyBlock] ++ still 7

/-- A cycle with no new block, up to its lists. -/
def idling : List Env := still 4 ++ [tip, served emptyBlock] ++ still 5

/-- A fresh burn from its preparation to the answer to its POST. -/
def sending (answer : Env) : List Env := [answers .ok prepared, signs, signs] ++ still 3 ++ [answer]

/-- The first cycle submits the withdrawal, the second finds it expired, the third prepares it again. -/
def expiring : List Lifetime :=
  [.serve config 3 (starting ++ scanning ++ still 4 ++ sending (answers .created created) ++ still 2 ++
    idling ++ still 4 ++ [answers .ok expired] ++ still 2 ++ idling ++ still 5)]

/-- The newest act prepares the note again, and its ID stands as it did five acts before. -/
def preparesAgain : List Entry → Bool
  | f :: _ :: _ :: _ :: _ :: e :: _ => f.act.prepares note.id && decide (f.store.events = e.store.events) &&
      (e.store.row note.id).any fun r => r.withdrawalId == some withdrawalId
  | _ => false

theorem preparesAgain_spec {log : List Entry} (h : preparesAgain log = true) :
    ∃ later f mid e earlier r, log = later ++ f :: (mid ++ e :: earlier) ∧ e.store.row note.id = some r ∧
      r.withdrawalId = some withdrawalId ∧ f.store.events = e.store.events ∧ f.act.prepares note.id = true := by
  unfold preparesAgain at h
  split at h
  · rename_i f a b c d e earlier
    simp only [Bool.and_eq_true, decide_eq_true_eq] at h
    obtain ⟨⟨hprep, hev⟩, hrow⟩ := h
    obtain ⟨r, hr, hid⟩ := (Option.any_eq_true _ _).1 hrow
    exact ⟨[], f, [a, b, c, d], e, earlier, r, rfl, hr, by simpa using hid, hev, hprep⟩
  · cases h

end Sample

/-- An ID is committed, nothing is authorized after it, and yet the next request is a preparation. -/
theorem expired_prepared_again : ∃ later f mid e earlier r, (runAll Sample.crates Sample.expiring).log =
    later ++ f :: (mid ++ e :: earlier) ∧ e.store.row Sample.note.id = some r ∧
    r.withdrawalId = some Sample.withdrawalId ∧ f.store.events = e.store.events ∧
    f.act.prepares Sample.note.id = true :=
  Sample.preparesAgain_spec (by decide +kernel)

end LightAttester
