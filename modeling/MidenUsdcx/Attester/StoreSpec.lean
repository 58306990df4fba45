import MidenUsdcx.Attester.Store
/-!
# What each transaction leaves

One inversion lemma for each write of `store.rs`: if it commits, these were its conditions and this is
the store it leaves. Everything later about the store goes through these.
-/
namespace LightAttester
open Checked Keyed

namespace Store
variable {C : Crates} {s s' : Store}

/-! ## The primitive updates -/

section
variable (s : Store) (b : BurnRow) (r : SavedSubmission) (e : EventRow) (n m : NoteId)

theorem putBurn_burn : (s.putBurn b).burn n = if b.noteId = n then some b else s.burn n := s.burns.get?_put b n
@[simp] theorem putBurn_row : (s.putBurn b).row n = s.row n := rfl
@[simp] theorem putBurn_events : (s.putBurn b).events = s.events := rfl
@[simp] theorem putBurn_state : (s.putBurn b).state = s.state := rfl
@[simp] theorem putBurn_version : (s.putBurn b).version = s.version := rfl
@[simp] theorem putBurn_submissions : (s.putBurn b).submissions = s.submissions := rfl

theorem putRow_row : (s.putRow r).row n = if r.noteId = n then some r else s.row n := s.submissions.get?_put r n
@[simp] theorem putRow_burn : (s.putRow r).burn n = s.burn n := rfl
@[simp] theorem putRow_events : (s.putRow r).events = s.events := rfl
@[simp] theorem putRow_state : (s.putRow r).state = s.state := rfl
@[simp] theorem putRow_version : (s.putRow r).version = s.version := rfl
@[simp] theorem putRow_burns : (s.putRow r).burns = s.burns := rfl

theorem dropRow_row : (s.dropRow n).row m = if m = n then none else s.row m := s.submissions.get?_erase n m
@[simp] theorem dropRow_burn : (s.dropRow n).burn m = s.burn m := rfl
@[simp] theorem dropRow_events : (s.dropRow n).events = s.events := rfl
@[simp] theorem dropRow_state : (s.dropRow n).state = s.state := rfl
@[simp] theorem dropRow_version : (s.dropRow n).version = s.version := rfl
@[simp] theorem dropRow_burns : (s.dropRow n).burns = s.burns := rfl

@[simp] theorem addEvent_row : (s.addEvent e).row n = s.row n := rfl
@[simp] theorem addEvent_burn : (s.addEvent e).burn n = s.burn n := rfl
@[simp] theorem addEvent_events : (s.addEvent e).events = s.events ++ [e] := rfl
@[simp] theorem addEvent_state : (s.addEvent e).state = s.state := rfl
@[simp] theorem addEvent_version : (s.addEvent e).version = s.version := rfl
@[simp] theorem addEvent_burns : (s.addEvent e).burns = s.burns := rfl
@[simp] theorem addEvent_submissions : (s.addEvent e).submissions = s.submissions := rfl

theorem clearWait_burn : (s.clearWait n).burn m =
    if m = n then (s.burn n).map fun b => { b with limitRetryAt := none } else s.burn m := by
  unfold clearWait
  cases hb : s.burn n with
  | none =>
    by_cases h : m = n
    · subst h; simp [hb]
    · simp [h]
  | some b =>
    have hid : b.noteId = n := Table.key_of_get? hb
    have hput := putBurn_burn s { b with limitRetryAt := none } m
    simp only [Option.map_some]
    rw [hput]
    have : ({ b with limitRetryAt := none } : BurnRow).noteId = b.noteId := rfl
    rw [this, hid]
    by_cases h : m = n
    · simp [h]
    · simp [h, Ne.symm h]

@[simp] theorem clearWait_row : (s.clearWait n).row m = s.row m := by unfold clearWait; split <;> rfl
@[simp] theorem clearWait_events : (s.clearWait n).events = s.events := by unfold clearWait; split <;> rfl
@[simp] theorem clearWait_state : (s.clearWait n).state = s.state := by unfold clearWait; split <;> rfl
@[simp] theorem clearWait_version : (s.clearWait n).version = s.version := by unfold clearWait; split <;> rfl

end

theorem row_noteId {n : NoteId} {r : SavedSubmission} (h : s.row n = some r) : r.noteId = n := Table.key_of_get? h

theorem burn_noteId {n : NoteId} {b : BurnRow} (h : s.burn n = some b) : b.noteId = n := Table.key_of_get? h

theorem recordEvent_ok {n : NoteId} {kind : EventKind} {cs : Option String} (h : s.recordEvent n kind cs = .ok s') :
    ∃ b, s.burn n = some b ∧ s' = s.addEvent (eventOf b (s.row n) kind cs) := by
  simp only [recordEvent, orThrow_bind_ok, pure_ok] at h
  obtain ⟨b, hb, rfl⟩ := h
  exact ⟨b, hb, rfl⟩

theorem putBurn_burn_self {b : BurnRow} {n : NoteId} (h : b.noteId = n) : (s.putBurn b).burn n = some b :=
  (putBurn_burn s b n).trans (if_pos h)

/-! ## The reads -/

theorem mem_queue {p : BurnRow → Bool} {b : BurnRow} : b ∈ s.queue p ↔ s.burn b.noteId = some b ∧ p b = true := by
  rw [queue, List.mem_insertionSort, List.mem_filter, Table.mem_rows]
  rfl

theorem decodeCandidate_ok {faucet : AccountId} {b : BurnRow} {c : BurnCandidate}
    (h : decodeCandidate C faucet b = .ok c) : BurnCandidate.new C b.note b.creationBlock faucet = .ok c := by
  rw [decodeCandidate, orThrow_ok] at h
  cases hn : BurnCandidate.new C b.note b.creationBlock faucet with
  | error e => rw [hn] at h; cases h
  | ok c' => rw [hn] at h; cases h; rfl

/-- A candidate found by its nullifier is a recorded note the faucet has not consumed yet. -/
theorem candidateByNullifier_ok {faucet : AccountId} {nf : Nullifier} {c : BurnCandidate}
    (h : s.candidateByNullifier C faucet nf = .ok (some c)) :
    ∃ b, s.burn c.noteId = some b ∧ b.consumptionBlock = none ∧ b.nullifier = nf ∧ b.note = c.note ∧
      b.creationBlock = c.creationBlock ∧ BurnCandidate.new C b.note b.creationBlock faucet = .ok c := by
  rw [candidateByNullifier, bind_ok] at h
  obtain ⟨cs, hcs, h⟩ := h
  have hmem : c ∈ cs := List.mem_of_getLast? (pure_ok.1 h)
  obtain ⟨b, hb, hdec⟩ := mem_of_mapM_ok hcs hmem
  obtain ⟨hburn, hp⟩ := mem_queue.1 hb
  simp only [Bool.and_eq_true, Option.isNone_iff_eq_none, beq_iff_eq] at hp
  have hnew := decodeCandidate_ok hdec
  obtain ⟨hnote, hblock⟩ := BurnCandidate.new_ok hnew
  have hid : c.noteId = b.noteId := by rw [BurnCandidate.noteId, hnote]; rfl
  exact ⟨b, hid ▸ hburn, hp.1, hp.2, hnote.symm, hblock.symm, hnew⟩

/-! ## The transactions -/

theorem saveSubmission_ok {rec : SavedSubmission} (h : s.saveSubmission C rec = .ok s') :
    submissionOk C rec = true ∧ (∀ r, s.row rec.noteId = some r → r.status = .expired ∧ r.withdrawalId.isSome) ∧
      ∃ b, s.burn rec.noteId = some b ∧ s' = (s.putRow (authorizedRow rec)).addEvent
        (eventOf b (some (authorizedRow rec)) .authorized none) := by
  simp only [saveSubmission, ensure_bind_ok] at h
  obtain ⟨hv, hr, h⟩ := h
  obtain ⟨b, hb, rfl⟩ := recordEvent_ok h
  refine ⟨hv, fun r hrow => ?_, b, by simpa using hb, ?_⟩
  · simpa [replaceable, hrow] using hr
  · have : (s.putRow (authorizedRow rec)).row rec.noteId = some (authorizedRow rec) := by
      rw [putRow_row]; exact if_pos rfl
    rw [this]

/-- A release gives up a burn's hold, or deletes a held submission without an ID. -/
theorem releaseHold_ok {n : NoteId} {flag : Bool} {k : Nat × Nat} (h : s.releaseHold n flag = .ok (s', k)) :
    (∃ b, s.burn n = some b ∧ b.holdReason.isSome ∧
      s' = (s.addEvent (eventOf b (s.row n) .burnReleased none)).putBurn { b with holdReason := none }) ∨
    (∃ b r, s.burn n = some b ∧ b.holdReason = none ∧ s.row n = some r ∧ r.status = .held ∧ r.withdrawalId = none ∧
      s' = (s.addEvent (eventOf b (some r) .operatorRelease none)).dropRow n) := by
  unfold releaseHold at h
  split at h
  · rename_i b hb
    obtain ⟨hb, hheld⟩ := Option.filter_eq_some_iff.1 hb
    rw [bind_ok] at h
    obtain ⟨s1, h1, h⟩ := h
    obtain ⟨b', hb', rfl⟩ := recordEvent_ok h1
    obtain rfl : b = b' := Option.some.inj (hb.symm.trans hb')
    simp only [pure_ok, Prod.mk.injEq] at h
    exact Or.inl ⟨b, hb, hheld, h.1.symm⟩
  · rename_i hnone
    simp only [ensure_bind_ok] at h
    obtain ⟨hrel, -, h⟩ := h
    rw [bind_ok] at h
    obtain ⟨s1, h1, h⟩ := h
    obtain ⟨b, hb, rfl⟩ := recordEvent_ok h1
    simp only [pure_ok, Prod.mk.injEq] at h
    have hhold : b.holdReason = none := by
      rw [hb] at hnone
      simpa [Option.filter] using hnone
    cases hrow : s.row n with
    | none => simp [releasableRow, hrow] at hrel
    | some r =>
      simp only [releasableRow, hrow, Option.any_some, Bool.and_eq_true, decide_eq_true_eq,
        Option.isNone_iff_eq_none] at hrel
      rw [hrow] at h
      exact Or.inr ⟨b, r, hb, hhold, rfl, hrel.1.1, hrel.2, h.1.symm⟩

theorem releaseChecked_ok {sel : ReleaseSelection} {k : Nat × Nat} (h : s.releaseChecked sel = .ok (s', k)) :
    s.releaseHold sel.noteId sel.circleNotAccepted = .ok (s', k) := by
  simp only [releaseChecked, ensure_bind_ok] at h
  obtain ⟨-, h⟩ := h
  split at h
  · split at h <;> cases h
  · simp only [ensure_bind_ok] at h
    exact h.2

/-- What every single release keeps, the offline command keeps. -/
theorem releaseEach_induct {P : Store → Prop}
    (step : ∀ {s s' : Store} {n : NoteId} {flag : Bool} {k : Nat × Nat}, P s → s.releaseHold n flag = .ok (s', k) → P s') :
    ∀ {s : Store} {ns : List NoteId} {b w : Nat} {k : Nat × Nat}, P s → s.releaseEach b w ns = .ok (s', k) → P s'
  | s, [], b, w, k, hP, h => by
    simp only [releaseEach, pure_ok, Prod.mk.injEq] at h
    exact h.1 ▸ hP
  | s, n :: ns, b, w, k, hP, h => by
    unfold releaseEach at h
    rw [bind_ok] at h
    obtain ⟨⟨s1, k1⟩, h1, h2⟩ := h
    exact releaseEach_induct step (step hP h1) h2

theorem release_apply_ok {sel : ReleaseSelection} (h : (Write.release sel).apply C s = .ok s') :
    ∃ k, s.releaseChecked sel = .ok (s', k) := map_fst_ok.1 h

theorem releaseAll_apply_ok {ns : List NoteId} (h : (Write.releaseAll ns).apply C s = .ok s') :
    ∃ k, s.releaseEach 0 0 (noteSet ns) = .ok (s', k) := map_fst_ok.1 h

theorem holdBurn_ok {n : NoteId} {reason : BurnHoldReason} {resp : Option (Nat × Bytes)}
    (h : s.holdBurn n reason resp = .ok s') :
    ∃ b, s.burn n = some b ∧ s' = (s.putBurn { b with holdReason := some reason, limitRetryAt := none }).addEvent
      (.bare n .burnHeld (resp.map (·.1)) (resp.map (·.2)) (some reason)) := by
  simp only [holdBurn, orThrow_bind_ok, pure_ok] at h
  obtain ⟨b, hb, rfl⟩ := h
  exact ⟨b, hb, rfl⟩

/-- An outcome is written over the row it is about; the history keeps it unless it repeats the latest
outcome of this authorization. -/
theorem updateSubmissionOutcome_ok {out : SavedSubmission} (h : s.updateSubmissionOutcome C out = .ok s') :
    outcomeOk out = true ∧ ∃ r s1, s.row out.noteId = some r ∧
      ((s1 = s.putRow (withOutcome r out) ∧
          s.repeatsLatestOutcome out (circleStatus C out.lastResponse) = true) ∨
        ∃ b, s.burn out.noteId = some b ∧ s1 = (s.putRow (withOutcome r out)).addEvent
          (eventOf b (some (withOutcome r out)) .outcome (circleStatus C out.lastResponse))) ∧
      s' = if endsWait out.status then s1.clearWait out.noteId else s1 := by
  simp only [updateSubmissionOutcome, ensure_bind_ok, orThrow_bind_ok] at h
  obtain ⟨hv, r, hr, h⟩ := h
  split at h
  · rename_i hrep
    exact ⟨hv, r, _, hr, Or.inl ⟨rfl, hrep⟩, (pure_ok.1 h).symm⟩
  · rw [bind_ok] at h
    obtain ⟨s1, h1, h2⟩ := h
    obtain ⟨b, hb, rfl⟩ := recordEvent_ok h1
    have hid : r.noteId = out.noteId := row_noteId hr
    have hput : (s.putRow (withOutcome r out)).row out.noteId = some (withOutcome r out) := by
      rw [putRow_row]; exact if_pos hid
    rw [hput] at h2
    exact ⟨hv, r, _, hr, Or.inr ⟨b, by simpa using hb, rfl⟩, (pure_ok.1 h2).symm⟩

/-- What an outcome leaves: its row, its burn without the wait that is over, and the answer at the end of the history,
unless the latest one says the same. -/
structure OutcomeLeaves (C : Crates) (s s' : Store) (out r : SavedSubmission) : Prop where
  stored : s.row out.noteId = some r
  row : s'.row out.noteId = some (withOutcome r out)
  rows : ∀ m, m ≠ out.noteId → s'.row m = s.row m
  burn : ∀ m, s'.burn m = if m = out.noteId ∧ endsWait out.status then
    (s.burn m).map fun b => { b with limitRetryAt := none } else s.burn m
  events : (s'.events = s.events ∧ s.repeatsLatestOutcome out (circleStatus C out.lastResponse) = true) ∨
    ∃ b, s.burn out.noteId = some b ∧ s'.events = s.events ++
      [eventOf b (some (withOutcome r out)) .outcome (circleStatus C out.lastResponse)]
  state : s'.state = s.state
  version : s'.version = s.version

theorem outcome_leaves {out : SavedSubmission} (h : s.updateSubmissionOutcome C out = .ok s') :
    ∃ r, OutcomeLeaves C s s' out r := by
  obtain ⟨-, r, s1, hr, hs1, rfl⟩ := updateSubmissionOutcome_ok h
  have hid : (withOutcome r out).noteId = out.noteId := row_noteId (s := s) (r := r) hr
  have hput : ∀ m, (s.putRow (withOutcome r out)).row m = if m = out.noteId then some (withOutcome r out) else s.row m := by
    intro m
    rw [putRow_row, hid]
    by_cases hm : m = out.noteId
    · rw [if_pos hm, if_pos hm.symm]
    · rw [if_neg hm, if_neg (Ne.symm hm)]
  -- before the wait is cleared
  have hleaves : (∀ m, s1.row m = if m = out.noteId then some (withOutcome r out) else s.row m) ∧ s1.burn = s.burn ∧
      ((s1.events = s.events ∧ s.repeatsLatestOutcome out (circleStatus C out.lastResponse) = true) ∨
        ∃ b, s.burn out.noteId = some b ∧ s1.events = s.events ++
          [eventOf b (some (withOutcome r out)) .outcome (circleStatus C out.lastResponse)]) ∧
      s1.state = s.state ∧ s1.version = s.version := by
    rcases hs1 with ⟨rfl, hrep⟩ | ⟨b, hb, rfl⟩
    · exact ⟨hput, rfl, .inl ⟨rfl, hrep⟩, rfl, rfl⟩
    · exact ⟨hput, rfl, .inr ⟨b, hb, rfl⟩, rfl, rfl⟩
  obtain ⟨hrow, hburn, hevents, hstate, hversion⟩ := hleaves
  refine ⟨r, ?_⟩
  by_cases hends : endsWait out.status = true
  · rw [if_pos hends]
    refine ⟨hr, ?_, fun m hm => ?_, fun m => ?_, ?_, ?_, ?_⟩
    · rw [clearWait_row, hrow, if_pos rfl]
    · rw [clearWait_row, hrow, if_neg hm]
    · rw [clearWait_burn, hburn]
      by_cases hm : m = out.noteId
      · rw [if_pos hm, if_pos ⟨hm, hends⟩, hm]
      · rw [if_neg hm, if_neg fun h => hm h.1]
    · rw [clearWait_events]
      exact hevents
    · rw [clearWait_state, hstate]
    · rw [clearWait_version, hversion]
  · rw [if_neg hends]
    refine ⟨hr, ?_, fun m hm => ?_, fun m => ?_, hevents, hstate, hversion⟩
    · rw [hrow, if_pos rfl]
    · rw [hrow, if_neg hm]
    · rw [if_neg fun h => hends h.2, hburn]

/-- An outcome moves no hold of a burn. -/
theorem OutcomeLeaves.holdReason {out r : SavedSubmission} (h : OutcomeLeaves C s s' out r) (m : NoteId) :
    (s'.burn m).bind (·.holdReason) = (s.burn m).bind (·.holdReason) := by
  rw [h.burn m]
  split
  · cases s.burn m <;> rfl
  · rfl

theorem advanceLimitRetry_ok {n : NoteId} {t : Nat} (h : s.advanceLimitRetry n t = .ok s') :
    ∃ b, s.burn n = some b ∧ b.limitRetryAt.isSome ∧ s' = s.putBurn { b with limitRetryAt := some t } := by
  simp only [advanceLimitRetry, orThrow_bind_ok, pure_ok] at h
  obtain ⟨b, hb, rfl⟩ := h
  obtain ⟨hb, hw⟩ := Option.filter_eq_some_iff.1 hb
  exact ⟨b, hb, hw, rfl⟩

theorem sameRequest_eq_some {n : NoteId} {saved r : SavedSubmission} (h : s.sameRequest n saved = some r) :
    s.row n = some r ∧ r.status = .submitting ∧ r.withdrawalId = none ∧ r.endpoint = saved.endpoint ∧
      r.body = saved.body ∧ r.transferSpecHash = saved.transferSpecHash := by
  obtain ⟨hr, hc⟩ := Option.filter_eq_some_iff.1 h
  simp only [Bool.and_eq_true, decide_eq_true_eq, Option.isNone_iff_eq_none] at hc
  exact ⟨hr, hc.1.1.1.1, hc.1.1.1.2, hc.1.1.2, hc.1.2, hc.2⟩

/-- The rows a limit rejection leaves: a first send's is deleted, a resend's marked, and a rejected
preparation has none to touch. -/
inductive LimitRow (s : Store) (n : NoteId) (body : Bytes) :
    Option (SavedSubmission × SubmissionAttempt) → (Store → Store) → Prop where
  | prepare : LimitRow s n body none id
  | first {saved r} : s.sameRequest n saved = some r → LimitRow s n body (some (saved, .first)) (·.dropRow n)
  | recovery {saved r} : s.sameRequest n saved = some r →
      LimitRow s n body (some (saved, .recovery)) (·.putRow (limitedRow r body))

theorem recordLimitRejection_ok {n : NoteId} {t : Nat} {body : Bytes}
    {sub : Option (SavedSubmission × SubmissionAttempt)} (h : s.recordLimitRejection n t body sub = .ok s') :
    ∃ b f, s.burn n = some b ∧ b.consumptionBlock.isSome ∧ b.holdReason = none ∧ LimitRow s n body sub f ∧
      s' = (f (s.putBurn { b with limitRetryAt := some t })).addEvent
        (.bare n .withdrawalLimit (some 400) (some body) none) := by
  simp only [recordLimitRejection, orThrow_bind_ok] at h
  obtain ⟨b, hb, h⟩ := h
  obtain ⟨hb, hc⟩ := Option.filter_eq_some_iff.1 hb
  simp only [Bool.and_eq_true, Option.isNone_iff_eq_none] at hc
  have hsame : ∀ saved, (s.putBurn { b with limitRetryAt := some t }).sameRequest n saved = s.sameRequest n saved :=
    fun _ => rfl
  split at h
  · exact ⟨b, id, hb, hc.1, hc.2, .prepare, (pure_ok.1 h).symm⟩
  · simp only [ensure_bind_ok, orThrow_bind_ok, hsame] at h
    obtain ⟨-, r, hr, h⟩ := h
    split at h
    · exact ⟨b, _, hb, hc.1, hc.2, .first hr, (pure_ok.1 h).symm⟩
    · exact ⟨b, _, hb, hc.1, hc.2, .recovery hr, (pure_ok.1 h).symm⟩

theorem LimitRow.burns {n : NoteId} {body : Bytes} {sub : Option (SavedSubmission × SubmissionAttempt)}
    {f : Store → Store} (h : LimitRow s n body sub f) (s1 : Store) :
    (f s1).burns = s1.burns ∧ (f s1).events = s1.events ∧ (f s1).state = s1.state ∧ (f s1).version = s1.version := by
  cases h <;> exact ⟨rfl, rfl, rfl, rfl⟩

/-- A limit rejection touches no other note's row. -/
theorem LimitRow.row_ne {n m : NoteId} {body : Bytes} {sub : Option (SavedSubmission × SubmissionAttempt)}
    {f : Store → Store} (h : LimitRow s n body sub f) (s1 : Store) (hm : m ≠ n) : (f s1).row m = s1.row m := by
  cases h with
  | prepare => rfl
  | first _ => rw [dropRow_row, if_neg hm]
  | recovery hr =>
    have hid := row_noteId (sameRequest_eq_some hr).1
    rw [putRow_row, if_neg]
    exact fun h => hm (h.symm.trans hid)

/-- What a limit rejection leaves: the deadline on the burn, the rejection at the end of the history, and a row as
`f` makes it. -/
structure LimitLeaves (s s' : Store) (n : NoteId) (t : Nat) (body : Bytes)
    (sub : Option (SavedSubmission × SubmissionAttempt)) (b : BurnRow) (f : Store → Store) : Prop where
  stored : s.burn n = some b
  consumed : b.consumptionBlock.isSome
  unheld : b.holdReason = none
  source : LimitRow s n body sub f
  row : s'.row n = (f s).row n
  rows : ∀ m, m ≠ n → s'.row m = s.row m
  burn : ∀ m, s'.burn m = if m = n then some { b with limitRetryAt := some t } else s.burn m
  events : s'.events = s.events ++ [.bare n .withdrawalLimit (some 400) (some body) none]
  state : s'.state = s.state
  version : s'.version = s.version

theorem limit_leaves {n : NoteId} {t : Nat} {body : Bytes} {sub : Option (SavedSubmission × SubmissionAttempt)}
    (h : s.recordLimitRejection n t body sub = .ok s') : ∃ b f, LimitLeaves s s' n t body sub b f := by
  obtain ⟨b, f, hb, hc, hh, hf, rfl⟩ := recordLimitRejection_ok h
  have hid : ({ b with limitRetryAt := some t } : BurnRow).noteId = n := burn_noteId (s := s) (b := b) hb
  obtain ⟨hburns, hevents, hstate, hversion⟩ := hf.burns (s.putBurn { b with limitRetryAt := some t })
  refine ⟨b, f, hb, hc, hh, hf, ?_, fun m hm => hf.row_ne _ hm, fun m => ?_, ?_, hstate, hversion⟩
  · cases hf with
    | prepare => rfl
    | first _ => exact (dropRow_row ..).trans (dropRow_row ..).symm
    | recovery _ => exact (putRow_row ..).trans (putRow_row ..).symm
  · show (f _).burns.get? m = _
    rw [hburns]
    show (s.putBurn _).burn m = _
    rw [putBurn_burn, hid]
    by_cases hm : m = n
    · rw [if_pos hm, if_pos hm.symm]
    · rw [if_neg hm, if_neg (Ne.symm hm)]
  · rw [addEvent_events, hevents]
    rfl

/-- A limit rejection moves no hold of a burn. -/
theorem LimitLeaves.holdReason {n : NoteId} {t : Nat} {body : Bytes} {sub : Option (SavedSubmission × SubmissionAttempt)}
    {b : BurnRow} {f : Store → Store} (h : LimitLeaves s s' n t body sub b f) (m : NoteId) :
    (s'.burn m).bind (·.holdReason) = (s.burn m).bind (·.holdReason) := by
  rw [h.burn m]
  split
  · rename_i hm
    rw [hm, h.stored]
    rfl
  · rfl

/-! ## Scanning a block -/

theorem insertCandidate_ok {c : BurnCandidate} (h : s.insertCandidate c = .ok s') :
    s.burn c.noteId = none ∧ (∀ b ∈ s.burns.rows, b.nullifier ≠ c.nullifier) ∧
      s' = s.putBurn { note := c.note, creationBlock := c.creationBlock, consumptionBlock := none,
                       holdReason := none, limitRetryAt := none } := by
  simp only [insertCandidate, ensure_bind_ok, pure_ok] at h
  obtain ⟨⟨h1, h2⟩, rfl⟩ := h
  exact ⟨h1, h2, rfl⟩

theorem insertBurn_ok {d : DiscoveredBurn} (h : s.insertBurn d = .ok s') :
    d.creationBlock < d.consumptionBlock ∧ s.burn d.noteId = none ∧
      (∀ b ∈ s.burns.rows, b.nullifier ≠ d.nullifier) ∧
      s' = s.putBurn { note := d.note, creationBlock := d.creationBlock,
                       consumptionBlock := some d.consumptionBlock, holdReason := none, limitRetryAt := none } ∨
    ∃ b, s.burn d.noteId = some b ∧ b.consumptionBlock = none ∧ b.creationBlock < d.consumptionBlock ∧
      s' = s.putBurn { b with consumptionBlock := some d.consumptionBlock } := by
  unfold insertBurn at h
  split at h
  · rename_i b hb
    obtain ⟨hb, hc⟩ := Option.filter_eq_some_iff.1 hb
    simp only [ensure_bind_ok, pure_ok] at h
    exact Or.inr ⟨b, hb, by simpa using hc, h.1, h.2.symm⟩
  · simp only [ensure_bind_ok, pure_ok] at h
    obtain ⟨⟨h1, h2⟩, h3, rfl⟩ := h
    exact Or.inl ⟨h3, h1, h2, rfl⟩

theorem saveScanProgress_ok {cs : List BurnCandidate} {ds : List DiscoveredBurn} {hd : BlockHeader}
    (h : s.saveScanProgress cs ds hd = .ok s') :
    discoveryOk cs ds hd.blockNum = true ∧ ∃ s1 s2 st, cs.foldlM insertCandidate s = .ok s1 ∧
      ds.foldlM insertBurn s1 = .ok s2 ∧ s2.state = some st ∧
      s' = { s2 with state := some { st with checkpoint := some hd } } := by
  simp only [saveScanProgress, ensure_bind_ok] at h
  obtain ⟨hv, h⟩ := h
  rw [bind_ok] at h
  obtain ⟨s1, h1, h⟩ := h
  rw [bind_ok] at h
  obtain ⟨s2, h2, h⟩ := h
  simp only [orThrow_bind_ok, pure_ok] at h
  obtain ⟨st, hst, rfl⟩ := h
  exact ⟨hv, s1, s2, st, h1, h2, hst, rfl⟩

/-- What each insertion keeps, a scan keeps. -/
theorem scan_induct {P : Store → Prop} {cs : List BurnCandidate} {ds : List DiscoveredBurn} {s1 s2 : Store}
    (cand : ∀ s c s', c ∈ cs → P s → s.insertCandidate c = .ok s' → P s')
    (prom : ∀ s d s', d ∈ ds → P s → s.insertBurn d = .ok s' → P s')
    (hP : P s) (h1 : cs.foldlM insertCandidate s = .ok s1) (h2 : ds.foldlM insertBurn s1 = .ok s2) : P s2 :=
  foldlM_induct prom (foldlM_induct cand hP h1) h2

theorem scan_state {cs : List BurnCandidate} {ds : List DiscoveredBurn} {s1 s2 : Store}
    (h1 : cs.foldlM insertCandidate s = .ok s1) (h2 : ds.foldlM insertBurn s1 = .ok s2) : s2.state = s.state := by
  refine scan_induct (P := fun z => z.state = s.state) ?_ ?_ rfl h1 h2
  · intro a c z _ ha hz
    obtain ⟨-, -, rfl⟩ := insertCandidate_ok hz
    exact ha
  · intro a d z _ ha hz
    rcases insertBurn_ok hz with ⟨-, -, -, rfl⟩ | ⟨b, -, -, -, rfl⟩ <;> exact ha

/-- A scan moves the checkpoint and leaves the rest of the chain state. -/
theorem saveScanProgress_state {cs : List BurnCandidate} {ds : List DiscoveredBurn} {hd : BlockHeader}
    {st : AttesterState} (h : s.saveScanProgress cs ds hd = .ok s') (hst : s.state = some st) :
    s'.state = some { st with checkpoint := some hd } := by
  obtain ⟨-, s1, s2, st', h1, h2, hst', rfl⟩ := saveScanProgress_ok h
  rw [scan_state h1 h2, hst] at hst'
  cases hst'
  rfl

/-! ## What a transaction leaves alone -/

/-- A single release touches one note: it clears a burn's hold or deletes a held row. -/
theorem releaseHold_frame {n : NoteId} {flag : Bool} {k : Nat × Nat} (h : s.releaseHold n flag = .ok (s', k))
    (m : NoteId) :
    (s'.burn m = s.burn m ∨ ∃ b, s.burn m = some b ∧ b.holdReason.isSome ∧ s'.burn m = some { b with holdReason := none }) ∧
    (s'.row m = s.row m ∨ ∃ r, s.row m = some r ∧ r.status = .held ∧ s'.row m = none) ∧
    s'.state = s.state ∧ s'.version = s.version := by
  rcases releaseHold_ok h with ⟨b, hb, hheld, rfl⟩ | ⟨b, r, hb, -, hr, hst, -, rfl⟩
  · refine ⟨?_, Or.inl rfl, rfl, rfl⟩
    rw [putBurn_burn]
    have hid : b.noteId = n := burn_noteId hb
    by_cases hm : n = m
    · subst hm
      exact Or.inr ⟨b, hb, hheld, if_pos hid⟩
    · exact Or.inl (if_neg fun e => hm (hid.symm.trans e))
  · refine ⟨Or.inl rfl, ?_, rfl, rfl⟩
    rw [dropRow_row]
    by_cases hm : m = n
    · subst hm
      exact Or.inr ⟨r, hr, hst, if_pos rfl⟩
    · exact Or.inl (if_neg hm)

end Store

/-- What discovery recorded of a burn; the rest of the row is the withdrawal's. -/
def BurnRow.facts (b : BurnRow) : Note × BlockNumber × Option BlockNumber :=
  (b.note, b.creationBlock, b.consumptionBlock)

namespace Write
open Store
variable {C : Crates} {s s' : Store}

/-- The note a transaction is about. -/
def note : Write → Option NoteId
  | .save record | .outcome record => some record.noteId
  | .hold n _ _ | .advance n _ | .limit n _ _ _ => some n
  | .create _ _ | .scan _ _ _ | .release _ | .releaseAll _ => none

def isRelease : Write → Bool
  | .release _ | .releaseAll _ => true
  | _ => false

/-- What every single release keeps, a transaction that releases keeps. -/
theorem release_induct {P : Store → Prop} {w : Write}
    (step : ∀ {s s' : Store} {n : NoteId} {flag : Bool} {k : Nat × Nat}, P s → s.releaseHold n flag = .ok (s', k) → P s')
    (h : w.apply C s = .ok s') (hw : w.isRelease = true) (start : P s) : P s' := by
  cases w with
  | release sel =>
    obtain ⟨k, hk⟩ := release_apply_ok h
    exact step start (releaseChecked_ok hk)
  | releaseAll ns =>
    obtain ⟨k, hk⟩ := releaseAll_apply_ok h
    exact releaseEach_induct step start hk
  | _ => cases hw

theorem putBurn_ne {b : BurnRow} {n m : NoteId} (hb : b.noteId = n) (hm : m ≠ n) :
    (s.putBurn b).burn m = s.burn m := by
  rw [putBurn_burn, if_neg fun e => hm (e.symm.trans hb)]

theorem putRow_ne {r : SavedSubmission} {n m : NoteId} (hr : r.noteId = n) (hm : m ≠ n) :
    (s.putRow r).row m = s.row m := by
  rw [putRow_row, if_neg fun e => hm (e.symm.trans hr)]

/-- A transaction about one note leaves every other note, the checkpoint and the layout alone. -/
theorem apply_frame {w : Write} {n m : NoteId} (h : w.apply C s = .ok s') (hn : w.note = some n) (hm : m ≠ n) :
    s'.burn m = s.burn m ∧ s'.row m = s.row m := by
  cases w with
  | save rec =>
    cases hn
    obtain ⟨-, -, b, -, rfl⟩ := saveSubmission_ok h
    exact ⟨rfl, putRow_ne (n := rec.noteId) rfl hm⟩
  | outcome out =>
    cases hn
    obtain ⟨r, hleaves⟩ := outcome_leaves h
    exact ⟨(hleaves.burn m).trans (if_neg fun h => hm h.1), hleaves.rows m hm⟩
  | hold k reason resp =>
    cases hn
    obtain ⟨b, hb, rfl⟩ := holdBurn_ok h
    exact ⟨putBurn_ne (burn_noteId (s := s) (b := b) hb) hm, rfl⟩
  | advance k t =>
    cases hn
    obtain ⟨b, hb, -, rfl⟩ := advanceLimitRetry_ok h
    exact ⟨putBurn_ne (burn_noteId (s := s) (b := b) hb) hm, rfl⟩
  | limit k t body sub =>
    cases hn
    obtain ⟨b, f, hleaves⟩ := limit_leaves h
    exact ⟨(hleaves.burn m).trans (if_neg hm), hleaves.rows m hm⟩
  | create | scan | release | releaseAll => cases hn

theorem putBurn_facts {b c : BurnRow} {n : NoteId} (hb : s.burn n = some b) (hf : c.facts = b.facts) (m : NoteId) :
    ((s.putBurn c).burn m).map BurnRow.facts = (s.burn m).map BurnRow.facts := by
  have hid : b.noteId = n := burn_noteId hb
  have hid' : c.noteId = n := by
    have : c.note = b.note := congrArg Prod.fst hf
    simpa [BurnRow.noteId, this] using hid
  rw [putBurn_burn, hid']
  split
  · rename_i hm
    subst hm
    simp [hb, hf]
  · rfl

/-- Only scanning a block changes what discovery recorded, the checkpoint and the layout. -/
theorem apply_facts {w : Write} (h : w.apply C s = .ok s') (hw : w.note.isSome ∨ w.isRelease = true) :
    (∀ m, (s'.burn m).map BurnRow.facts = (s.burn m).map BurnRow.facts) ∧ s'.state = s.state ∧
      s'.version = s.version := by
  have release : ∀ {s s' : Store} {n : NoteId} {flag : Bool} {k : Nat × Nat}, s.releaseHold n flag = .ok (s', k) →
      (∀ m, (s'.burn m).map BurnRow.facts = (s.burn m).map BurnRow.facts) ∧ s'.state = s.state ∧
        s'.version = s.version := by
    intro s s' n flag k h
    refine ⟨fun m => ?_, (releaseHold_frame h n).2.2⟩
    rcases (releaseHold_frame h m).1 with he | ⟨b, hb, -, hb'⟩
    · rw [he]
    · rw [hb, hb']; rfl
  cases w with
  | save rec =>
    obtain ⟨-, -, b, -, rfl⟩ := saveSubmission_ok h
    exact ⟨fun _ => rfl, rfl, rfl⟩
  | outcome out =>
    obtain ⟨r, hleaves⟩ := outcome_leaves h
    refine ⟨fun m => ?_, hleaves.state, hleaves.version⟩
    rw [hleaves.burn m]
    split
    · rw [Option.map_map]
      rfl
    · rfl
  | hold k reason resp =>
    obtain ⟨b, hb, rfl⟩ := holdBurn_ok h
    exact ⟨putBurn_facts (c := { b with holdReason := some reason, limitRetryAt := none }) hb rfl, rfl, rfl⟩
  | advance k t =>
    obtain ⟨b, hb, -, rfl⟩ := advanceLimitRetry_ok h
    exact ⟨putBurn_facts (c := { b with limitRetryAt := some t }) hb rfl, rfl, rfl⟩
  | limit k t body sub =>
    obtain ⟨b, f, hleaves⟩ := limit_leaves h
    refine ⟨fun m => ?_, hleaves.state, hleaves.version⟩
    rw [hleaves.burn m]
    split
    · rename_i hm
      rw [hm, hleaves.stored]
      rfl
    · rfl
  | release | releaseAll =>
    refine release_induct (P := fun s1 => (∀ m, (s1.burn m).map BurnRow.facts = (s.burn m).map BurnRow.facts) ∧
      s1.state = s.state ∧ s1.version = s.version) (fun hP hrel => ?_) h rfl ⟨fun _ => rfl, rfl, rfl⟩
    obtain ⟨r1, r2, r3⟩ := release hrel
    exact ⟨fun m => (r1 m).trans (hP.1 m), r2.trans hP.2.1, r3.trans hP.2.2⟩
  | create | scan => simp [note, isRelease] at hw

/-- A release clears holds of burns and deletes held rows; nothing else changes. -/
theorem release_frame {w : Write} (h : w.apply C s = .ok s') (hw : w.isRelease = true) (m : NoteId) :
    (s'.burn m = s.burn m ∨ ∃ b, s.burn m = some b ∧ b.holdReason.isSome ∧ s'.burn m = some { b with holdReason := none }) ∧
    (s'.row m = s.row m ∨ ∃ r, s.row m = some r ∧ r.status = .held ∧ s'.row m = none) := by
  refine release_induct (P := fun s1 =>
    (s1.burn m = s.burn m ∨
      ∃ b, s.burn m = some b ∧ b.holdReason.isSome ∧ s1.burn m = some { b with holdReason := none }) ∧
    (s1.row m = s.row m ∨ ∃ r, s.row m = some r ∧ r.status = .held ∧ s1.row m = none))
    (fun hP hrel => ?_) h hw ⟨Or.inl rfl, Or.inl rfl⟩
  obtain ⟨hb, hr, -⟩ := releaseHold_frame hrel m
  constructor
  · rcases hb with hb | ⟨b, hb, hh, hb'⟩
    · rw [hb]; exact hP.1
    · rcases hP.1 with he | ⟨b0, -, -, he⟩
      · exact Or.inr ⟨b, he ▸ hb, hh, hb'⟩
      · rw [he] at hb; cases hb; simp at hh
  · rcases hr with hr | ⟨r, hr, hh, hr'⟩
    · rw [hr]; exact hP.2
    · rcases hP.2 with he | ⟨r0, -, -, he⟩
      · exact Or.inr ⟨r, he ▸ hr, hh, hr'⟩
      · rw [he] at hr; cases hr

end Write

end LightAttester
