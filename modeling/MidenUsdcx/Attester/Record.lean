import MidenUsdcx.Attester.Limit
/-!
# What the history says of a submission (`store.rs:649-698`, `764-826`, `1031-1089`)

A row of `submission_events` about a submission is an answer (`AUTHORIZED`, `OUTCOME`) or the rejection
of a request by Circle's withdrawal limit (`WITHDRAWAL_LIMIT`). `Told` is what the latest of them says
about the submission as it stands: an answer repeats its status, ID, HTTP status and error. A limit
rejection is about a request, not about the submission: the one of a new preparation leaves an expired
submission as it was, and the one of a resend writes its own HTTP status over the submission's.
-/
namespace LightAttester
open Checked Keyed Store

variable {C : Crates} {s s' : Store} {L : List Entry} {n : NoteId}

/-! ## The latest row of a kind -/

/-- An authorization of `n`, or Circle's answer to one. -/
def EventRow.answers (n : NoteId) (e : EventRow) : Bool :=
  e.noteId == n && (e.kind == .authorized || e.kind == .outcome)

/-- A row about what became of a request for `n`. -/
def EventRow.tells (n : NoteId) (e : EventRow) : Bool :=
  e.noteId == n && (e.kind == .authorized || e.kind == .outcome || e.kind == .withdrawalLimit)

def latest (p : EventRow → Bool) (events : List EventRow) : Option EventRow := events.reverse.find? p

theorem latest_append (p : EventRow → Bool) (events : List EventRow) (e : EventRow) :
    latest p (events ++ [e]) = if p e then some e else latest p events := by
  simp only [latest, List.reverse_append, List.reverse_singleton, List.singleton_append, List.find?_cons]
  cases p e <;> rfl

theorem latest_skip {p : EventRow → Bool} {events added : List EventRow} (h : ∀ e ∈ added, p e = false) :
    latest p (events ++ added) = latest p events := by
  have hnone : added.reverse.find? p = none := by
    rw [List.find?_eq_none]
    intro e he
    simp [h e (List.mem_reverse.1 he)]
  rw [latest, List.reverse_append, List.find?_append, hnone, Option.none_or, latest]

theorem answers_of_not_tells {e : EventRow} (h : e.tells n = false) : e.answers n = false := by
  unfold EventRow.tells at h
  unfold EventRow.answers
  grind

/-- The latest outcome since the authorization is the latest answer, if that is an outcome. -/
theorem latestOutcome_eq (n : NoteId) (l : List EventRow) :
    latestOutcome n l = (l.find? (EventRow.answers n)).filter fun e => e.kind == .outcome := by
  induction l with
  | nil => rfl
  | cons e l ih =>
    unfold latestOutcome
    rw [List.find?_cons]
    by_cases hout : e.noteId = n ∧ e.kind = .outcome
    · simp [EventRow.answers, hout.1, hout.2, Option.filter]
    · rw [if_neg hout]
      by_cases hauth : e.noteId = n ∧ e.kind = .authorized
      · simp [EventRow.answers, hauth.1, hauth.2, Option.filter]
      · have hno : e.answers n = false := by
          unfold EventRow.answers
          grind
        rw [if_neg hauth, hno, ih]

/-! ## What it says -/

/-- The row repeats the submission's status, ID, HTTP status and error. -/
structure Agrees (e : EventRow) (r : SavedSubmission) : Prop where
  status : e.status = some r.status
  withdrawalId : e.withdrawalId = r.withdrawalId
  httpStatus : e.httpStatus = r.lastHttpStatus
  error : e.error = r.lastError

/-- What the latest rows say about a submission, by what changed it last. -/
inductive Says (a t : EventRow) (r : SavedSubmission) : Prop where
  | answer (last : t = a) (agrees : Agrees a r)
  | prepared (limit : t.kind = .withdrawalLimit) (expired : r.status = .expired) (agrees : Agrees a r)
  | resent (limit : t.kind = .withdrawalLimit) (open_ : r.status = .submitting)
      (told : t.httpStatus = r.lastHttpStatus ∨ a.kind = .outcome ∧ Agrees a r)
      (before : a.kind = .outcome → a.status = some .submitting)

/-- The history of `n` goes with its submission. -/
def Told (n : NoteId) (events : List EventRow) (r : SavedSubmission) : Prop :=
  ∃ a t, latest (EventRow.answers n) events = some a ∧ latest (EventRow.tells n) events = some t ∧ Says a t r

theorem Told.skip {events added : List EventRow} {r : SavedSubmission} (h : Told n events r)
    (hno : ∀ e ∈ added, e.tells n = false) : Told n (events ++ added) r := by
  obtain ⟨a, t, ha, ht, hsays⟩ := h
  refine ⟨a, t, ?_, ?_, hsays⟩
  · rw [latest_skip fun e he => answers_of_not_tells (hno e he), ha]
  · rw [latest_skip hno, ht]

/-- An answer written into the history is the latest word. -/
theorem told_answer {events : List EventRow} {e : EventRow} {r : SavedSubmission} (he : e.answers n = true)
    (hagrees : Agrees e r) : Told n (events ++ [e]) r := by
  have htells : e.tells n = true := by
    unfold EventRow.answers at he
    unfold EventRow.tells
    grind
  refine ⟨e, e, ?_, ?_, .answer rfl hagrees⟩
  · rw [latest_append, if_pos he]
  · rw [latest_append, if_pos htells]

/-- The latest row of either kind is an answer or a limit rejection. -/
theorem Says.kind {a t : EventRow} {r : SavedSubmission} (h : Says a t r) : t = a ∨ t.kind = .withdrawalLimit := by
  cases h with
  | answer last _ => exact .inl last
  | prepared limit _ _ => exact .inr limit
  | resent limit _ _ _ => exact .inr limit

/-! ## One commit -/

def SavedSubmission.summary (r : SavedSubmission) : SubmissionStatus × Option String × Option Nat × Option String :=
  (r.status, r.withdrawalId, r.lastHttpStatus, r.lastError)

/-- The outcome of a resend after one the limit rejected, which only repeats the latest outcome
(`repeats_latest_outcome`). -/
def Repeated (C : Crates) (s : Store) (n : NoteId) (x : Write) : Prop :=
  ∃ out t, x = .outcome out ∧ out.noteId = n ∧ s.repeatsLatestOutcome out (circleStatus C out.lastResponse) = true ∧
    latest (EventRow.tells n) s.events = some t ∧ t.kind = .withdrawalLimit

/-- A commit writes down a change of a submission, or is such an outcome. -/
def WrittenDown (C : Crates) (s s' : Store) (n : NoteId) (x : Write) : Prop :=
  (s'.row n).map SavedSubmission.summary = (s.row n).map SavedSubmission.summary ∨
    (∃ older e newer, s'.events = s.events ++ older ++ e :: newer ∧ e.noteId = n) ∨ Repeated C s n x

/-- What a commit is to keep for `n`. -/
def Chronicled (C : Crates) (s s' : Store) (n : NoteId) (x : Write) : Prop :=
  (∀ r', s'.row n = some r' → Told n s'.events r') ∧ WrittenDown C s s' n x

theorem chronicled_same (added : List EventRow) {x : Write} (h : ∀ r, s.row n = some r → Told n s.events r)
    (hrow : s'.row n = s.row n) (hev : s'.events = s.events ++ added) (hno : ∀ e ∈ added, e.tells n = false) :
    Chronicled C s s' n x := by
  refine ⟨fun r' hr' => ?_, .inl (by rw [hrow])⟩
  rw [hev]
  exact (h r' (hrow ▸ hr')).skip hno

theorem eventOf_agrees {b : BurnRow} {r : SavedSubmission} {kind : EventKind} {cs : Option String} :
    Agrees (eventOf b (some r) kind cs) r := ⟨rfl, rfl, rfl, rfl⟩

theorem recorded_one {x : Write} {e : EventRow} (hev : s'.events = s.events ++ [e]) (he : e.noteId = n) :
    WrittenDown C s s' n x := .inr (.inl ⟨[], e, [], by simpa using hev, he⟩)

/-- An outcome that is not written down repeats the latest answer. -/
theorem repeats_answer {out : SavedSubmission} {cs : Option String} (h : s.repeatsLatestOutcome out cs = true) :
    ∃ a, latest (EventRow.answers out.noteId) s.events = some a ∧ a.kind = .outcome ∧ a.status = some out.status ∧
      ∀ r, Agrees a (withOutcome r out) := by
  rw [repeatsLatestOutcome, latestOutcome_eq] at h
  obtain ⟨a, ha, hmatch⟩ := (Option.any_eq_true _ _).1 h
  obtain ⟨ha, hkind⟩ := Option.filter_eq_some_iff.1 ha
  simp only [Bool.and_eq_true, beq_iff_eq] at hmatch hkind
  obtain ⟨⟨⟨⟨hst, hid⟩, hhttp⟩, herr⟩, -⟩ := hmatch
  exact ⟨a, ha, hkind, hst, fun r => ⟨hst, hid, hhttp, herr⟩⟩

theorem chronicled_outcome {out : SavedSubmission} (h : ∀ r, s.row out.noteId = some r → Told out.noteId s.events r)
    (hw : s.updateSubmissionOutcome C out = .ok s') (hok : WriteOk C L s (.outcome out)) :
    Chronicled C s s' out.noteId (.outcome out) := by
  obtain ⟨r, hleaves⟩ := outcome_leaves hw
  obtain ⟨-, -, r0, hr, hst0, -⟩ := hok
  obtain rfl : r = r0 := Option.some.inj (hleaves.stored.symm.trans hr)
  rcases hleaves.events with ⟨hev, hrep⟩ | ⟨b, hb, hev⟩
  · obtain ⟨a, ha, hkind, hst, hagrees⟩ := repeats_answer hrep
    obtain ⟨a', t, ha', ht, hsays⟩ := h r hr
    obtain rfl : a = a' := Option.some.inj (ha.symm.trans ha')
    constructor
    · intro r' hr'
      obtain rfl := Option.some.inj (hleaves.row.symm.trans hr')
      rw [hev]
      refine ⟨a, t, ha, ht, ?_⟩
      cases hsays with
      | answer last _ => exact .answer last (hagrees r)
      | prepared _ expired _ =>
        rw [expired] at hst0
        rcases hst0 with hst0 | hst0 <;> cases hst0
      | resent limit _ _ before =>
        have hopen := before hkind
        rw [hst] at hopen
        exact .resent limit (Option.some.inj hopen) (.inr ⟨hkind, hagrees r⟩) before
    · cases hsays with
      | answer last agrees =>
        -- The row already says what the latest answer says.
        refine .inl ?_
        rw [hleaves.row, hr]
        have hnew := hagrees r
        simp only [Option.map_some, Option.some.injEq, SavedSubmission.summary, Prod.mk.injEq]
        refine ⟨?_, ?_, ?_, ?_⟩
        · exact Option.some.inj (hnew.status.symm.trans agrees.status)
        · exact hnew.withdrawalId.symm.trans agrees.withdrawalId
        · exact hnew.httpStatus.symm.trans agrees.httpStatus
        · exact hnew.error.symm.trans agrees.error
      | prepared limit _ _ => exact .inr (.inr ⟨out, t, rfl, rfl, hrep, ht, limit⟩)
      | resent limit _ _ _ => exact .inr (.inr ⟨out, t, rfl, rfl, hrep, ht, limit⟩)
  · constructor
    · intro r' hr'
      obtain rfl := Option.some.inj (hleaves.row.symm.trans hr')
      rw [hev]
      refine told_answer ?_ eventOf_agrees
      simpa [EventRow.answers, eventOf] using burn_noteId hb
    · exact recorded_one hev (burn_noteId hb)

theorem chronicled_limit {t : Nat} {body : Bytes} {sub : Option (SavedSubmission × SubmissionAttempt)}
    (h : ∀ r, s.row n = some r → Told n s.events r) (hw : s.recordLimitRejection n t body sub = .ok s')
    (hok : WriteOk C L s (.limit n t body sub)) : Chronicled C s s' n (.limit n t body sub) := by
  obtain ⟨b, f, hleaves⟩ := limit_leaves hw
  refine ⟨fun r' hr' => ?_, recorded_one hleaves.events rfl⟩
  have hlatest : latest (EventRow.tells n) (s.events ++ [.bare n .withdrawalLimit (some 400) (some body) none]) =
      some (.bare n .withdrawalLimit (some 400) (some body) none) := by
    rw [latest_append, if_pos]
    simp [EventRow.tells, EventRow.bare]
  have hanswer : latest (EventRow.answers n) (s.events ++ [.bare n .withdrawalLimit (some 400) (some body) none]) =
      latest (EventRow.answers n) s.events := by
    rw [latest_append, if_neg]
    simp [EventRow.answers, EventRow.bare]
  rw [hleaves.events]
  rw [hleaves.row] at hr'
  cases hleaves.source with
  | prepare =>
    have hr : s.row n = some r' := hr'
    have hexp : r'.status = .expired := hok.2.2 r' hr
    obtain ⟨a, t', ha, -, hsays⟩ := h r' hr
    refine ⟨a, _, hanswer.trans ha, hlatest, .prepared rfl hexp ?_⟩
    cases hsays with
    | answer _ agrees => exact agrees
    | prepared _ _ agrees => exact agrees
    | resent _ open_ _ _ =>
      rw [hexp] at open_
      cases open_
  | first _ =>
    rw [dropRow_row, if_pos rfl] at hr'
    cases hr'
  | @recovery saved r hsame =>
    obtain ⟨hr, hst, -⟩ := sameRequest_eq_some hsame
    have hput : (s.putRow (limitedRow r body)).row n = some (limitedRow r body) := by
      rw [putRow_row]
      exact if_pos (row_noteId hr)
    obtain rfl := Option.some.inj (hput.symm.trans hr')
    obtain ⟨a, t', ha, -, hsays⟩ := h r hr
    refine ⟨a, _, hanswer.trans ha, hlatest, .resent rfl hst (.inl rfl) fun hkind => ?_⟩
    cases hsays with
    | answer _ agrees => rw [agrees.status, hst]
    | prepared _ expired _ =>
      rw [expired] at hst
      cases hst
    | resent _ _ _ before => exact before hkind

theorem chronicled_release {added : List EventRow} {x : Write} (hrel : Released s s' added)
    (h : ∀ r, s.row n = some r → Told n s.events r) : Chronicled C s s' n x := by
  have hno : ∀ e ∈ added, e.tells n = false := by
    intro e he
    rcases hrel.kinds e he with hk | hk <;> simp [EventRow.tells, hk]
  rcases hrel.rows n with hrow | ⟨r, hr, -, -, hnone, e, he, hid, -⟩
  · exact chronicled_same _ h hrow hrel.events hno
  · refine ⟨fun r' hr' => ?_, .inr (.inl ?_)⟩
    · rw [hnone] at hr'
      cases hr'
    · obtain ⟨older, newer, rfl⟩ := List.append_of_mem he
      exact ⟨older, e, newer, by rw [hrel.events, List.append_assoc], hid⟩

theorem tells_other {e : EventRow} {m : NoteId} (he : e.noteId = m) (hn : n ≠ m) : e.tells n = false := by
  simp [EventRow.tells, he, hn.symm]

theorem chronicled_commit {w : Write} (h : ∀ r, s.row n = some r → Told n s.events r) (hw : w.apply C s = .ok s')
    (hok : WriteOk C L s w) : Chronicled C s s' n w := by
  -- A note the transaction is not about has its row and its history left alone.
  have other : ∀ {m : NoteId} {e : EventRow}, w.note = some m → n ≠ m → e.noteId = m → s'.events = s.events ++ [e] →
      Chronicled C s s' n w := by
    intro m e hm hn he hev
    refine chronicled_same _ h (Write.apply_frame hw hm hn).2 hev fun e' he' => ?_
    rw [List.mem_singleton.1 he']
    exact tells_other he hn
  have quiet : s'.row n = s.row n → s'.events = s.events → Chronicled C s s' n w := fun hrow hev =>
    chronicled_same [] h hrow (by simpa using hev) (by simp)
  cases w with
  | create faucet anchor =>
    cases hw
    obtain rfl : s = .blank := hok
    exact quiet rfl rfl
  | scan cs ds hd => exact quiet ((scan_keeps hw).1 n) (scan_events hw)
  | advance m t =>
    obtain ⟨b, hb, -, rfl⟩ := advanceLimitRetry_ok hw
    exact quiet rfl rfl
  | hold m reason response =>
    obtain ⟨b, hb, rfl⟩ := holdBurn_ok hw
    refine chronicled_same [_] h rfl rfl fun e he => ?_
    rw [List.mem_singleton.1 he]
    simp [EventRow.tells, EventRow.bare]
  | save record =>
    obtain ⟨-, -, b, hb, rfl⟩ := saveSubmission_ok hw
    have hid : (eventOf b (some (authorizedRow record)) .authorized none).noteId = record.noteId := burn_noteId hb
    by_cases hn : n = record.noteId
    · subst hn
      refine ⟨fun r' hr' => ?_, recorded_one rfl hid⟩
      have hput : (s.putRow (authorizedRow record)).row record.noteId = some (authorizedRow record) := by
        rw [putRow_row]
        exact if_pos rfl
      obtain rfl := Option.some.inj (hput.symm.trans hr')
      refine told_answer ?_ eventOf_agrees
      simpa [EventRow.answers, eventOf] using burn_noteId hb
    · exact other rfl hn hid rfl
  | outcome out =>
    by_cases hn : n = out.noteId
    · subst hn
      exact chronicled_outcome h hw hok
    · obtain ⟨r, hleaves⟩ := outcome_leaves hw
      rcases hleaves.events with ⟨hev, -⟩ | ⟨b, hb, hev⟩
      · exact quiet (hleaves.rows n hn) hev
      · exact other rfl hn (burn_noteId hb) hev
  | limit m t body sub =>
    by_cases hn : n = m
    · subst hn
      exact chronicled_limit h hw hok
    · obtain ⟨b, f, hleaves⟩ := limit_leaves hw
      exact other rfl hn rfl hleaves.events
  | release sel =>
    obtain ⟨added, hrel⟩ := release_released hw rfl
    exact chronicled_release hrel h
  | releaseAll ns =>
    obtain ⟨added, hrel⟩ := release_released hw rfl
    exact chronicled_release hrel h

/-! ## Every run -/

/-- The history goes with the submission in every store a legal log ends in. -/
theorem legal_told (h : Legal C L s) : ∀ r, s.row n = some r → Told n s.events r :=
  h.store_induct (P := fun s => ∀ r, s.row n = some r → Told n s.events r) (fun r hr => by cases hr)
    fun _ ih hw hok => (chronicled_commit ih hw hok).1

structure HistoryKept (C : Crates) (w : World) (n : NoteId) : Prop where
  /-- The latest row about the submission repeats it if it is an answer. A limit rejection repeats the HTTP status of a
  resend, unless an outcome that repeats the latest one was saved after it; the rejection of a new preparation leaves
  the expired submission as the latest answer says. -/
  latest : ∀ r, w.store.row n = some r → ∃ t, latest (EventRow.tells n) w.store.events = some t ∧
    (t.kind ≠ .withdrawalLimit → Agrees t r) ∧
    (t.kind = .withdrawalLimit →
      (r.status = .expired ∧ ∃ a, LightAttester.latest (EventRow.answers n) w.store.events = some a ∧ Agrees a r) ∨
      (r.status = .submitting ∧ (t.httpStatus = r.lastHttpStatus ∨
        ∃ o, latestOutcome n w.store.events.reverse = some o ∧ Agrees o r)))
  /-- Every transaction that changes it is written down, the one exception being such an outcome. -/
  recorded : ∀ later x s earlier, w.log = later ++ ⟨.commit x, s⟩ :: earlier → WrittenDown C (storeOf earlier) s n x

/-- **The history is complete**: it says what became of every submission. -/
theorem history_complete (C : Crates) (lifetimes : List Lifetime) (n : NoteId) :
    HistoryKept C (runAll C lifetimes) n := by
  have hlegal := runs_legal (C := C) lifetimes
  constructor
  · intro r hr
    obtain ⟨a, t, ha, ht, hsays⟩ := legal_told hlegal r hr
    refine ⟨t, ht, fun hkind => ?_, fun hkind => ?_⟩
    · cases hsays with
      | answer last agrees => exact last ▸ agrees
      | prepared limit _ _ => exact absurd limit hkind
      | resent limit _ _ _ => exact absurd limit hkind
    · cases hsays with
      | answer last _ =>
        -- The latest answer is no limit rejection.
        have hanswers := List.find?_some ha
        rw [← last, EventRow.answers, hkind] at hanswers
        simp at hanswers
      | prepared _ expired agrees => exact .inl ⟨expired, a, ha, agrees⟩
      | resent _ open_ told _ =>
        refine .inr ⟨open_, told.imp_right ?_⟩
        rintro ⟨hout, agrees⟩
        refine ⟨a, ?_, agrees⟩
        rw [latestOutcome_eq, show List.find? _ _ = some a from ha]
        simp [Option.filter, hout]
  · intro later x s earlier hlog
    rw [hlog] at hlegal
    obtain ⟨hbefore, hallowed⟩ := hlegal.entry
    exact (chronicled_commit (legal_told hbefore) hallowed.1 hallowed.2).2

/-! ## An expired withdrawal and the limit -/

namespace Sample

/-- The first cycle submits the withdrawal, the second finds it expired, and in the third the limit rejects its new
preparation. -/
def limitedAgain : List Lifetime :=
  [.serve config 3 (starting ++ scanning ++ still 4 ++ sending (answers .created created) ++ still 2 ++
    idling ++ still 4 ++ [answers .ok expired] ++ still 2 ++
    idling ++ still 4 ++ [answers .badRequest limited, seconds 1000] ++ still 2)]

end Sample

/-- The latest history row is the rejection, with its HTTP status, while the submission keeps that of its expiry. -/
theorem rejected_after_expiry :
    ((runAll Sample.crates Sample.limitedAgain).store.row Sample.note.id).map (fun r => (r.status, r.lastHttpStatus)) =
        some (.expired, some 200) ∧
      (latest (EventRow.tells Sample.note.id) (runAll Sample.crates Sample.limitedAgain).store.events).map
        (fun t => (t.kind, t.httpStatus)) = some (.withdrawalLimit, some 400) := by
  decide +kernel

end LightAttester
