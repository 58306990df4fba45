import MidenUsdcx.Attester.Record
/-!
# Listing and releasing holds (`store.rs:351-536`)

| here | there |
| --- | --- |
| `HoldEntry`, `holdsPage` | `HoldEntry` (`store.rs:78`), `Store::holds_page` (`store.rs:462`) |
| `HeldRow`, `heldRows` | a row of the inner `SELECT .. UNION ALL SELECT ..` (`store.rs:469-479`) |
| `holdEntry` | the body of the loop over the rows (`store.rs:489-533`) |
| `oneLineCircleMessage`, `isControl` | `one_line_circle_message` (`store.rs:942`), `char::is_control` |

An operator releases a hold by the sequence number the listing showed. `heldOf` is what the listing shows of
one note, and `Noted` is the reason the number is enough: a transaction either leaves `heldOf` as it was or adds
a row to the note's history.
-/
namespace LightAttester
open Checked Keyed Store

/-! ## The listing -/

inductive HoldKind where
  | burn
  | withdrawal
deriving DecidableEq, Repr

structure HoldEntry where
  noteId : NoteId
  kind : HoldKind
  reason : String
  httpStatus : Option Nat
  circleMessage : Option String
  eventSeq : Nat
deriving DecidableEq, Repr

def HOLDS_PAGE : Nat := 100

/-- `format!("{:?}", reason)`. -/
def BurnHoldReason.debug : BurnHoldReason → String
  | .prepareRejected => "PrepareRejected"
  | .tooSmallToForward => "TooSmallToForward"

def HoldReason.debug : HoldReason → String
  | .httpRejected => "HttpRejected"

/-- `char::is_control`: the general category `Cc`. -/
def isControl (c : Char) : Bool := c.toNat ≤ 0x1F || (0x7F ≤ c.toNat && c.toNat ≤ 0x9F)

/-- `split_whitespace().collect::<Vec<_>>().join(" ")`. -/
def joinWords (text : List Char) : List Char :=
  [' '].intercalate ((text.splitOnP Lines.isWhitespace).filter fun word => !word.isEmpty)

/-- `one_line_circle_message` (`store.rs:942`). -/
def oneLineCircleMessage (C : Crates) (response : Bytes) : Option (List Char) :=
  (circleMessage C response).map fun message => joinWords message.toList

/-- A row of the two tables together, before its sequence number is read. -/
structure HeldRow where
  noteId : NoteId
  kind : HoldKind
  reason : String
  httpStatus : Option Nat
  response : Option Bytes
deriving DecidableEq, Repr

/-- A held withdrawal keeps its last answer on its own row. -/
def heldSubmission (r : SavedSubmission) : Option HeldRow :=
  if r.status = .held then
    some { noteId := r.noteId, kind := .withdrawal, reason := (r.holdReason.map HoldReason.debug).getD "-",
           httpStatus := r.lastHttpStatus, response := r.lastResponse }
  else none

namespace Store

/-- The latest `BURN_HELD` row of the note, unless it has a submission's status. -/
def holdAnswer (s : Store) (n : NoteId) : Option EventRow :=
  (latest (fun e => e.noteId == n && e.kind == .burnHeld) s.events).filter fun e => e.status.isNone

/-- A held burn takes Circle's answer from its latest hold event. -/
def heldBurn (s : Store) (b : BurnRow) : Option HeldRow :=
  b.holdReason.map fun reason =>
    { noteId := b.noteId, kind := .burn, reason := reason.debug,
      httpStatus := (s.holdAnswer b.noteId).bind (·.httpStatus), response := (s.holdAnswer b.noteId).bind (·.response) }

def heldRows (s : Store) : List HeldRow :=
  s.burns.rows.filterMap s.heldBurn ++ s.submissions.rows.filterMap heldSubmission

def holdEntry (C : Crates) (s : Store) (row : HeldRow) : Except StoreError HoldEntry := do
  let eventSeq ← orThrow (s.revision row.noteId) .invalid
  ensure (0 < eventSeq) .invalid
  pure { noteId := row.noteId, kind := row.kind, reason := row.reason, httpStatus := row.httpStatus,
         -- The live client prints this external text in an operator's terminal.
         circleMessage := (row.response.bind (oneLineCircleMessage C)).map fun message =>
           String.ofList (message.filter fun c => !isControl c),
         eventSeq := eventSeq }

/-- `holds_page` (`store.rs:462`). -/
def holdsPage (C : Crates) (s : Store) (after : Option NoteId) : Except StoreError (List HoldEntry) :=
  (((s.heldRows.filter fun row => after.all fun id => decide (id < row.noteId)).insertionSort
    fun a b => a.noteId ≤ b.noteId).take (HOLDS_PAGE + 1)).mapM (s.holdEntry C)

/-! ## One note's part of it -/

/-- The rows of the listing that are about `n`. -/
def heldOf (s : Store) (n : NoteId) : List HeldRow :=
  ((s.burn n).bind s.heldBurn).toList ++ ((s.row n).bind heldSubmission).toList

/-- What the listing shows of `n`. -/
def holdOf (C : Crates) (s : Store) (n : NoteId) : Except StoreError (List HoldEntry) :=
  (s.heldOf n).mapM (s.holdEntry C)

end Store

variable {C : Crates} {s s' : Store} {L : List Entry} {n : NoteId}

theorem heldBurn_noteId {b : BurnRow} {row : HeldRow} (h : s.heldBurn b = some row) : row.noteId = b.noteId := by
  obtain ⟨reason, -, rfl⟩ := Option.map_eq_some_iff.1 h
  rfl

theorem heldSubmission_some {r : SavedSubmission} {row : HeldRow} (h : heldSubmission r = some row) :
    row.noteId = r.noteId ∧ r.status = .held := by
  unfold heldSubmission at h
  split at h
  · cases h
    exact ⟨rfl, by assumption⟩
  · cases h

theorem mem_heldRows {row : HeldRow} (h : row ∈ s.heldRows) : row ∈ s.heldOf row.noteId := by
  rw [heldRows, List.mem_append, List.mem_filterMap, List.mem_filterMap] at h
  rw [heldOf, List.mem_append, Option.mem_toList, Option.mem_toList]
  rcases h with ⟨b, hb, hrow⟩ | ⟨r, hr, hrow⟩
  · left
    rw [heldBurn_noteId hrow, show s.burn b.noteId = some b from Table.get?_of_mem hb]
    exact hrow
  · right
    rw [(heldSubmission_some hrow).1, show s.row r.noteId = some r from Table.get?_of_mem hr]
    exact hrow

/-- A note is listed at most once: a held burn has nothing in flight. -/
theorem heldOf_unique (h : StoreInv C s) : (s.heldOf n).length ≤ 1 := by
  unfold heldOf
  cases hb : (s.burn n).bind s.heldBurn with
  | none =>
    simp only [Option.toList_none, List.nil_append]
    cases (s.row n).bind heldSubmission <;> simp
  | some row =>
    obtain ⟨b, hburn, hrow⟩ := Option.bind_eq_some_iff.1 hb
    have hheld : b.holdReason.isSome := by
      obtain ⟨reason, hreason, -⟩ := Option.map_eq_some_iff.1 hrow
      rw [hreason]
      rfl
    have hnone : (s.row n).bind heldSubmission = none := by
      rw [Option.bind_eq_none_iff]
      intro r hr
      have hexp := ((h.notes n).hold b hburn hheld).2 r hr
      simp [heldSubmission, hexp]
    rw [hnone]
    simp

theorem holdEntry_ok {row : HeldRow} {entry : HoldEntry} (h : s.holdEntry C row = .ok entry) :
    entry.noteId = row.noteId ∧ s.revision row.noteId = some entry.eventSeq ∧ 0 < entry.eventSeq := by
  simp only [holdEntry, orThrow_bind_ok, ensure_bind_ok, pure_ok] at h
  obtain ⟨seq, hseq, hpos, rfl⟩ := h
  exact ⟨rfl, hseq, hpos⟩

/-- What a page lists of a note is all the listing shows of it, with the latest sequence number. -/
theorem listed_holdOf (hinv : StoreInv C s) {after : Option NoteId} {page : List HoldEntry} {entry : HoldEntry}
    (hpage : s.holdsPage C after = .ok page) (hmem : entry ∈ page) :
    s.holdOf C entry.noteId = .ok [entry] ∧ s.revision entry.noteId = some entry.eventSeq ∧ 0 < entry.eventSeq := by
  obtain ⟨row, hrow, hentry⟩ := mem_of_mapM_ok hpage hmem
  obtain ⟨hid, hrev, hpos⟩ := holdEntry_ok hentry
  have hheld : row ∈ s.heldRows :=
    List.mem_of_mem_filter ((List.mem_insertionSort _).1 (List.mem_of_mem_take hrow))
  have hof : s.heldOf entry.noteId = [row] := by
    rw [hid]
    have hin := mem_heldRows hheld
    have hlen := heldOf_unique hinv (n := row.noteId)
    obtain ⟨x, hx⟩ := List.length_eq_one_iff.1 (le_antisymm hlen (List.length_pos_of_mem hin))
    rw [hx, List.mem_singleton] at hin
    rw [hx, hin]
  refine ⟨?_, hid ▸ hrev, hpos⟩
  rw [holdOf, hof, List.mapM_cons, hentry]
  rfl

/-! ## The sequence number -/

theorem revision_eq (s : Store) (n : NoteId) :
    s.revision n = (s.events.zipIdx.filter fun e => e.1.noteId == n).getLast?.map fun e => e.2 + 1 := rfl

theorem revision_le {k : Nat} (h : s.revision n = some k) : k ≤ s.events.length := by
  rw [revision_eq, Option.map_eq_some_iff] at h
  obtain ⟨e, he, rfl⟩ := h
  have hmem := List.mem_of_mem_filter (List.mem_of_getLast? he)
  have := (List.mem_zipIdx hmem).2.1
  omega

theorem revision_skip {added : List EventRow} (he : s'.events = s.events ++ added)
    (hno : ∀ e ∈ added, e.noteId ≠ n) : s'.revision n = s.revision n := by
  have hnone : (added.zipIdx s.events.length).filter (fun e => e.1.noteId == n) = [] := by
    rw [List.filter_eq_nil_iff]
    intro e hmem
    simpa using hno _ (List.fst_mem_of_mem_zipIdx hmem)
  rw [revision_eq, revision_eq, he, List.zipIdx_append, List.filter_append, Nat.zero_add, hnone, List.append_nil]

/-- A new row of the note has a number no earlier row has. -/
theorem revision_grows {added : List EventRow} (he : s'.events = s.events ++ added) (hnew : ∃ e ∈ added, e.noteId = n) :
    ∃ k, s'.revision n = some k ∧ s.events.length < k := by
  obtain ⟨e, hmem, hid⟩ := hnew
  have hne : (added.zipIdx s.events.length).filter (fun e => e.1.noteId == n) ≠ [] := by
    obtain ⟨i, hi⟩ := List.getElem?_of_mem hmem
    have hz : (e, s.events.length + i) ∈ added.zipIdx s.events.length := by
      rw [List.mk_mem_zipIdx_iff_le_and_getElem?_sub]
      simpa using hi
    exact List.ne_nil_of_mem (List.mem_filter.2 ⟨hz, by simpa using hid⟩)
  obtain ⟨x, hx⟩ := Option.ne_none_iff_exists'.1 (mt List.getLast?_eq_none_iff.1 hne)
  refine ⟨x.2 + 1, ?_, ?_⟩
  · rw [revision_eq, he, List.zipIdx_append, List.filter_append, Nat.zero_add, List.getLast?_append, hx]
    rfl
  · have := (List.mem_zipIdx (List.mem_of_mem_filter (List.mem_of_getLast? hx))).1
    omega

/-- The note has a history row it did not have. -/
def Grown (s s' : Store) (n : NoteId) : Prop := ∃ added, s'.events = s.events ++ added ∧ ∃ e ∈ added, e.noteId = n

/-- The number an operator saw is not the latest any more. -/
theorem Grown.revision_ne {k : Nat} (h : Grown s s' n) (hk : s.revision n = some k) :
    ∃ k', s'.revision n = some k' ∧ k' ≠ k := by
  obtain ⟨added, he, hnew⟩ := h
  obtain ⟨k', hk', hlt⟩ := revision_grows he hnew
  have hle := revision_le hk
  exact ⟨k', hk', by omega⟩

/-! ## A transaction notes what it does to a hold -/

/-- The listing of `n` is as it was, or its history has grown. -/
def Noted (s s' : Store) (n : NoteId) : Prop :=
  ∃ added, s'.events = s.events ++ added ∧ ((∃ e ∈ added, e.noteId = n) ∨ s'.heldOf n = s.heldOf n)

theorem Noted.refl : Noted s s n := ⟨[], by simp, .inr rfl⟩

theorem Noted.trans {s1 s2 s3 : Store} (h : Noted s1 s2 n) (h' : Noted s2 s3 n) : Noted s1 s3 n := by
  obtain ⟨a, ha, hn⟩ := h
  obtain ⟨b, hb, hn'⟩ := h'
  refine ⟨a ++ b, by rw [hb, ha, List.append_assoc], ?_⟩
  rcases hn with ⟨e, he, hid⟩ | hsame
  · exact .inl ⟨e, List.mem_append_left _ he, hid⟩
  · rcases hn' with ⟨e, he, hid⟩ | hsame'
    · exact .inl ⟨e, List.mem_append_right _ he, hid⟩
    · exact .inr (hsame'.trans hsame)

theorem Noted.grown {s1 s2 s3 : Store} (h : Noted s1 s2 n) (h' : Grown s2 s3 n) : Grown s1 s3 n := by
  obtain ⟨a, ha, -⟩ := h
  obtain ⟨b, hb, e, he, hid⟩ := h'
  exact ⟨a ++ b, by rw [hb, ha, List.append_assoc], e, List.mem_append_right _ he, hid⟩

theorem Grown.noted {s1 s2 s3 : Store} (h : Grown s1 s2 n) (h' : Noted s2 s3 n) : Grown s1 s3 n := by
  obtain ⟨a, ha, e, he, hid⟩ := h
  obtain ⟨b, hb, -⟩ := h'
  exact ⟨a ++ b, by rw [hb, ha, List.append_assoc], e, List.mem_append_left _ he, hid⟩

theorem heldOf_noteId {row : HeldRow} (h : row ∈ s.heldOf n) : row.noteId = n := by
  rw [heldOf, List.mem_append, Option.mem_toList, Option.mem_toList] at h
  rcases h with h | h
  · obtain ⟨b, hb, hrow⟩ := Option.bind_eq_some_iff.1 h
    exact (heldBurn_noteId hrow).trans (burn_noteId hb)
  · obtain ⟨r, hr, hrow⟩ := Option.bind_eq_some_iff.1 h
    exact (heldSubmission_some hrow).1.trans (row_noteId hr)

/-- Without a new history row the listing shows what it showed. -/
theorem Noted.same_or_grown (C : Crates) (h : Noted s s' n) :
    Grown s s' n ∨ s'.revision n = s.revision n ∧ s'.holdOf C n = s.holdOf C n := by
  obtain ⟨added, he, hcase⟩ := h
  by_cases hnew : ∃ e ∈ added, e.noteId = n
  · exact .inl ⟨added, he, hnew⟩
  · have hrev : s'.revision n = s.revision n := revision_skip he fun e hmem hid => hnew ⟨e, hmem, hid⟩
    refine .inr ⟨hrev, ?_⟩
    rw [holdOf, holdOf, hcase.resolve_left hnew]
    refine mapM_congr_mem fun row hrow => ?_
    rw [holdEntry, holdEntry, heldOf_noteId hrow, hrev]

theorem holdAnswer_skip {added : List EventRow} (he : s'.events = s.events ++ added)
    (hno : ∀ e ∈ added, e.noteId ≠ n) : s'.holdAnswer n = s.holdAnswer n := by
  rw [holdAnswer, holdAnswer, he, latest_skip fun e hmem => by simp [hno e hmem]]

/-- What the listing shows of a burn follows from its hold and its history. -/
theorem burn_heldBurn (s : Store) (n : NoteId) :
    (s.burn n).bind s.heldBurn = ((s.burn n).bind (·.holdReason)).map fun reason =>
      { noteId := n, kind := .burn, reason := reason.debug, httpStatus := (s.holdAnswer n).bind (·.httpStatus),
        response := (s.holdAnswer n).bind (·.response) } := by
  cases hb : s.burn n with
  | none => rfl
  | some b =>
    have hid := burn_noteId hb
    subst hid
    rfl

/-- A transaction that changes neither the hold nor the held row nor the history of `n`. -/
theorem noted_same (added : List EventRow) (he : s'.events = s.events ++ added) (hno : ∀ e ∈ added, e.noteId ≠ n)
    (hburn : (s'.burn n).bind (·.holdReason) = (s.burn n).bind (·.holdReason))
    (hrow : (s'.row n).bind heldSubmission = (s.row n).bind heldSubmission) : Noted s s' n := by
  refine ⟨added, he, .inr ?_⟩
  rw [heldOf, heldOf, burn_heldBurn, burn_heldBurn, hburn, hrow, holdAnswer_skip he hno]

theorem noted_one {e : EventRow} (he : s'.events = s.events ++ [e]) (hid : e.noteId = n) : Noted s s' n :=
  ⟨[e], he, .inl ⟨e, List.mem_singleton_self e, hid⟩⟩

/-- A burn whose hold is written as it was. -/
theorem putBurn_holdReason {b : BurnRow} (h : (s.burn b.noteId).bind (·.holdReason) = b.holdReason) (n : NoteId) :
    ((s.putBurn b).burn n).bind (·.holdReason) = (s.burn n).bind (·.holdReason) := by
  rw [putBurn_burn]
  by_cases hn : b.noteId = n
  · subst hn
    rw [if_pos rfl, h]
    rfl
  · rw [if_neg hn]

theorem scan_holdReason {cs : List BurnCandidate} {ds : List DiscoveredBurn} {hd : BlockHeader}
    (h : s.saveScanProgress cs ds hd = .ok s') (n : NoteId) :
    (s'.burn n).bind (·.holdReason) = (s.burn n).bind (·.holdReason) := by
  obtain ⟨-, s1, s2, st, h1, h2, -, rfl⟩ := saveScanProgress_ok h
  show (s2.burn n).bind (·.holdReason) = _
  refine scan_induct (P := fun z => (z.burn n).bind (·.holdReason) = (s.burn n).bind (·.holdReason)) ?_ ?_ rfl h1 h2
  · intro a c z _ ha hz
    obtain ⟨hnone, -, rfl⟩ := insertCandidate_ok hz
    rw [← ha]
    refine putBurn_holdReason ?_ n
    show (a.burn c.noteId).bind _ = none
    rw [hnone]
    rfl
  · intro a d z _ ha hz
    rw [← ha]
    rcases insertBurn_ok hz with ⟨-, hnone, -, rfl⟩ | ⟨b, hb, -, -, rfl⟩
    · refine putBurn_holdReason ?_ n
      show (a.burn d.noteId).bind _ = none
      rw [hnone]
      rfl
    · refine putBurn_holdReason ?_ n
      show (a.burn b.noteId).bind _ = b.holdReason
      rw [burn_noteId hb, hb]
      rfl

/-- An outcome that is not written down makes no hold: the answer it repeats left the row open. -/
theorem noted_outcome {out : SavedSubmission} (htold : ∀ r, s.row n = some r → Told n s.events r)
    (hid : out.noteId = n) (hw : s.updateSubmissionOutcome C out = .ok s') (hok : WriteOk C L s (.outcome out)) :
    Noted s s' n := by
  subst hid
  obtain ⟨r, hleaves⟩ := outcome_leaves hw
  obtain ⟨-, -, r0, hr, hst0, -⟩ := hok
  obtain rfl : r = r0 := Option.some.inj (hleaves.stored.symm.trans hr)
  have hopen : r.status ≠ .held := by rcases hst0 with h | h <;> rw [h] <;> decide
  rcases hleaves.events with ⟨hev, hrep⟩ | ⟨b, hb, hev⟩
  · obtain ⟨a, ha, hkind, hst, -⟩ := repeats_answer hrep
    obtain ⟨a', t, ha', -, hsays⟩ := htold r hr
    obtain rfl : a = a' := Option.some.inj (ha.symm.trans ha')
    have hout : out.status ≠ .held := by
      intro hheld
      rw [hheld] at hst
      cases hsays with
      | answer _ agrees => exact hopen (Option.some.inj (agrees.status.symm.trans hst))
      | prepared _ expired agrees => exact hopen (Option.some.inj (agrees.status.symm.trans hst))
      | resent _ _ _ before => cases hst.symm.trans (before hkind)
    refine noted_same [] (by rw [hev]; simp) (by simp) (hleaves.holdReason out.noteId) ?_
    rw [hleaves.row, hr]
    simp [heldSubmission, hopen, hout, withOutcome]
  · exact noted_one hev (burn_noteId hb)

/-- What one release does: it gives up one note's hold and writes that down. -/
structure ReleasedOnly (s s' : Store) (n : NoteId) : Prop where
  others : ∀ m, m ≠ n → s'.burn m = s.burn m ∧ s'.row m = s.row m
  note : (∃ b, s.burn n = some b ∧ b.holdReason.isSome ∧ s'.burn n = some { b with holdReason := none } ∧
      s'.submissions = s.submissions) ∨
    ∃ r, s.row n = some r ∧ r.status = .held ∧ s'.row n = none ∧ s'.burns = s.burns
  history : ∃ e, s'.events = s.events ++ [e] ∧ e.noteId = n
  chain : s'.state = s.state ∧ s'.version = s.version

theorem releaseHold_only {flag : Bool} {k : Nat × Nat} (h : s.releaseHold n flag = .ok (s', k)) :
    ReleasedOnly s s' n := by
  rcases releaseHold_ok h with ⟨b, hb, hheld, rfl⟩ | ⟨b, r, hb, -, hr, hst, -, rfl⟩
  · have hid : ({ b with holdReason := none } : BurnRow).noteId = n := burn_noteId (s := s) (b := b) hb
    refine ⟨fun m hm => ⟨Write.putBurn_ne hid hm, rfl⟩, .inl ⟨b, hb, hheld, putBurn_burn_self hid, rfl⟩,
      ⟨_, rfl, burn_noteId hb⟩, rfl, rfl⟩
  · refine ⟨fun m hm => ⟨rfl, ?_⟩, .inr ⟨r, hr, hst, ?_, rfl⟩, ⟨_, rfl, burn_noteId hb⟩, rfl, rfl⟩
    · rw [dropRow_row, if_neg hm]
      rfl
    · rw [dropRow_row, if_pos rfl]

theorem ReleasedOnly.noted {m : NoteId} (h : ReleasedOnly s s' m) : Noted s s' n := by
  obtain ⟨e, he, hid⟩ := h.history
  by_cases hn : n = m
  · exact noted_one he (hid.trans hn.symm)
  · obtain ⟨hburn, hrow⟩ := h.others n hn
    exact noted_same _ he (by simpa [hid] using Ne.symm hn) (by rw [hburn]) (by rw [hrow])

/-- **Every change of a hold is noted**, whatever transaction makes it. -/
theorem noted_commit {w : Write} (htold : ∀ r, s.row n = some r → Told n s.events r) (hw : w.apply C s = .ok s')
    (hok : WriteOk C L s w) : Noted s s' n := by
  have other : ∀ {m : NoteId} (added : List EventRow), w.note = some m → n ≠ m → (∀ e ∈ added, e.noteId = m) →
      s'.events = s.events ++ added → Noted s s' n := by
    intro m added hm hn hadded hev
    obtain ⟨hburn, hrow⟩ := Write.apply_frame hw hm hn
    refine noted_same _ hev (fun e he => ?_) (by rw [hburn]) (by rw [hrow])
    rw [hadded e he]
    exact Ne.symm hn
  cases w with
  | create faucet anchor =>
    cases hw
    obtain rfl : s = .blank := hok
    exact .refl
  | scan cs ds hd =>
    refine noted_same [] (by rw [scan_events hw, List.append_nil]) (by simp) (scan_holdReason hw n) ?_
    rw [(scan_keeps hw).1 n]
  | advance m t =>
    by_cases hn : n = m
    · subst hn
      obtain ⟨b, hb, -, rfl⟩ := advanceLimitRetry_ok hw
      refine noted_same [] (by simp) (by simp) ?_ rfl
      rw [putBurn_burn_self (b := { b with limitRetryAt := some t }) (burn_noteId (s := s) (b := b) hb), hb]
      rfl
    · obtain ⟨b, hb, -, rfl⟩ := advanceLimitRetry_ok hw
      exact other [] rfl hn (by simp) (by simp)
  | hold m reason response =>
    obtain ⟨b, hb, rfl⟩ := holdBurn_ok hw
    by_cases hn : n = m
    · exact noted_one rfl hn.symm
    · exact other _ rfl hn (by simp [EventRow.bare]) rfl
  | save record =>
    obtain ⟨-, -, b, hb, rfl⟩ := saveSubmission_ok hw
    by_cases hn : n = record.noteId
    · exact noted_one rfl ((burn_noteId hb).trans hn.symm)
    · exact other _ rfl hn (by simpa [eventOf] using burn_noteId hb) rfl
  | outcome out =>
    by_cases hn : n = out.noteId
    · exact noted_outcome htold hn.symm hw hok
    · obtain ⟨r, hleaves⟩ := outcome_leaves hw
      rcases hleaves.events with ⟨hev, -⟩ | ⟨b, hb, hev⟩
      · exact other [] rfl hn (by simp) (by rw [hev]; simp)
      · exact other _ rfl hn (by simpa [eventOf] using burn_noteId hb) hev
  | limit m t body sub =>
    obtain ⟨b, f, hleaves⟩ := limit_leaves hw
    by_cases hn : n = m
    · exact noted_one hleaves.events hn.symm
    · exact other _ rfl hn (by simp [EventRow.bare]) hleaves.events
  | release | releaseAll =>
    exact Write.release_induct (P := fun z => Noted s z n) (fun hP hrel => hP.trans (releaseHold_only hrel).noted)
      hw rfl .refl

/-! ## Every run -/

theorem legal_noted {later earlier : List Entry} (h : Legal C (later ++ earlier) s) (n : NoteId) :
    Noted (storeOf earlier) s n := by
  refine h.forward (P := fun _ z => Noted (storeOf earlier) z n) .refl ?_
  intro l s s' a hL _ hP ha
  rcases ha.store with rfl | ⟨w, rfl, hw, hok⟩
  · exact hP
  · exact hP.trans (noted_commit (legal_told hL) hw hok)

/-- The transactions that make or give up a hold of `n` by name. -/
def Write.movesHold (n : NoteId) : Write → Bool
  | .hold m _ _ => m == n
  | .release selection => selection.noteId == n
  | .releaseAll notes => notes.contains n
  | _ => false

theorem mem_noteSet {ns : List NoteId} (h : n ∈ ns) : n ∈ noteSet ns := by
  have hfold : ∀ (ns set : List NoteId), n ∈ ns ∨ n ∈ set → n ∈ ns.foldl (fun set n => Keyed.putRow id n set) set := by
    intro ns
    induction ns with
    | nil => simp
    | cons m ns ih =>
      intro set hn
      refine ih _ ?_
      rcases hn with hn | hn
      · rcases List.mem_cons.1 hn with rfl | hn
        · exact .inr (mem_putRow_self id n set)
        · exact .inl hn
      · exact .inr (mem_putRow_of_mem m hn)
  exact hfold ns [] (.inl h)

/-- Releasing the named notes writes each of them down. -/
theorem releaseEach_grown {s s' : Store} {ns : List NoteId} {b w : Nat} {k : Nat × Nat} (hn : n ∈ ns)
    (h : s.releaseEach b w ns = .ok (s', k)) : Grown s s' n := by
  induction ns generalizing s b w with
  | nil => cases hn
  | cons m ns ih =>
    unfold releaseEach at h
    rw [bind_ok] at h
    obtain ⟨⟨s1, k1⟩, h1, h2⟩ := h
    have hfirst := releaseHold_only h1
    rcases List.mem_cons.1 hn with rfl | hn
    · obtain ⟨e, he, hid⟩ := hfirst.history
      exact Grown.noted ⟨[e], he, e, List.mem_singleton_self e, hid⟩ (releaseEach_induct (P := fun z => Noted s1 z n)
        (fun hP hrel => hP.trans (releaseHold_only hrel).noted) .refl h2)
    · exact hfirst.noted.grown (ih hn h2)

theorem moved_grown {w : Write} (hw : w.apply C s = .ok s') (hn : w.movesHold n = true) : Grown s s' n := by
  cases w with
  | hold m reason response =>
    obtain ⟨b, hb, rfl⟩ := holdBurn_ok hw
    exact ⟨[_], rfl, _, List.mem_singleton_self _, by simpa [Write.movesHold, EventRow.bare] using hn⟩
  | release sel =>
    obtain ⟨k, hk⟩ := release_apply_ok hw
    obtain ⟨e, he, hid⟩ := (releaseHold_only (releaseChecked_ok hk)).history
    exact ⟨[e], he, e, List.mem_singleton_self e, hid.trans (by simpa [Write.movesHold] using hn)⟩
  | releaseAll ns =>
    obtain ⟨k, hk⟩ := releaseAll_apply_ok hw
    exact releaseEach_grown (mem_noteSet (by simpa [Write.movesHold] using hn)) hk
  | _ => cases hn

theorem releaseChecked_revision {sel : ReleaseSelection} {k : Nat × Nat} (h : s.releaseChecked sel = .ok (s', k)) :
    ∃ revision : Nat, s.revision sel.noteId = some revision ∧ (revision : Int) = sel.expectedEventSeq := by
  simp only [releaseChecked, ensure_bind_ok] at h
  obtain ⟨-, h⟩ := h
  split at h
  · split at h <;> cases h
  · rename_i revision hrev
    simp only [ensure_bind_ok] at h
    exact ⟨revision, hrev, h.1⟩

theorem releaseChecked_conflict {sel : ReleaseSelection} {revision : Nat} (hpos : 0 < sel.expectedEventSeq)
    (hrev : s.revision sel.noteId = some revision) (hne : (revision : Int) ≠ sel.expectedEventSeq) :
    s.releaseChecked sel = .error (.release .conflict) := by
  simp only [releaseChecked, ensure, hpos, if_true, hrev, hne, if_false]
  rfl

/-- A burn's hold needs no word about Circle; a withdrawal's does. -/
theorem releaseHold_unasked {k : Nat × Nat} (h : s.releaseHold n false = .ok (s', k)) :
    s'.submissions = s.submissions := by
  unfold releaseHold at h
  split at h
  · rw [bind_ok] at h
    obtain ⟨s1, h1, h⟩ := h
    obtain ⟨b, -, rfl⟩ := recordEvent_ok h1
    simp only [pure_ok, Prod.mk.injEq] at h
    rw [← h.1]
    rfl
  · simp only [ensure_bind_ok] at h
    cases h.2.1

/-- The selection an operator makes from a listed hold. -/
def HoldEntry.selection (entry : HoldEntry) (circleNotAccepted : Bool) : ReleaseSelection :=
  { noteId := entry.noteId, expectedEventSeq := entry.eventSeq, circleNotAccepted := circleNotAccepted }

/-- A hold that some page lists in `s`. -/
def Listed (C : Crates) (s : Store) (entry : HoldEntry) : Prop :=
  ∃ after page, s.holdsPage C after = .ok page ∧ entry ∈ page

structure ReleasesSeen (C : Crates) (w : World) : Prop where
  /-- A release that goes ahead gives up the hold that was listed, and nothing else. -/
  seen : ∀ rest later earlier, w.log = rest ++ (later ++ earlier) → ∀ entry, Listed C (storeOf earlier) entry →
    ∀ flag s' k, (storeOf (later ++ earlier)).releaseChecked (entry.selection flag) = .ok (s', k) →
      (storeOf (later ++ earlier)).holdOf C entry.noteId = .ok [entry] ∧
        ReleasedOnly (storeOf (later ++ earlier)) s' entry.noteId
  /-- If since the listing a hold of the note was made or given up, or the listing showed anything else of the note,
  the release is refused. -/
  stale : ∀ rest later a s mid earlier, w.log = rest ++ (later ++ ⟨a, s⟩ :: (mid ++ earlier)) →
    ∀ entry, Listed C (storeOf earlier) entry →
      (∃ x, a = .commit x ∧ x.movesHold entry.noteId = true) ∨ s.holdOf C entry.noteId ≠ .ok [entry] →
        ∀ flag, (storeOf (later ++ ⟨a, s⟩ :: (mid ++ earlier))).releaseChecked (entry.selection flag) =
          .error (.release .conflict)
  /-- No withdrawal is given up unless the operator says that Circle did not accept it. -/
  asked : ∀ rest earlier, w.log = rest ++ earlier → ∀ selection s' k, selection.circleNotAccepted = false →
    (storeOf earlier).releaseChecked selection = .ok (s', k) → s'.submissions = (storeOf earlier).submissions

/-- **An operator releases only a hold they have seen.** -/
theorem releases_seen (C : Crates) (lifetimes : List Lifetime) : ReleasesSeen C (runAll C lifetimes) := by
  have hlegal := runs_legal (C := C) lifetimes
  constructor
  · intro rest later earlier hlog entry hlisted flag s' k hrel
    rw [hlog] at hlegal
    have hnow := hlegal.suffix
    obtain ⟨after, page, hpage, hmem⟩ := hlisted
    obtain ⟨hhold, hrev, -⟩ := listed_holdOf (legal_inv hnow.suffix) hpage hmem
    refine ⟨?_, releaseHold_only (releaseChecked_ok hrel)⟩
    rcases (legal_noted hnow entry.noteId).same_or_grown C with hgrown | ⟨-, hsame⟩
    · -- The release found the number that was listed.
      obtain ⟨k', hk', hne⟩ := hgrown.revision_ne hrev
      obtain ⟨k'', hk'', heq⟩ := releaseChecked_revision hrel
      obtain rfl : k' = k'' := Option.some.inj (hk'.symm.trans hk'')
      exact absurd (Int.ofNat_inj.1 heq) hne
    · rw [hsame, hhold]
  · intro rest later a s mid earlier hlog entry hlisted hmoved flag
    rw [hlog] at hlegal
    have hnow := hlegal.suffix
    obtain ⟨hbefore, hallowed⟩ := hnow.entry
    obtain ⟨after, page, hpage, hmem⟩ := hlisted
    obtain ⟨hhold, hrev, hpos⟩ := listed_holdOf (legal_inv hbefore.suffix) hpage hmem
    have hstep : Grown (storeOf earlier) s entry.noteId := by
      rcases hmoved with ⟨x, rfl, hx⟩ | hdiff
      · exact (legal_noted hbefore entry.noteId).grown (moved_grown hallowed.1 hx)
      · have hafter : Legal C ((⟨a, s⟩ :: mid) ++ earlier) s := hnow.suffix
        rcases (legal_noted hafter entry.noteId).same_or_grown C with hgrown | ⟨-, hsame⟩
        · exact hgrown
        · exact absurd (hsame.trans hhold) hdiff
    obtain ⟨k', hk', hne⟩ := (hstep.noted (legal_noted hnow entry.noteId)).revision_ne hrev
    refine releaseChecked_conflict ?_ hk' ?_
    · exact Int.natCast_pos.2 hpos
    · exact fun heq => hne (Int.ofNat_inj.1 heq)
  · intro rest earlier hlog sel s' k hflag hrel
    have := releaseChecked_ok hrel
    rw [hflag] at this
    exact releaseHold_unasked this

end LightAttester
