import MidenUsdcx.Lib.Cursor
import MidenUsdcx.Attester.Admin
import MidenUsdcx.Attester.Offline
/-!
# The paged listing and the full one (`store.rs:356-595`, `attester.rs:238-265`)

| here | there |
| --- | --- |
| `Hold`, `Store.holds` | `Hold` (`store.rs:51`), `Store::holds` (`store.rs:539`) |
| `pageAt` | the answer to a `List` command (`attester.rs:238-265`) |

The two listings read the same rows: `holds` reads each table on its own, `holds_page` both at once and from a cursor on.
A held burn has nothing in flight, so no note is listed twice, and the notes order the rows strictly.
-/
namespace LightAttester
open Checked Interact Keyed Store

structure Hold where
  noteId : NoteId
  kind : HoldKind
  reason : String
  httpStatus : Option Nat
  circleMessage : Option String
deriving DecidableEq, Repr

/-- Without the characters that the live listing does not print. -/
def Hold.printable (hold : Hold) : Hold :=
  { hold with circleMessage := hold.circleMessage.map fun message =>
      String.ofList (message.toList.filter fun c => !isControl c) }

/-- A listed hold without its sequence number. -/
def HoldEntry.hold (entry : HoldEntry) : Hold :=
  { noteId := entry.noteId, kind := entry.kind, reason := entry.reason, httpStatus := entry.httpStatus,
    circleMessage := entry.circleMessage }

namespace Store

/-- The first loop of `holds` (`store.rs:556-579`). A hold event with a submission's status is an old snapshot, and its
answer is not the hold's. -/
def listedBurn (C : Crates) (s : Store) (b : BurnRow) : Option Hold :=
  b.holdReason.map fun reason =>
    let held := latest (fun e => e.noteId == b.noteId && e.kind == .burnHeld) s.events
    let oldSubmissionSnapshot := (held.bind (·.status)).isSome
    { noteId := b.noteId, kind := .burn, reason := reason.debug,
      httpStatus := if oldSubmissionSnapshot then none else held.bind (·.httpStatus),
      circleMessage := if oldSubmissionSnapshot then none
        else ((held.bind (·.response)).bind (oneLineCircleMessage C)).map String.ofList }

/-- The second loop (`store.rs:580-593`). -/
def listedWithdrawal (C : Crates) (held : SavedSubmission) : Hold :=
  { noteId := held.noteId, kind := .withdrawal, reason := (held.holdReason.map HoldReason.debug).getD "-",
    httpStatus := held.lastHttpStatus,
    circleMessage := (held.lastResponse.bind (oneLineCircleMessage C)).map String.ofList }

/-- `holds` (`store.rs:539`): burns first, each group in note order. -/
def holds (C : Crates) (s : Store) : Except StoreError (List Hold) := do
  let held ← s.selectSubmissions C none (some .held)
  pure (s.burns.rows.filterMap (s.listedBurn C) ++ held.map (listedWithdrawal C))

end Store

/-- What a `List` command from this cursor on answers: the holds shown, and the next cursor. -/
def pageAt (C : Crates) (config : Config) (s : Store) (after : Option NoteId) :
    Option (List HoldEntry × Option NoteId) :=
  match (Admin.perform C config s (.list after)).2 with
  | .ok (.page page) => some (page.holds, page.nextAfter)
  | _ => none

variable {C : Crates} {config : Config} {s : Store} {n : NoteId}

/-! ## The rows of both -/

/-- What a row is listed as. -/
def entryOf (C : Crates) (s : Store) (row : HeldRow) : HoldEntry :=
  { noteId := row.noteId, kind := row.kind, reason := row.reason, httpStatus := row.httpStatus,
    circleMessage := (row.response.bind (oneLineCircleMessage C)).map fun message =>
      String.ofList (message.filter fun c => !isControl c),
    eventSeq := (s.revision row.noteId).getD 0 }

theorem printable_message (message : Option (List Char)) :
    (message.map String.ofList).map (fun m => String.ofList (m.toList.filter fun c => !isControl c)) =
      message.map fun m => String.ofList (m.filter fun c => !isControl c) := by
  cases message with
  | none => rfl
  | some m => simp only [Option.map_some, String.toList_ofList]

theorem printable_listedBurn (C : Crates) (s : Store) (b : BurnRow) :
    (s.listedBurn C b).map Hold.printable = (s.heldBurn b).map fun row => (entryOf C s row).hold := by
  unfold listedBurn heldBurn
  cases b.holdReason with
  | none => rfl
  | some reason =>
    simp only [Option.map_some, Hold.printable, HoldEntry.hold, entryOf, holdAnswer]
    cases hheld : latest (fun e => e.noteId == b.noteId && e.kind == .burnHeld) s.events with
    | none => rfl
    | some e =>
      cases hstatus : e.status with
      | none =>
        have hkept : (some e).filter (fun e : EventRow => e.status.isNone) = some e :=
          Option.filter_eq_some_iff.2 ⟨rfl, by rw [hstatus]; rfl⟩
        simp only [hkept, Option.bind_some, hstatus, Option.isSome_none, Bool.false_eq_true, if_false, printable_message]
      | some status =>
        have hdropped : (some e).filter (fun e : EventRow => e.status.isNone) = none := by
          rw [Option.filter_eq_none_iff]
          intro e' he'
          cases he'
          rw [hstatus]
          exact Bool.false_ne_true
        simp only [hdropped, Option.bind_some, hstatus, Option.isSome_some, if_true, Option.bind_none, Option.map_none]

theorem printable_listedWithdrawal (C : Crates) (s : Store) (rows : List SavedSubmission) :
    ((rows.filter fun r => r.status == .held).map (listedWithdrawal C)).map Hold.printable =
      (rows.filterMap heldSubmission).map fun row => (entryOf C s row).hold := by
  induction rows with
  | nil => rfl
  | cons r rows ih =>
    by_cases hstatus : r.status = .held
    · have hrow : heldSubmission r = some _ := if_pos hstatus
      rw [List.filter_cons_of_pos (by rw [hstatus]; rfl), List.filterMap_cons_some hrow]
      simp only [List.map_cons, ih, List.cons.injEq, and_true]
      simp only [Hold.printable, listedWithdrawal, HoldEntry.hold, entryOf, printable_message]
    · have hrow : heldSubmission r = none := if_neg hstatus
      rw [List.filter_cons_of_neg (by simpa using hstatus), List.filterMap_cons_none hrow, ih]

/-- The full listing is the rows of the paged one, as they come. -/
theorem holds_rows (h : StoreInv C s) : ∃ full, s.holds C = .ok full ∧
    full.map Hold.printable = s.heldRows.map fun row => (entryOf C s row).hold := by
  obtain ⟨rows, hrows⟩ := h.selectSubmissions none (some .held)
  have heq : rows = s.submissions.rows.filter fun r => r.status == .held := by
    simp only [selectSubmissions, ensure_bind_ok, pure_ok] at hrows
    rw [← hrows.2]
    exact List.filter_congr fun r _ => by simp
  refine ⟨s.burns.rows.filterMap (s.listedBurn C) ++ rows.map (listedWithdrawal C), ?_, ?_⟩
  · rw [holds, hrows]
    rfl
  · have hburns : (s.burns.rows.filterMap (s.listedBurn C)).map Hold.printable =
        (s.burns.rows.filterMap s.heldBurn).map fun row => (entryOf C s row).hold := by
      rw [List.map_filterMap, List.map_filterMap]
      exact List.filterMap_congr fun b _ => printable_listedBurn C s b
    rw [heldRows, List.map_append, List.map_append, heq, printable_listedWithdrawal C s, hburns]

/-! ## The order of the notes -/

theorem heldRows_distinct (h : StoreInv C s) : s.heldRows.Pairwise fun a b => a.noteId ≠ b.noteId := by
  refine List.pairwise_append.2 ⟨?_, ?_, ?_⟩
  · refine List.Pairwise.filterMap _ (fun b b' hlt row hrow row' hrow' => ?_) s.burns.sorted
    rw [heldBurn_noteId hrow, heldBurn_noteId hrow']
    exact ne_of_lt hlt
  · refine List.Pairwise.filterMap _ (fun r r' hlt row hrow row' hrow' => ?_) s.submissions.sorted
    rw [(heldSubmission_some hrow).1, (heldSubmission_some hrow').1]
    exact ne_of_lt hlt
  · intro row hrow row' hrow' heq
    obtain ⟨b, hb, hheld⟩ := List.mem_filterMap.1 hrow
    obtain ⟨r, hr, hsub⟩ := List.mem_filterMap.1 hrow'
    obtain ⟨hid, hstatus⟩ := heldSubmission_some hsub
    obtain ⟨reason, hreason, -⟩ := Option.map_eq_some_iff.1 hheld
    have hburn : s.burn b.noteId = some b := Table.get?_of_mem hb
    have hsame : r.noteId = b.noteId := by rw [← hid, ← heq, heldBurn_noteId hheld]
    have hrow : s.row b.noteId = some r := by
      rw [← hsame]
      exact Table.get?_of_mem hr
    have hexpired := ((h.notes b.noteId).hold b hburn (by rw [hreason]; rfl)).2 r hrow
    rw [hstatus] at hexpired
    cases hexpired

/-- All held rows, in note order. -/
def sortedRows (s : Store) : List HeldRow := s.heldRows.insertionSort fun a b => a.noteId ≤ b.noteId

theorem sorted_strictly {rows : List HeldRow} (hdistinct : rows.Pairwise fun a b => a.noteId ≠ b.noteId) :
    (rows.insertionSort fun a b => a.noteId ≤ b.noteId).Pairwise fun a b => a.noteId < b.noteId := by
  have hperm := List.perm_insertionSort (fun a b : HeldRow => a.noteId ≤ b.noteId) rows
  have hsorted := List.pairwise_insertionSort (fun a b : HeldRow => a.noteId ≤ b.noteId) rows
  have hdistinct' := (hperm.pairwise_iff fun h => Ne.symm h).2 hdistinct
  exact (hsorted.and hdistinct').imp fun h => lt_of_le_of_ne h.1 h.2

/-- Selecting before sorting is selecting after it. -/
theorem sort_filter (h : StoreInv C s) (p : HeldRow → Bool) :
    (s.heldRows.filter p).insertionSort (fun a b => a.noteId ≤ b.noteId) = (sortedRows s).filter p := by
  have hdistinct := heldRows_distinct h
  have hleft := sorted_strictly (hdistinct.filter p)
  have hright := (sorted_strictly hdistinct).filter p
  have hperm : ((s.heldRows.filter p).insertionSort fun a b => a.noteId ≤ b.noteId).Perm ((sortedRows s).filter p) :=
    (List.perm_insertionSort _ _).trans ((List.perm_insertionSort _ _).symm.filter p)
  exact List.Perm.eq_of_pairwise (fun a b _ _ hab hba => absurd hba (lt_asymm hab)) hleft hright hperm

/-! ## What is listed -/

/-- A hold leaves a trace in the history of its note. -/
theorem listed_revision {L : List Entry} (h : Legal C L s) {row : HeldRow} (hrow : row ∈ s.heldRows) :
    ∃ k, s.revision row.noteId = some k ∧ 0 < k := by
  rw [← List.append_nil L] at h
  obtain ⟨added, he, hnew | hsame⟩ := legal_noted h row.noteId
  · obtain ⟨k, hk, hlt⟩ := revision_grows he hnew
    exact ⟨k, hk, by omega⟩
  · have hmem := mem_heldRows hrow
    rw [hsame] at hmem
    exact absurd hmem List.not_mem_nil

theorem holdEntry_listed {L : List Entry} (h : Legal C L s) {row : HeldRow} (hrow : row ∈ s.heldRows) :
    s.holdEntry C row = .ok (entryOf C s row) := by
  obtain ⟨k, hk, hpos⟩ := listed_revision h hrow
  simp only [holdEntry, orThrow_bind_ok, ensure_bind_ok, pure_ok]
  exact ⟨k, hk, hpos, by rw [entryOf, hk]; rfl⟩

/-- Everything a reader can be shown, in order. -/
def allEntries (C : Crates) (s : Store) : List HoldEntry := (sortedRows s).map (entryOf C s)

theorem past_entries (cursor : Option NoteId) :
    past HoldEntry.noteId cursor (allEntries C s) = (past HeldRow.noteId cursor (sortedRows s)).map (entryOf C s) := by
  unfold past allEntries
  rw [List.filter_map]
  rfl

theorem holdsPage_listed {L : List Entry} (h : Legal C L s) (cursor : Option NoteId) :
    s.holdsPage C cursor = .ok ((past HoldEntry.noteId cursor (allEntries C s)).take (HOLDS_PAGE + 1)) := by
  have hsort : (s.heldRows.filter fun row => cursor.all fun id => decide (id < row.noteId)).insertionSort
      (fun a b => a.noteId ≤ b.noteId) = past HeldRow.noteId cursor (sortedRows s) := sort_filter (legal_inv h) _
  have hmem : ∀ row ∈ (past HeldRow.noteId cursor (sortedRows s)).take (HOLDS_PAGE + 1), row ∈ s.heldRows :=
    fun row hrow => (List.mem_insertionSort _).1 (List.mem_of_mem_filter (List.mem_of_mem_take hrow))
  rw [holdsPage, hsort, past_entries, ← List.map_take]
  refine mapM_ok.2 ?_
  rw [List.forall₂_map_right_iff, List.forall₂_same]
  exact fun row hrow => holdEntry_listed h (hmem row hrow)

/-- A page shows the first holds after its cursor and ends with the cursor of the next. -/
theorem pageAt_listed {L : List Entry} (h : Legal C L s) (cursor : Option NoteId) :
    pageAt C config s cursor = some ((past HoldEntry.noteId cursor (allEntries C s)).take HOLDS_PAGE,
      nextCursor HoldEntry.noteId HOLDS_PAGE (past HoldEntry.noteId cursor (allEntries C s))) := by
  generalize hrows : past HoldEntry.noteId cursor (allEntries C s) = rows
  have hpage : s.holdsPage C cursor = .ok (rows.take (HOLDS_PAGE + 1)) := by
    rw [holdsPage_listed h, hrows]
  have hshown : (rows.take (HOLDS_PAGE + 1)).take HOLDS_PAGE = rows.take HOLDS_PAGE := by
    rw [List.take_take, Nat.min_eq_left (Nat.le_succ HOLDS_PAGE)]
  have hmore : HOLDS_PAGE < (rows.take (HOLDS_PAGE + 1)).length ↔ HOLDS_PAGE < rows.length := by
    rw [List.length_take]
    omega
  simp only [pageAt, Admin.perform, hpage, Except.map, Admin.pageOf, hshown, hmore, nextCursor]

theorem heldRow_holds (h : StoreInv C s) {row : HeldRow} (hrow : row ∈ s.heldRows) :
    s.holdsBurn row.noteId = true ∨ s.holdsWithdrawal row.noteId = true := by
  rcases List.mem_append.1 hrow with hrow | hrow
  · obtain ⟨b, hb, hheld⟩ := List.mem_filterMap.1 hrow
    obtain ⟨reason, hreason, -⟩ := Option.map_eq_some_iff.1 hheld
    have hburn : s.burn b.noteId = some b := Table.get?_of_mem hb
    rw [heldBurn_noteId hheld]
    exact .inl (by rw [holdsBurn_of_burn hburn, hreason]; rfl)
  · obtain ⟨r, hr, hheld⟩ := List.mem_filterMap.1 hrow
    obtain ⟨hid, hstatus⟩ := heldSubmission_some hheld
    have hsub : s.row r.noteId = some r := Table.get?_of_mem hr
    rw [hid]
    exact holds_iff.2 (.inr ⟨r, hsub, hstatus, ((h.notes r.noteId).row r hsub).2.1 hstatus⟩)

/-- What is listed can be released at the number it is listed with. -/
theorem releaseChecked_listed {L : List Entry} (h : Legal C L s) {entry : HoldEntry} (hentry : entry ∈ allEntries C s) :
    ∃ s' k, s.releaseChecked (entry.selection true) = .ok (s', k) := by
  obtain ⟨row, hrow, rfl⟩ := List.mem_map.1 hentry
  have hheld : row ∈ s.heldRows := (List.mem_insertionSort _).1 hrow
  obtain ⟨seq, hseq, hpos⟩ := listed_revision h hheld
  have hinv := legal_inv h
  obtain ⟨s', k, hrelease⟩ : ∃ s' k, s.releaseHold row.noteId true = .ok (s', k) := by
    rcases releaseHold_cases (hinv.notes row.noteId) with ⟨s', hok, -⟩ | ⟨s', hok, -⟩ | ⟨-, hburn, hsub⟩
    · exact ⟨s', _, hok⟩
    · exact ⟨s', _, hok⟩
    · rcases heldRow_holds hinv hheld with h | h
      · rw [hburn] at h
        cases h
      · rw [hsub] at h
        cases h
  refine ⟨s', k, ?_⟩
  have hpos' : (0 : Int) < (seq : Int) := Int.natCast_pos.2 hpos
  simp only [releaseChecked, HoldEntry.selection, entryOf, hseq, Option.getD_some, ensure, hpos', if_true]
  exact hrelease

/-! ## Following the cursors -/

/-- The pages a reader of `s` gets, against the full listing. -/
structure ListsAll (C : Crates) (config : Config) (s : Store) (pages : List (List HoldEntry)) (full : List Hold) :
    Prop where
  /-- From the start, each page after the cursor of the one before, to the one without a cursor. -/
  followed : Pages (pageAt C config s) none pages
  only : ∀ others, Pages (pageAt C config s) none others → others = pages
  ascending : pages.flatten.Pairwise fun a b => a.noteId < b.noteId
  listed : s.holds C = .ok full
  /-- The same holds, each once. -/
  same : (pages.flatten.map HoldEntry.hold).Perm (full.map Hold.printable)
  releasable : ∀ entry ∈ pages.flatten, ∃ s' k, s.releaseChecked (entry.selection true) = .ok (s', k)

/-- **The pages are the listing, and everything listed can be released.** -/
theorem pages_list_all (C : Crates) (config : Config) (lifetimes : List Lifetime) :
    ∃ pages full, ListsAll C config (runAll C lifetimes).store pages full := by
  have hlegal := runs_legal (C := C) lifetimes
  generalize (runAll C lifetimes).store = s at hlegal
  have hinv := legal_inv hlegal
  have hsorted : (sortedRows s).Pairwise fun a b => a.noteId < b.noteId := sorted_strictly (heldRows_distinct hinv)
  have hentries : (allEntries C s).Pairwise fun a b => a.noteId < b.noteId := List.pairwise_map.2 hsorted
  obtain ⟨pages, hpages, hflat⟩ : ∃ pages, Pages (pageAt C config s) none pages ∧
      pages.flatten = past HoldEntry.noteId none (allEntries C s) :=
    pages_past (by decide) hentries (fun cursor => pageAt_listed hlegal cursor) none
  rw [past_none] at hflat
  obtain ⟨full, hfull, hsame⟩ := holds_rows hinv
  refine ⟨pages, full, hpages, fun others hothers => hothers.unique hpages, ?_, hfull, ?_, ?_⟩
  · rw [hflat]
    exact hentries
  · rw [hflat, hsame, allEntries, List.map_map]
    exact (List.perm_insertionSort _ _).map _
  · rw [hflat]
    exact fun entry hentry => releaseChecked_listed hlegal hentry

end LightAttester
