import MidenUsdcx.Attester.Migrations
import MidenUsdcx.Attester.Payout
/-!
# What an upgrade keeps (`migrations/`, `store.rs:983-1008`)

`fileOf` is every file of a version: its layout, with any rows. Each migration takes a file that keeps its
constraints to the next version's file of the same burns, submissions and history (`runBatch_migration`,
`Valid.next`), so an upgrade from any version, in any number of steps, ends in the same file, and what `validate_store`
reads of it is what it would have read of the old one (`checkRows_next`).
-/
namespace LightAttester
open Checked Sql

/-! ## The files of a version -/

/-- The rows of a store. -/
structure Content where
  state : List Row
  burns : List Row
  submissions : List Row
  events : List Row

/-- `attester_state` from version 2 on. -/
def attesterStateV2 : Layout := ⟨attesterStateV1.columns.take 4 ++ [.plain "checkpoint" .blob], []⟩

/-- `burns` from version 4 on. -/
def burnsV4 : Layout := ⟨burnsV3.columns ++ [limitRetryColumn], []⟩

def historyObjects : List (String × String) :=
  [("submission_events_by_note", "submission_events"), ("submission_events_keep_rows", "submission_events"),
    ("submission_events_keep_history", "submission_events")]

def stateLayout (version : Nat) : Layout := if version ≤ 1 then attesterStateV1 else attesterStateV2

def burnsLayout (version : Nat) : Layout :=
  if version ≤ 2 then burnsV1 else if version ≤ 3 then burnsV3 else burnsV4

/-- The rebuilt table is the newest. -/
def tablesOf (version : Nat) (c : Content) : List (String × Table) :=
  if version ≤ 2 then
    [("attester_state", ⟨stateLayout version, c.state⟩), ("burns", ⟨burnsLayout version, c.burns⟩),
      ("submissions", ⟨submissionsLayout, c.submissions⟩), ("submission_events", ⟨eventsLayout, c.events⟩)]
  else
    [("attester_state", ⟨stateLayout version, c.state⟩), ("submissions", ⟨submissionsLayout, c.submissions⟩),
      ("submission_events", ⟨eventsLayout, c.events⟩), ("burns", ⟨burnsLayout version, c.burns⟩)]

def objectsOf (version : Nat) : List (String × String) :=
  if version ≤ 3 then historyObjects else historyObjects ++ [("burns_waiting_for_limit", "burns")]

/-- The file with the layout of this version and these rows. -/
def fileOf (version : Nat) (c : Content) : Db := ⟨version, tablesOf version c, objectsOf version⟩

section
variable (version : Nat) (c : Content)

theorem rows_state : (fileOf version c).rows "attester_state" = c.state := by
  unfold fileOf tablesOf
  split <;> rfl

theorem rows_burns : (fileOf version c).rows "burns" = c.burns := by
  unfold fileOf tablesOf
  split <;> rfl

theorem rows_submissions : (fileOf version c).rows "submissions" = c.submissions := by
  unfold fileOf tablesOf
  split <;> rfl

theorem rows_events : (fileOf version c).rows "submission_events" = c.events := by
  unfold fileOf tablesOf
  split <;> rfl

end

/-- The migrations make these layouts. -/
theorem layout_of_migrations :
    ∀ version ∈ [1, 2, 3, 4], (upgrade (MIGRATIONS.take version) 0 ⟨⟨0, [], []⟩, false, 0, []⟩).map (·.db) =
      .ok (fileOf version ⟨[], [], [], []⟩) := by
  intro version h
  simp only [List.mem_cons, List.not_mem_nil, or_false] at h
  rcases h with rfl | rfl | rfl | rfl
  · rfl
  · rfl
  · rfl
  · rfl

/-! ## One migration -/

/-- Version 2 keeps the authenticated parent as the checkpoint. -/
def scanRow (r : Row) : Row :=
  let r := (r.set "scan_start" .null).set "next_block" .null
  (r.set "checkpoint" (r "authenticated_parent")).set "authenticated_parent" .null

/-- What the migration from this version to the next leaves of the rows. -/
def Content.next : Nat → Content → Content
  | 1, c => { c with state := c.state.map scanRow }
  | 2, c => { c with burns := c.burns.map (·.select keptColumns) }
  | _, c => { c with burns := c.burns.map (·.set "withdrawal_limit_retry_at" .null) }

/-- History rows of the note. -/
def historyOf (c : Content) (r : Row) : Nat := c.events.countP fun child => child "note_id" == r "note_id"

theorem select_select (columns : List String) (r : Row) : (r.select columns).select columns = r.select columns := by
  funext c
  by_cases h : c ∈ columns
  · simp [Row.select, h]
  · simp [Row.select, h]

theorem runBatch_scanFromTheAnchor (version : Nat) (c : Content) (d : Bool) (n : Nat) (f : List Bool) :
    runBatch scanFromTheAnchor ⟨⟨version, tablesOf 1 c, objectsOf 1⟩, d, n, f⟩ =
      .ok ⟨⟨version, tablesOf 2 (c.next 1), objectsOf 2⟩, d, n, f⟩ := by
  have hrows : c.state.map scanRow = ((c.state.map (·.set "scan_start" .null)).map (·.set "next_block" .null)).map
      fun r => (r.set "checkpoint" (r "authenticated_parent")).set "authenticated_parent" .null := by
    rw [List.map_map, List.map_map]
    rfl
  rw [Content.next, hrows]
  rfl

theorem runBatch_withdrawalLimitRetry (version : Nat) (c : Content) (d : Bool) (n : Nat) (f : List Bool) :
    runBatch withdrawalLimitRetry ⟨⟨version, tablesOf 3 c, objectsOf 3⟩, d, n, f⟩ =
      .ok ⟨⟨version, tablesOf 4 (c.next 3), objectsOf 4⟩, d, n, f⟩ := by
  have hnull : ∀ r ∈ c.burns.map (·.set "withdrawal_limit_retry_at" .null), limitRetryColumn.holds r = true := by
    intro r hr
    obtain ⟨r, -, rfl⟩ := List.mem_map.1 hr
    rfl
  have hnew : limitRetryColumn.name ∉ burnsV3.names := by decide
  have hadd : Session.addColumn "burns" limitRetryColumn ⟨⟨version, tablesOf 3 c, objectsOf 3⟩, d, n, f⟩ =
      .ok ⟨⟨version, tablesOf 4 (c.next 3), objectsOf 3⟩, d, n, f⟩ := by
    have hfind : Session.find ⟨⟨version, tablesOf 3 c, objectsOf 3⟩, d, n, f⟩ "burns" = .ok ⟨burnsV3, c.burns⟩ := rfl
    rw [Session.addColumn, hfind, bind_ok]
    refine ⟨_, rfl, ?_⟩
    rw [ensure_bind_ok, ensure_bind_ok, ensure_bind_ok]
    exact ⟨hnew, ⟨rfl, rfl⟩, hnull, rfl⟩
  show (Session.addColumn "burns" limitRetryColumn _ >>= fun s =>
    runBatch [.createIndex "burns_waiting_for_limit" "burns"] s) = _
  rw [hadd]
  rfl

/-- The layout of `burns_rows`. -/
def copiedLayout : Layout := ⟨keptColumns.map fun c => ⟨c, none, false, false, none, none⟩, []⟩

/-- The tables beside `burns` while it is rebuilt. -/
def besideBurns (c : Content) : List (String × Table) :=
  [("attester_state", ⟨attesterStateV2, c.state⟩), ("submissions", ⟨submissionsLayout, c.submissions⟩),
    ("submission_events", ⟨eventsLayout, c.events⟩),
    ("burns_rows", ⟨copiedLayout, c.burns.map (·.select keptColumns)⟩)]

/-- Only the history refers to a burn. -/
theorem references_events (c : Content) (r : Row) :
    Table.references ⟨eventsLayout, c.events⟩ "burns" r = historyOf c r := by
  simp [Table.references, eventsLayout, historyOf, Column.required, Column.plain, Column.key]

theorem free_attesterStateV2 : ∀ c ∈ attesterStateV2.columns, c.references = none := by decide
theorem free_burnsV1 : ∀ c ∈ burnsV1.columns, c.references = none := by decide
theorem free_burnsV3 : ∀ c ∈ burnsV3.columns, c.references = none := by decide
theorem free_submissions : ∀ c ∈ submissionsLayout.columns, c.references = none := by decide
theorem free_copied : ∀ c ∈ copiedLayout.columns, c.references = none := by decide

/-- The file while these burns are back under their name. -/
def rebuilt (version : Nat) (c : Content) (rows : List Row) : Db :=
  ⟨version, besideBurns c ++ [("burns", ⟨burnsV3, rows⟩)], objectsOf 2⟩

theorem setTable_rebuilt (version : Nat) (c : Content) (rows : List Row) :
    (rebuilt version c []).setTable "burns" ⟨burnsV3, rows⟩ = rebuilt version c rows := rfl

theorem references_rebuilt (version : Nat) (c : Content) (rows : List Row) (r : Row) :
    (rebuilt version c rows).references "burns" r = historyOf c r := by
  simp only [Db.references, rebuilt, besideBurns, List.cons_append, List.nil_append, List.map_cons, List.map_nil,
    List.sum_cons, List.sum_nil, references_events, Table.references_eq_zero free_attesterStateV2,
    Table.references_eq_zero free_submissions, Table.references_eq_zero free_copied,
    Table.references_eq_zero free_burnsV3, Nat.zero_add, Nat.add_zero]

/-- Nothing refers to the copy. -/
theorem references_copy (version : Nat) (c : Content) (rows : List Row) (r : Row) :
    (rebuilt version c rows).references "burns_rows" r = 0 := by
  have hevents : Table.references ⟨eventsLayout, c.events⟩ "burns_rows" r = 0 := by
    simp [Table.references, eventsLayout, Column.required, Column.plain, Column.key]
  simp only [Db.references, rebuilt, besideBurns, List.cons_append, List.nil_append, List.map_cons, List.map_nil,
    List.sum_cons, List.sum_nil, hevents, Table.references_eq_zero free_attesterStateV2,
    Table.references_eq_zero free_submissions, Table.references_eq_zero free_copied,
    Table.references_eq_zero free_burnsV3, Nat.add_zero]

/-- Dropping the table leaves every history row waiting for its burn. -/
theorem exec_dropBurns (version : Nat) (c : Content) (n : Nat) (f : List Bool) :
    Stmt.exec (.dropTable "burns") ⟨⟨version, tablesOf 2 c ++
        [("burns_rows", ⟨copiedLayout, c.burns.map (·.select keptColumns)⟩)], objectsOf 2⟩, true, n, f⟩ =
      .ok ⟨⟨version, besideBurns c, objectsOf 2⟩, true, n + (c.burns.map (historyOf c)).sum, f⟩ := by
  have hreferences : Db.references ⟨version, tablesOf 2 c ++
      [("burns_rows", ⟨copiedLayout, c.burns.map (·.select keptColumns)⟩)], objectsOf 2⟩ "burns" = historyOf c := by
    funext r
    show ([("attester_state", ⟨attesterStateV2, c.state⟩), ("burns", ⟨burnsV1, c.burns⟩),
      ("submissions", ⟨submissionsLayout, c.submissions⟩), ("submission_events", ⟨eventsLayout, c.events⟩),
      ("burns_rows", ⟨copiedLayout, c.burns.map (·.select keptColumns)⟩)].map
        fun entry : String × Table => entry.2.references "burns" r).sum = historyOf c r
    simp only [List.map_cons, List.map_nil, List.sum_cons, List.sum_nil, references_events,
      Table.references_eq_zero free_attesterStateV2, Table.references_eq_zero free_burnsV1,
      Table.references_eq_zero free_submissions, Table.references_eq_zero free_copied, Nat.zero_add, Nat.add_zero]
  rw [← hreferences]
  rfl

/-- Putting the burns back satisfies every one of them. -/
theorem exec_insertBurns {c : Content} (hok : ∀ r ∈ (c.next 2).burns, burnsV3.rowOk r = true)
    (hkeys : (c.next 2).burns.Pairwise fun r r' => burnsV3.distinct r r' = true) (version : Nat) (n : Nat)
    (f : List Bool) :
    Stmt.exec (.insertSelect "burns" "burns_rows" keptColumns)
      ⟨rebuilt version c [], true, n + (c.burns.map (historyOf c)).sum, f⟩ =
        .ok ⟨rebuilt version c (c.next 2).burns, true, n, f⟩ := by
  have hrows : (c.burns.map (·.select keptColumns)).map (·.select keptColumns) = (c.next 2).burns := by
    rw [List.map_map]
    exact List.map_congr_left fun r _ => select_select keptColumns r
  have hsum : ((c.next 2).burns.map (historyOf c)).sum = (c.burns.map (historyOf c)).sum := by
    show ((c.burns.map (·.select keptColumns)).map (historyOf c)).sum = _
    rw [List.map_map]
    rfl
  have hcount : ∀ rows r, ((rebuilt version c []).setTable "burns" ⟨burnsV3, rows⟩).references "burns" r =
      historyOf c r := by
    intro rows r
    rw [setTable_rebuilt, references_rebuilt]
  have hall := insertAll_ok (rebuilt version c []) "burns" (d := true) (f := f) rfl free_burnsV3 hcount (c.next 2).burns []
    (n + (c.burns.map (historyOf c)).sum) hok hkeys
  rw [hsum, Nat.add_sub_cancel, List.nil_append, setTable_rebuilt, setTable_rebuilt] at hall
  show ((c.burns.map (·.select keptColumns)).map (·.select keptColumns)).foldlM (Session.insert "burns") _ = _
  rw [hrows]
  exact hall

theorem exec_dropCopy (version : Nat) (c : Content) (n : Nat) (f : List Bool) :
    Stmt.exec (.dropTable "burns_rows") ⟨rebuilt version c (c.next 2).burns, true, n, f⟩ =
      .ok ⟨⟨version, tablesOf 3 (c.next 2), objectsOf 3⟩, true, n, f⟩ := by
  have hnone : (rebuilt version c (c.next 2).burns).references "burns_rows" = fun _ => 0 :=
    funext (references_copy version c (c.next 2).burns)
  show Except.ok (⟨⟨version, tablesOf 3 (c.next 2), objectsOf 3⟩, true, n + ((c.burns.map (·.select keptColumns)).map
    ((rebuilt version c (c.next 2).burns).references "burns_rows")).sum, f⟩ : Session) = _
  rw [hnone, List.map_const', List.sum_replicate_nat, Nat.mul_zero, Nat.add_zero]

theorem runBatch_dropUnusedBurnColumns {c : Content} (hok : ∀ r ∈ (c.next 2).burns, burnsV3.rowOk r = true)
    (hkeys : (c.next 2).burns.Pairwise fun r r' => burnsV3.distinct r r' = true) (version : Nat) (d : Bool) (n : Nat)
    (f : List Bool) :
    runBatch dropUnusedBurnColumns ⟨⟨version, tablesOf 2 c, objectsOf 2⟩, d, n, f⟩ =
      .ok ⟨⟨version, tablesOf 3 (c.next 2), objectsOf 3⟩, true, n, f⟩ := by
  show (Stmt.exec (.dropTable "burns") ⟨⟨version, tablesOf 2 c ++
        [("burns_rows", ⟨copiedLayout, c.burns.map (·.select keptColumns)⟩)], objectsOf 2⟩, true, n, f⟩ >>=
      fun s => runBatch [.createTable "burns" burnsV3, .insertSelect "burns" "burns_rows" keptColumns,
        .dropTable "burns_rows"] s) = _
  rw [exec_dropBurns]
  show (Stmt.exec (.insertSelect "burns" "burns_rows" keptColumns)
    ⟨rebuilt version c [], true, n + (c.burns.map (historyOf c)).sum, f⟩ >>=
      fun s => runBatch [.dropTable "burns_rows"] s) = _
  rw [exec_insertBurns hok hkeys]
  show (Stmt.exec (.dropTable "burns_rows") ⟨rebuilt version c (c.next 2).burns, true, n, f⟩ >>= pure) = _
  rw [exec_dropCopy]
  rfl

/-! ## The constraints carry over -/

theorem rowOk_scanRow {r : Row} (h : attesterStateV1.rowOk r = true) : attesterStateV2.rowOk (scanRow r) = true := by
  simp only [attesterStateV1, Layout.rowOk, List.all_cons, List.all_nil, Bool.and_eq_true] at h
  obtain ⟨⟨hsingleton, hfaucet, hblock, hcommitment, -, -, hparent, -⟩, -⟩ := h
  simp only [attesterStateV2, attesterStateV1, Layout.rowOk, List.take, List.cons_append, List.nil_append, List.all_cons,
    List.all_nil, Bool.and_eq_true]
  exact ⟨⟨hsingleton, hfaucet, hblock, hcommitment, hparent, trivial⟩, trivial⟩

theorem distinct_scanRow (r r' : Row) :
    attesterStateV2.distinct (scanRow r) (scanRow r') = attesterStateV1.distinct r r' := rfl

theorem rowOk_select {r : Row} (h : burnsV1.rowOk r = true) : burnsV3.rowOk (r.select keptColumns) = true := by
  simp only [burnsV1, burnColumns, Layout.rowOk, List.cons_append, List.nil_append, List.all_cons, List.all_nil,
    Bool.and_eq_true] at h
  obtain ⟨⟨hid, hnullifier, hnote, hcreation, hconsumption, -, -, hhold, -⟩, -⟩ := h
  simp only [burnsV3, burnColumns, Layout.rowOk, List.cons_append, List.nil_append, List.all_cons, List.all_nil,
    Bool.and_eq_true]
  exact ⟨⟨hid, hnullifier, hnote, hcreation, hconsumption, hhold, trivial⟩, trivial⟩

theorem distinct_select (r r' : Row) :
    burnsV3.distinct (r.select keptColumns) (r'.select keptColumns) = burnsV1.distinct r r' := rfl

theorem rowOk_noWait {r : Row} (h : burnsV3.rowOk r = true) :
    burnsV4.rowOk (r.set "withdrawal_limit_retry_at" .null) = true := by
  simp only [burnsV3, burnColumns, Layout.rowOk, List.cons_append, List.nil_append, List.all_cons, List.all_nil,
    Bool.and_eq_true] at h
  obtain ⟨⟨hid, hnullifier, hnote, hcreation, hconsumption, hhold, -⟩, -⟩ := h
  simp only [burnsV4, burnsV3, burnColumns, Layout.rowOk, List.cons_append, List.nil_append, List.all_cons, List.all_nil,
    Bool.and_eq_true]
  exact ⟨⟨hid, hnullifier, hnote, hcreation, hconsumption, hhold, rfl, trivial⟩, trivial⟩

theorem distinct_noWait (r r' : Row) :
    burnsV4.distinct (r.set "withdrawal_limit_retry_at" .null) (r'.set "withdrawal_limit_retry_at" .null) =
      burnsV3.distinct r r' := rfl

/-- A row for a row. -/
theorem valid_map {t t' : Layout} {rows : List Row} {g : Row → Row} (h : Table.Valid ⟨t, rows⟩)
    (hok : ∀ r, t.rowOk r = true → t'.rowOk (g r) = true) (hkeys : ∀ r r', t'.distinct (g r) (g r') = t.distinct r r') :
    Table.Valid ⟨t', rows.map g⟩ := by
  refine ⟨fun r hr => ?_, List.pairwise_map.2 (h.keys.imp fun hdistinct => ?_)⟩
  · obtain ⟨old, hold, rfl⟩ := List.mem_map.1 hr
    exact hok old (h.rows old hold)
  · exact (hkeys _ _).trans hdistinct

/-- A history row finds its burn. -/
theorem dangling_events (db : Db) (r : Row) : db.dangling eventsLayout r = 0 ↔
    (r "note_id" ≠ .null → ∃ b ∈ db.rows "burns", b "note_id" = r "note_id") := by
  rw [Db.dangling, List.countP_eq_zero]
  simp [eventsLayout, Column.required, Column.plain, Column.key]

theorem free_stateLayout (version : Nat) : ∀ c ∈ (stateLayout version).columns, c.references = none := by
  unfold stateLayout
  split <;> decide

theorem free_burnsLayout (version : Nat) : ∀ c ∈ (burnsLayout version).columns, c.references = none := by
  unfold burnsLayout
  split
  · decide
  · split <;> decide

/-- What the constraints of a version say of its rows. -/
structure ContentOk (version : Nat) (c : Content) : Prop where
  state : Table.Valid ⟨stateLayout version, c.state⟩
  burns : Table.Valid ⟨burnsLayout version, c.burns⟩
  submissions : Table.Valid ⟨submissionsLayout, c.submissions⟩
  events : Table.Valid ⟨eventsLayout, c.events⟩
  history : ∀ r ∈ c.events, r "note_id" ≠ .null → ∃ b ∈ c.burns, b "note_id" = r "note_id"

theorem valid_fileOf (version : Nat) (c : Content) : (fileOf version c).Valid ↔ ContentOk version c := by
  have hmem : ∀ P : String × Table → Prop, (∀ entry ∈ tablesOf version c, P entry) ↔
      P ("attester_state", ⟨stateLayout version, c.state⟩) ∧ P ("burns", ⟨burnsLayout version, c.burns⟩) ∧
        P ("submissions", ⟨submissionsLayout, c.submissions⟩) ∧ P ("submission_events", ⟨eventsLayout, c.events⟩) := by
    intro P
    unfold tablesOf
    split
    · simp only [List.forall_mem_cons, List.not_mem_nil, false_imp_iff, implies_true, and_true]
    · simp only [List.forall_mem_cons, List.not_mem_nil, false_imp_iff, implies_true, and_true]
      tauto
  constructor
  · intro h
    obtain ⟨hstate, hburns, hsubmissions, hevents⟩ := (hmem fun entry => entry.2.Valid).1 h.tables
    refine ⟨hstate, hburns, hsubmissions, hevents, fun r hr => ?_⟩
    have hlinked := ((hmem _).1 h.foreignKeys).2.2.2 r hr
    rw [dangling_events, rows_burns] at hlinked
    exact hlinked
  · intro h
    refine ⟨(hmem fun entry => entry.2.Valid).2 ⟨h.state, h.burns, h.submissions, h.events⟩, (hmem _).2 ⟨?_, ?_, ?_, ?_⟩⟩
    · exact fun r _ => Db.dangling_eq_zero _ (free_stateLayout version) r
    · exact fun r _ => Db.dangling_eq_zero _ (free_burnsLayout version) r
    · exact fun r _ => Db.dangling_eq_zero _ free_submissions r
    · intro r hr
      rw [dangling_events, rows_burns]
      exact h.history r hr

/-- A burn keeps its note. -/
theorem history_map {c : Content} {g : Row → Row} (h : ∀ r ∈ c.events, r "note_id" ≠ .null →
    ∃ b ∈ c.burns, b "note_id" = r "note_id") (hg : ∀ b, g b "note_id" = b "note_id") :
    ∀ r ∈ c.events, r "note_id" ≠ .null → ∃ b ∈ c.burns.map g, b "note_id" = r "note_id" := by
  intro r hr hnull
  obtain ⟨b, hb, hnote⟩ := h r hr hnull
  exact ⟨g b, List.mem_map_of_mem hb, (hg b).trans hnote⟩

/-- Rows that fit a version fit the next, once migrated. -/
theorem ContentOk.next {version : Nat} {c : Content} (h : ContentOk version c) (hlow : 1 ≤ version) (hhigh : version ≤ 3) :
    ContentOk (version + 1) (c.next version) := by
  obtain rfl | rfl | rfl : version = 1 ∨ version = 2 ∨ version = 3 := by omega
  · exact ⟨valid_map h.state (fun _ => rowOk_scanRow) distinct_scanRow, h.burns, h.submissions, h.events, h.history⟩
  · exact ⟨h.state, valid_map h.burns (fun _ => rowOk_select) distinct_select, h.submissions, h.events,
      history_map h.history fun _ => rfl⟩
  · exact ⟨h.state, valid_map h.burns (fun _ => rowOk_noWait) distinct_noWait, h.submissions, h.events,
      history_map h.history fun _ => rfl⟩

/-! ## Any number of migrations -/

/-- The rows after this many migrations from the version. -/
def Content.after (version : Nat) (c : Content) : Nat → Content
  | 0 => c
  | steps + 1 => (c.after version steps).next (version + steps)

theorem ContentOk.after {version : Nat} {c : Content} (h : ContentOk version c) (hlow : 1 ≤ version) (steps : Nat)
    (hhigh : version + steps ≤ 4) : ContentOk (version + steps) (c.after version steps) := by
  induction steps with
  | zero => exact h
  | succ steps ih => exact (ih (by omega)).next (by omega) (by omega)

/-- A migration turns a file of its version into the next. -/
theorem runBatch_migration {version : Nat} {c : Content} (h : ContentOk version c) (hlow : 1 ≤ version)
    (hhigh : version ≤ 3) (written : Nat) (d : Bool) (n : Nat) (f : List Bool) :
    ∃ batch d', MIGRATIONS[version]? = some batch ∧
      runBatch batch ⟨⟨written, tablesOf version c, objectsOf version⟩, d, n, f⟩ =
        .ok ⟨⟨written, tablesOf (version + 1) (c.next version), objectsOf (version + 1)⟩, d', n, f⟩ := by
  have hnext := h.next hlow hhigh
  obtain rfl | rfl | rfl : version = 1 ∨ version = 2 ∨ version = 3 := by omega
  · exact ⟨_, d, rfl, runBatch_scanFromTheAnchor written c d n f⟩
  · exact ⟨_, true, rfl, runBatch_dropUnusedBurnColumns hnext.burns.rows hnext.burns.keys written d n f⟩
  · exact ⟨_, d, rfl, runBatch_withdrawalLimitRetry written c d n f⟩

theorem leads_migrations {version : Nat} {c : Content} (h : ContentOk version c) (hlow : 1 ≤ version) (steps : Nat)
    (hhigh : version + steps ≤ 4) (written : Nat) (d : Bool) (n : Nat) (f : List Bool) :
    Leads f (((MIGRATIONS.drop version).take steps).foldlM (fun s batch => execBatch batch s)
        ⟨⟨written, tablesOf version c, objectsOf version⟩, d, n, f⟩)
      ⟨written, tablesOf (version + steps) (c.after version steps), objectsOf (version + steps)⟩ n := by
  induction steps with
  | zero => exact leads_ok d
  | succ steps ih =>
    rw [List.take_add_one, List.foldlM_append, List.getElem?_drop]
    refine (ih (by omega)).bind fun d' f' => ?_
    obtain ⟨batch, d'', hbatch, hstep⟩ := runBatch_migration (h.after hlow steps (by omega)) (by omega) (by omega) written
      d' n f'
    rw [hbatch, Option.toList_some, List.foldlM_cons]
    exact (leads_execBatch hstep).bind fun d'' f'' => leads_ok d''

/-- An upgrade to any later version ends in its file. -/
theorem leads_upgrade {version : Nat} {c : Content} (h : ContentOk version c) (hlow : 1 ≤ version) {target : Nat}
    (hle : version ≤ target) (hhigh : target ≤ 4) (d : Bool) (n : Nat) (f : List Bool) :
    Leads f (upgrade (MIGRATIONS.take target) version ⟨fileOf version c, d, n, f⟩)
      (fileOf target (c.after version (target - version))) n := by
  have hsum : version + (target - version) = target := by omega
  have hlength : (MIGRATIONS.take target).length = target := by
    rw [List.length_take]
    exact Nat.min_eq_left hhigh
  have hrun := leads_migrations h hlow (target - version) (by omega) version d n f
  rw [← List.drop_take, hsum] at hrun
  refine hrun.mapError.bind fun d' f' => (leads_call d').mapError.bind fun d'' f'' => ?_
  rw [hlength]
  exact leads_ok d''

/-! ## What is checked carries over -/

/-- Where a version keeps the last authenticated header. -/
def checkpointColumn (version : Nat) : String := if version ≤ 1 then "authenticated_parent" else "checkpoint"

section
variable {C : Crates} {K : Codec} {faucet : AccountId} {anchor : TrustedAnchor}

theorem checkBurn_congr {r r' : Row} (h : ∀ c ∈ keptColumns, r' c = r c) :
    checkBurn C K faucet r' = checkBurn C K faucet r := by
  have hnote : r' "note" = r "note" := h _ (by decide)
  have hid : r' "note_id" = r "note_id" := h _ (by decide)
  have hnullifier : r' "nullifier" = r "nullifier" := h _ (by decide)
  have hcreation : r' "creation_block" = r "creation_block" := h _ (by decide)
  have hconsumption : r' "consumption_block" = r "consumption_block" := h _ (by decide)
  simp only [checkBurn, decodeNote, hnote, hid, hnullifier, hcreation, hconsumption]

theorem checkBurns_map {g : Row → Row} (hg : ∀ r, ∀ c ∈ keptColumns, g r c = r c) (p : Value → Bool)
    (faucet : AccountId) (rows : List Row) :
    ((rows.map g).filter fun r => p (r "consumption_block")).forM (checkBurn C K faucet) =
      (rows.filter fun r => p (r "consumption_block")).forM (checkBurn C K faucet) := by
  have hconsumption : ∀ r, g r "consumption_block" = r "consumption_block" := fun r => hg r _ (by decide)
  rw [List.filter_map]
  refine List.forM_map.trans ?_
  simp only [Function.comp_def, hconsumption, checkBurn_congr (hg _)]
  rfl

theorem sole_map {α β ε : Type} (g : α → β) (xs : List α) (refusal : Nat → ε) :
    sole (xs.map g) refusal = (sole xs refusal).map g := by
  rcases xs with _ | ⟨x, _ | ⟨y, xs⟩⟩
  · rfl
  · rfl
  · show Except.error (refusal ((y :: xs).map g).length.succ) = Except.error (refusal (y :: xs).length.succ)
    rw [List.length_map]

/-- The checks read of a file what they read of one with the same burns, the same submissions and the checkpoint in
another column. -/
theorem checkRows_map {column column' : String} {db db' : Db} {g k : Row → Row}
    (hsubmissions : db'.rows "submissions" = db.rows "submissions")
    (hstate : db'.rows "attester_state" = (db.rows "attester_state").map g)
    (hburns : db'.rows "burns" = (db.rows "burns").map k)
    (hg : ∀ r, g r "faucet_account_id" = r "faucet_account_id" ∧ g r "anchor_block" = r "anchor_block" ∧
      g r "anchor_commitment" = r "anchor_commitment" ∧ g r column' = r column)
    (hk : ∀ r, ∀ c ∈ keptColumns, k r c = r c) :
    checkRows C K column' db' faucet anchor = checkRows C K column db faucet anchor := by
  have hcandidates := checkBurns_map (C := C) (K := K) hk (fun v => decide (v = .null)) faucet (db.rows "burns")
  have hconsumed := checkBurns_map (C := C) (K := K) hk (fun v => decide (v ≠ .null)) faucet (db.rows "burns")
  unfold checkRows
  rw [hsubmissions, hstate, hburns, sole_map, hcandidates, hconsumed]
  refine bind_congr fun _ => ?_
  cases sole (db.rows "attester_state") fun _ => StoreError.invalid with
  | error e => rfl
  | ok state =>
    obtain ⟨hfaucet, hblock, hcommitment, hcheckpoint⟩ := hg state
    simp only [Except.map, Bind.bind, Except.bind, decodeCheckpoint, hfaucet, hblock, hcommitment, hcheckpoint]

theorem noWait_keptColumns (r : Row) : ∀ x ∈ keptColumns, r.set "withdrawal_limit_retry_at" .null x = r x := by
  intro x hx
  exact r.set_of_ne .null fun heq => absurd (heq ▸ hx) (by decide)

theorem checkRows_next (version : Nat) (c : Content) (hlow : 1 ≤ version) (hhigh : version ≤ 3) :
    checkRows C K (checkpointColumn (version + 1)) (fileOf (version + 1) (c.next version)) faucet anchor =
      checkRows C K (checkpointColumn version) (fileOf version c) faucet anchor := by
  obtain rfl | rfl | rfl : version = 1 ∨ version = 2 ∨ version = 3 := by omega
  · exact checkRows_map (g := scanRow) (k := fun r => r) rfl rfl (List.map_id' c.burns).symm
      (fun r => ⟨rfl, rfl, rfl, rfl⟩) fun _ _ _ => rfl
  · exact checkRows_map (g := fun r => r) (k := (·.select keptColumns)) rfl (List.map_id' c.state).symm rfl
      (fun r => ⟨rfl, rfl, rfl, rfl⟩) fun r _ h => r.select_of_mem h
  · exact checkRows_map (g := fun r => r) (k := (·.set "withdrawal_limit_retry_at" .null)) rfl
      (List.map_id' c.state).symm rfl (fun r => ⟨rfl, rfl, rfl, rfl⟩) noWait_keptColumns

theorem checkRows_after {version : Nat} (c : Content) (hlow : 1 ≤ version) (steps : Nat) (hhigh : version + steps ≤ 4) :
    checkRows C K (checkpointColumn (version + steps)) (fileOf (version + steps) (c.after version steps)) faucet anchor =
      checkRows C K (checkpointColumn version) (fileOf version c) faucet anchor := by
  induction steps with
  | zero => rfl
  | succ steps ih =>
    exact (checkRows_next (version + steps) (c.after version steps) (by omega) (by omega)).trans (ih (by omega))

theorem probe_ok {db : Db} {name : String} {columns : List String} {t : Table} (ht : db.table? name = some t)
    (h : columns ⊆ t.layout.names) : probe db name columns = .ok () := by
  rw [probe, ht, orThrow_bind_ok]
  exact ⟨t, rfl, ensure_ok.2 h⟩

/-- A file of the current layout whose burns do not wait passes when its rows do. -/
theorem validateFile_ok {c : Content} (h : ContentOk 4 c)
    (hwait : ∀ r ∈ c.burns, r "withdrawal_limit_retry_at" = .null)
    (hrows : checkRows C K "checkpoint" (fileOf 4 c) faucet anchor = .ok ()) :
    validateFile C K (fileOf 4 c) faucet anchor = .ok () := by
  have hformat : checkFormat (fileOf 4 c) = .ok () := by
    rw [checkFormat, ensure_bind_ok]
    refine ⟨fun entry hentry r hr => (((valid_fileOf 4 c).2 h).tables entry hentry).rows r hr, ?_⟩
    rw [probe_ok (t := ⟨attesterStateV2, c.state⟩) rfl (by show _ ⊆ attesterStateV2.names; decide),
      probe_ok (t := ⟨burnsV4, c.burns⟩) rfl (by show _ ⊆ burnsV4.names; decide),
      probe_ok (t := ⟨submissionsLayout, c.submissions⟩) rfl (List.Subset.refl _),
      probe_ok (t := ⟨eventsLayout, c.events⟩) rfl (List.Subset.refl _)]
    rfl
  rw [validateFile, hformat]
  show (ensure _ _ >>= fun _ => checkRows C K "checkpoint" (fileOf 4 c) faucet anchor) = _
  rw [ensure_bind_ok, rows_burns]
  refine ⟨List.all_eq_true.2 fun r hr => ?_, hrows⟩
  rw [waitFits, hwait r hr]
  rfl

end

/-! ## What is kept -/

/-- The columns of `attester_state` that every version has under one name. -/
def stateColumns : List String := ["singleton", "faucet_account_id", "anchor_block", "anchor_commitment"]

/-- What a version keeps of the rows of another. -/
structure Kept (version : Nat) (c : Content) (version' : Nat) (c' : Content) : Prop where
  burns : List.Forall₂ (fun r r' => ∀ x ∈ keptColumns, r' x = r x) c.burns c'.burns
  submissions : c'.submissions = c.submissions
  events : c'.events = c.events
  state : List.Forall₂ (fun r r' => (∀ x ∈ stateColumns, r' x = r x) ∧
    r' (checkpointColumn version') = r (checkpointColumn version)) c.state c'.state

theorem Kept.refl (version : Nat) (c : Content) : Kept version c version c :=
  ⟨List.forall₂_same.2 fun _ _ _ _ => rfl, rfl, rfl, List.forall₂_same.2 fun _ _ => ⟨fun _ _ => rfl, rfl⟩⟩

theorem forall₂_comp {R S T : Row → Row → Prop} (h : ∀ a b c, R a b → S b c → T a c) {xs ys zs : List Row}
    (hxy : List.Forall₂ R xs ys) (hyz : List.Forall₂ S ys zs) : List.Forall₂ T xs zs := by
  induction hxy generalizing zs with
  | nil =>
    cases hyz
    exact .nil
  | cons hab _ ih =>
    cases hyz with
    | cons hbc hyz => exact .cons (h _ _ _ hab hbc) (ih hyz)

theorem Kept.trans {v v' v'' : Nat} {c c' c'' : Content} (h : Kept v c v' c') (h' : Kept v' c' v'' c'') :
    Kept v c v'' c'' where
  burns := forall₂_comp (fun _ _ _ hab hbc x hx => (hbc x hx).trans (hab x hx)) h.burns h'.burns
  submissions := h'.submissions.trans h.submissions
  events := h'.events.trans h.events
  state := forall₂_comp (fun _ _ _ hab hbc => ⟨fun x hx => (hbc.1 x hx).trans (hab.1 x hx), hbc.2.trans hab.2⟩)
    h.state h'.state

theorem forall₂_map_self {R : Row → Row → Prop} {g : Row → Row} (rows : List Row) (h : ∀ r, R r (g r)) :
    List.Forall₂ R rows (rows.map g) := List.forall₂_map_right_iff.2 (List.forall₂_same.2 fun r _ => h r)

theorem scanRow_stateColumns (r : Row) : ∀ x ∈ stateColumns, scanRow r x = r x := by
  intro x hx
  simp only [stateColumns, List.mem_cons, List.not_mem_nil, or_false] at hx
  rcases hx with rfl | rfl | rfl | rfl
  · rfl
  · rfl
  · rfl
  · rfl

theorem kept_next {version : Nat} (c : Content) (hlow : 1 ≤ version) (hhigh : version ≤ 3) :
    Kept version c (version + 1) (c.next version) := by
  have hrefl := Kept.refl version c
  obtain rfl | rfl | rfl : version = 1 ∨ version = 2 ∨ version = 3 := by omega
  · exact { hrefl with state := forall₂_map_self c.state fun r => ⟨scanRow_stateColumns r, rfl⟩ }
  · exact { hrefl with burns := forall₂_map_self c.burns fun r _ hx => r.select_of_mem hx }
  · exact { hrefl with burns := forall₂_map_self c.burns noWait_keptColumns }

theorem kept_after {version : Nat} (c : Content) (hlow : 1 ≤ version) (steps : Nat) (hhigh : version + steps ≤ 4) :
    Kept version c (version + steps) (c.after version steps) := by
  induction steps with
  | zero => exact Kept.refl version c
  | succ steps ih => exact (ih (by omega)).trans (kept_next _ (by omega) (by omega))

/-! ## Opening -/

theorem after_after (version : Nat) (c : Content) (m n : Nat) :
    (c.after version m).after (version + m) n = c.after version (m + n) := by
  induction n with
  | zero => rfl
  | succ n ih =>
    show ((c.after version m).after (version + m) n).next (version + m + n) = _
    rw [ih, Nat.add_assoc]
    rfl

theorem length_take_migrations {target : Nat} (h : target ≤ 4) : (MIGRATIONS.take target).length = target := by
  rw [List.length_take]
  exact Nat.min_eq_left h

theorem openSession_eq (migrations : List (List Stmt)) (validate : Db → Except StoreError Unit) (s : Session) :
    openSession migrations validate s = (do
      let s ← s.call.mapError classifyError
      let s ← bringCurrent migrations s
      s.call.mapError classifyError) >>= fun s => validate s.db >>= fun _ => s.commit.mapError classifyError := by
  simp only [openSession, bind_assoc]

theorem commit_cases (db : Db) (d : Bool) (f : List Bool) :
    (∃ e, Session.commit ⟨db, d, 0, f⟩ = .error e ∧ ¬ Calm f) ∨ Session.commit ⟨db, d, 0, f⟩ = .ok db := by
  rw [Session.commit]
  rcases Session.call_cases ⟨db, d, 0, f⟩ with ⟨herror, hfault⟩ | hok
  · exact .inl ⟨.io, by rw [herror]; rfl, hfault⟩
  · exact .inr (by rw [hok]; rfl)

section
variable {version target : Nat} {c : Content} (h : ContentOk version c) (hlow : 1 ≤ version)
include h hlow

/-- An attester brings an older file to its own version. -/
theorem leads_bringCurrent (hle : version ≤ target) (hhigh : target ≤ 4) (d : Bool) (n : Nat) (f : List Bool) :
    Leads f (bringCurrent (MIGRATIONS.take target) ⟨fileOf version c, d, n, f⟩)
      (fileOf target (c.after version (target - version))) n := by
  have hversion : (⟨fileOf version c, d, n, f⟩ : Session).db.version = version := rfl
  rw [bringCurrent, length_take_migrations hhigh, hversion]
  by_cases hsame : version = target
  · subst hsame
    rw [if_pos rfl, Nat.sub_self]
    exact leads_ok d
  · rw [if_neg hsame, if_neg (show ¬ version = 0 by omega), if_neg (show ¬ target < version by omega)]
    exact leads_upgrade h hlow hle hhigh d n f

theorem leads_beforeCheck (hle : version ≤ target) (hhigh : target ≤ 4) (f : List Bool) :
    Leads f (do
      let s ← (Session.call ⟨fileOf version c, false, 0, f⟩).mapError classifyError
      let s ← bringCurrent (MIGRATIONS.take target) s
      s.call.mapError classifyError) (fileOf target (c.after version (target - version))) 0 :=
  (leads_call false).mapError.bind fun d _ => (leads_bringCurrent h hlow hle hhigh d 0 _).bind fun d' _ =>
    (leads_call d').mapError

/-- Without faults, a file that passes the check at the attester's version is brought there. -/
theorem openSession_calm (hle : version ≤ target) (hhigh : target ≤ 4) {validate : Db → Except StoreError Unit}
    (hvalid : validate (fileOf target (c.after version (target - version))) = .ok ()) {f : List Bool} (hcalm : Calm f) :
    openSession (MIGRATIONS.take target) validate ⟨fileOf version c, false, 0, f⟩ =
      .ok (fileOf target (c.after version (target - version))) := by
  rw [openSession_eq]
  rcases leads_beforeCheck h hlow hle hhigh f with ⟨e, -, hfault⟩ | ⟨d, f', hok, hrest⟩
  · exact absurd hcalm hfault
  · rw [hok, bind_ok]
    refine ⟨_, rfl, bind_ok.2 ⟨(), hvalid, mapError_ok.2 ?_⟩⟩
    rcases commit_cases (fileOf target (c.after version (target - version))) d f' with ⟨e, -, hfault⟩ | hcommit
    · exact absurd (hrest hcalm) hfault
    · exact hcommit

/-- Whatever fails, an attester leaves the file or brings it to its own version. -/
theorem openSession_ok (hhigh : target ≤ 4) {validate : Db → Except StoreError Unit} {f : List Bool} {db : Db}
    (hopen : openSession (MIGRATIONS.take target) validate ⟨fileOf version c, false, 0, f⟩ = .ok db) :
    version ≤ target ∧ db = fileOf target (c.after version (target - version)) := by
  by_cases hle : version ≤ target
  · refine ⟨hle, ?_⟩
    rw [openSession_eq, bind_ok] at hopen
    obtain ⟨s, hs, hopen⟩ := hopen
    obtain ⟨-, -, hcommit⟩ := bind_ok.1 hopen
    rcases leads_beforeCheck h hlow hle hhigh f with ⟨e, herror, -⟩ | ⟨d, f', hok, -⟩
    · cases herror.symm.trans hs
    · cases hok.symm.trans hs
      rcases commit_cases (fileOf target (c.after version (target - version))) d f' with ⟨e, herror, -⟩ | hdone
      · cases herror.symm.trans (mapError_ok.1 hcommit)
      · exact (Except.ok.inj (hdone.symm.trans (mapError_ok.1 hcommit))).symm
  · -- A newer file is refused.
    exfalso
    rw [openSession, bind_ok] at hopen
    obtain ⟨s, hs, hopen⟩ := hopen
    obtain ⟨s', hs', -⟩ := bind_ok.1 hopen
    have hversion : s.db.version = version := by
      rcases Session.call_cases ⟨fileOf version c, false, 0, f⟩ with ⟨herror, -⟩ | hok
      · cases herror.symm.trans (mapError_ok.1 hs)
      · cases hok.symm.trans (mapError_ok.1 hs)
        rfl
    rw [bringCurrent, length_take_migrations hhigh, hversion, if_neg (show ¬ version = target by omega),
      if_neg (show ¬ version = 0 by omega), if_pos (show target < version by omega)] at hs'
    cases hs'

end

/-- An attester with the first of the migrations and a check of its own opens the file. -/
structure Attempt where
  migrations : Nat
  known : migrations ≤ MIGRATIONS.length
  validate : Db → Except StoreError Unit
  faults : List Bool

/-- The file it leaves. -/
def Attempt.leaves (a : Attempt) (db : Db) : Db :=
  (transaction (openSession (MIGRATIONS.take a.migrations) a.validate) db a.faults).2

/-- What the current version keeps of an older file. -/
structure Carried (version : Nat) (old new : Db) : Prop where
  /-- The version and the layout are those of a new store. -/
  current : ∃ c, new = fileOf STORE_VERSION c
  valid : new.Valid
  burns : List.Forall₂ (fun r r' => ∀ x ∈ keptColumns, r' x = r x) (old.rows "burns") (new.rows "burns")
  waiting : ∀ r ∈ new.rows "burns", r "withdrawal_limit_retry_at" = .null
  submissions : new.rows "submissions" = old.rows "submissions"
  history : new.rows "submission_events" = old.rows "submission_events"
  state : List.Forall₂ (fun r r' => (∀ x ∈ stateColumns, r' x = r x) ∧ r' "checkpoint" = r (checkpointColumn version))
    (old.rows "attester_state") (new.rows "attester_state")

/-- Opening the file loses nothing and fails whole. -/
structure Upgrades (C : Crates) (K : Codec) (faucet : AccountId) (anchor : TrustedAnchor) (version : Nat) (file : Db) :
    Prop where
  /-- At once, or after any attempts of this and earlier attesters, the same store. -/
  opens : ∃ new, Carried version file new ∧ ∀ (earlier : List Attempt) (faults : List Bool), Calm faults →
    openFile C K faucet anchor (earlier.foldl (fun db a => a.leaves db) file) faults = (.ok (), new)
  whole : ∀ faults e, (openFile C K faucet anchor file faults).1 = .error e →
    (openFile C K faucet anchor file faults).2 = file

theorem transaction_error {body : Session → Except StoreError Db} {db : Db} {faults : List Bool} {e : StoreError}
    (h : (transaction body db faults).1 = .error e) : (transaction body db faults).2 = db := by
  unfold transaction at h ⊢
  split at h
  · cases h
  · rfl

section
variable {version : Nat} {c : Content}

/-- An attempt leaves the file of some version, with the rows its migrations leave. -/
theorem leaves_file (h : ContentOk version c) (hlow : 1 ≤ version) {steps : Nat} (hsteps : version + steps ≤ 4)
    (a : Attempt) : ∃ steps', version + steps' ≤ 4 ∧ a.leaves (fileOf (version + steps) (c.after version steps)) =
      fileOf (version + steps') (c.after version steps') := by
  have hknown : a.migrations ≤ 4 := a.known
  rw [Attempt.leaves, transaction]
  cases hopen : openSession (MIGRATIONS.take a.migrations) a.validate
      ⟨fileOf (version + steps) (c.after version steps), false, 0, a.faults⟩ with
  | error e => exact ⟨steps, hsteps, rfl⟩
  | ok db =>
    obtain ⟨hle, rfl⟩ := openSession_ok (h.after hlow steps hsteps) (by omega) hknown hopen
    have htarget : a.migrations = version + (steps + (a.migrations - (version + steps))) := by omega
    refine ⟨steps + (a.migrations - (version + steps)), by omega, ?_⟩
    rw [after_after, ← htarget]

theorem foldl_leaves (h : ContentOk version c) (hlow : 1 ≤ version) (attempts : List Attempt) (steps : Nat)
    (hsteps : version + steps ≤ 4) : ∃ steps', version + steps' ≤ 4 ∧
      attempts.foldl (fun db a => a.leaves db) (fileOf (version + steps) (c.after version steps)) =
        fileOf (version + steps') (c.after version steps') := by
  induction attempts generalizing steps with
  | nil => exact ⟨steps, hsteps, rfl⟩
  | cons a attempts ih =>
    obtain ⟨steps', hsteps', hfile⟩ := leaves_file h hlow hsteps a
    rw [List.foldl_cons, hfile]
    exact ih steps' hsteps'

/-- What the last migration leaves waits for nothing. -/
theorem after_wait (hhigh : version ≤ 3) : ∀ r ∈ (c.after version (4 - version)).burns,
    r "withdrawal_limit_retry_at" = .null := by
  intro r hr
  have hlast : 4 - version = (3 - version) + 1 := by omega
  have hversion : version + (3 - version) = 3 := by omega
  rw [hlast, Content.after, hversion] at hr
  obtain ⟨old, -, rfl⟩ := List.mem_map.1 hr
  exact Row.set_self old _ _

theorem carried_after (h : ContentOk version c) (hlow : 1 ≤ version) (hhigh : version ≤ 3) :
    Carried version (fileOf version c) (fileOf STORE_VERSION (c.after version (4 - version))) := by
  have hsum : version + (4 - version) = 4 := by omega
  have hkept := kept_after c hlow (4 - version) (by omega)
  have hok := h.after hlow (4 - version) (by omega)
  rw [hsum] at hkept hok
  refine ⟨⟨_, rfl⟩, (valid_fileOf _ _).2 hok, ?_, ?_, ?_, ?_, ?_⟩
  · rw [rows_burns, rows_burns]
    exact hkept.burns
  · rw [rows_burns]
    exact after_wait hhigh
  · rw [rows_submissions, rows_submissions]
    exact hkept.submissions
  · rw [rows_events, rows_events]
    exact hkept.events
  · rw [rows_state, rows_state]
    exact hkept.state

section
variable {C : Crates} {K : Codec} {faucet : AccountId} {anchor : TrustedAnchor}

theorem validateFile_after (h : ContentOk version c) (hlow : 1 ≤ version) (hhigh : version ≤ 3)
    (hrows : checkRows C K (checkpointColumn version) (fileOf version c) faucet anchor = .ok ()) :
    validateFile C K (fileOf 4 (c.after version (4 - version))) faucet anchor = .ok () := by
  have hsum : version + (4 - version) = 4 := by omega
  have hok := h.after hlow (4 - version) (by omega)
  rw [← checkRows_after c hlow (4 - version) (by omega), hsum] at hrows
  rw [hsum] at hok
  exact validateFile_ok hok (after_wait hhigh) hrows

/-- **Upgrades lose nothing.** A file of version 1, 2 or 3 that keeps its constraints and whose rows pass the checks
opens as the file of the current version with the same burns, submissions, history and checkpoint, whatever attempts
came before; an attempt that fails leaves the file as it was. -/
theorem upgrade_lossless (hlow : 1 ≤ version) (hhigh : version ≤ 3) (hvalid : (fileOf version c).Valid)
    (hrows : checkRows C K (checkpointColumn version) (fileOf version c) faucet anchor = .ok ()) :
    Upgrades C K faucet anchor version (fileOf version c) := by
  have hok := (valid_fileOf version c).1 hvalid
  refine ⟨⟨_, carried_after hok hlow hhigh, fun earlier faults hcalm => ?_⟩, fun faults e => transaction_error⟩
  obtain ⟨steps, hsteps, hfile⟩ := foldl_leaves hok hlow earlier 0 (by omega)
  have hdone : (c.after version steps).after (version + steps) (4 - (version + steps)) =
      c.after version (4 - version) := by
    rw [after_after]
    congr 1
    omega
  have hchecked := validateFile_after hok hlow hhigh hrows
  rw [← hdone] at hchecked
  have hopen : openSession (MIGRATIONS.take 4) (fun db => validateFile C K db faucet anchor)
      ⟨fileOf (version + steps) (c.after version steps), false, 0, faults⟩ =
        .ok (fileOf 4 ((c.after version steps).after (version + steps) (4 - (version + steps)))) :=
    openSession_calm (hok.after hlow steps hsteps) (by omega) hsteps (Nat.le_refl 4) hchecked hcalm
  rw [hdone] at hopen
  rw [show fileOf version c = fileOf (version + 0) (c.after version 0) from rfl, hfile, openFile, transaction]
  rw [show MIGRATIONS = MIGRATIONS.take 4 from rfl, hopen]
  rfl

end

end

namespace Sample

def rowOf (columns : List (String × Value)) : Row := fun c => (columns.lookup c).getD .null

/-- Every blob of the sample file stands for the one value of its type. -/
def codec : Codec where
  accountId _ := some faucet
  word _ := some 0
  noteId _ := some note.id
  nullifier _ := some note.nullifier
  note _ := some note
  header _ := some ⟨102, 5⟩

/-- A file of version 1: a held burn with its history, no submission. -/
def versionOne : Content where
  state := [rowOf [("singleton", .integer 1), ("faucet_account_id", .blob [1]), ("anchor_block", .integer 100),
    ("anchor_commitment", .blob [2]), ("scan_start", .integer 101), ("next_block", .integer 103),
    ("authenticated_parent", .blob [3])]]
  burns := [rowOf [("note_id", .blob [4]), ("nullifier", .blob [5]), ("note", .blob [6]),
    ("creation_block", .integer 100), ("consumption_block", .integer 101), ("burn_tx_id", .blob [7]),
    ("status", .text "DISCOVERED"), ("hold_reason", .integer 1)]]
  submissions := []
  events := [rowOf [("seq", .integer 1), ("note_id", .blob [4]), ("recorded_at", .integer 0), ("kind", .text "BURN_HELD"),
    ("burn_hold_reason", .integer 1)]]

end Sample

theorem upgrade_lossless_sample :
    Upgrades Sample.crates Sample.codec Sample.faucet ⟨100, 0⟩ 1 (fileOf 1 Sample.versionOne) := by
  refine upgrade_lossless (by decide) (by decide) ((valid_fileOf 1 Sample.versionOne).2 ?_) (by decide +kernel)
  constructor
  · exact ⟨by decide, List.pairwise_singleton _ _⟩
  · exact ⟨by decide, List.pairwise_singleton _ _⟩
  · exact ⟨by decide, .nil⟩
  · exact ⟨by decide, List.pairwise_singleton _ _⟩
  · decide

end LightAttester
