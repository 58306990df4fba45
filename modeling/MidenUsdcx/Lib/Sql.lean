import MidenUsdcx.Lib.Checked
import Mathlib.Algebra.GroupWithZero.Nat
/-!
# Layout changes of an SQLite file

Tables with typed columns and their constraints, and the statements a migration is made of. A row is the value in
each column; a `CHECK` is an expression over a row, and passes unless it is false. Deleting a row that others refer to
counts the references, and inserting a row takes back those to it: with the foreign keys deferred, a transaction
commits when the count is zero.

SQLite may fail at any call: `Session.faults` is the schedule, one entry a call.
-/
namespace Sql
open Checked

/-! ## Values and expressions -/

inductive Value where
  | null
  | integer (n : Int)
  | text (s : String)
  | blob (bytes : List UInt8)
deriving DecidableEq, Repr

namespace Value

/-- The truth of a value, in three-valued logic. -/
def truth : Value → Option Bool
  | null => none
  | integer n => some (n != 0)
  | text _ | blob _ => some false

def ofTruth : Option Bool → Value
  | none => null
  | some b => integer (if b then 1 else 0)

/-- The order of values: integers, then texts, then blobs. -/
def less : Value → Value → Bool
  | integer a, integer b => a < b
  | text a, text b => a < b
  | blob a, blob b => a < b
  | integer _, text _ | integer _, blob _ | text _, blob _ => true
  | _, _ => false

/-- A comparison of two values is null when one of them is. -/
def compare (test : Value → Value → Bool) : Value → Value → Value
  | null, _ | _, null => null
  | a, b => ofTruth (some (test a b))

end Value

/-- A row: the value in each column. -/
abbrev Row := String → Value

namespace Row

def set (r : Row) (column : String) (v : Value) : Row := fun c => if c = column then v else r c

/-- The row that `SELECT` of these columns gives. -/
def select (columns : List String) (r : Row) : Row := fun c => if c ∈ columns then r c else .null

@[simp] theorem set_self (r : Row) (column : String) (v : Value) : r.set column v column = v := if_pos rfl

theorem set_of_ne (r : Row) {column c : String} (v : Value) (h : c ≠ column) : r.set column v c = r c := if_neg h

theorem select_of_mem (r : Row) {columns : List String} {c : String} (h : c ∈ columns) : r.select columns c = r c :=
  if_pos h

end Row

inductive Expr where
  | column (name : String)
  | literal (v : Value)
  | isNull (e : Expr)
  | eq (a b : Expr)
  | gt (a b : Expr)
  | le (a b : Expr)
  | and (a b : Expr)
  | or (a b : Expr)
  | oneOf (e : Expr) (values : List Value)
deriving DecidableEq, Repr

namespace Expr

/-- `e BETWEEN low AND high`. -/
def between (e low high : Expr) : Expr := .and (.le low e) (.le e high)

def eval (r : Row) : Expr → Value
  | column name => r name
  | literal v => v
  | isNull e => .ofTruth (some (e.eval r == .null))
  | eq a b => Value.compare (fun x y => x == y) (a.eval r) (b.eval r)
  | gt a b => Value.compare (fun x y => y.less x) (a.eval r) (b.eval r)
  | le a b => Value.compare (fun x y => !y.less x) (a.eval r) (b.eval r)
  | and a b =>
    match (a.eval r).truth, (b.eval r).truth with
    | some false, _ | _, some false => .integer 0
    | some true, some true => .integer 1
    | _, _ => .null
  | or a b =>
    match (a.eval r).truth, (b.eval r).truth with
    | some true, _ | _, some true => .integer 1
    | some false, some false => .integer 0
    | _, _ => .null
  | oneOf e values =>
    match e.eval r with
    | .null => .null
    | v => .ofTruth (some (values.contains v))

/-- A `CHECK` fails only when it is false. -/
def passes (e : Expr) (r : Row) : Bool := (e.eval r).truth != some false

def columns : Expr → List String
  | column name => [name]
  | literal _ => []
  | isNull e | oneOf e _ => e.columns
  | eq a b | gt a b | le a b | and a b | or a b => a.columns ++ b.columns

def rename (old new : String) : Expr → Expr
  | column name => .column (if name = old then new else name)
  | literal v => .literal v
  | isNull e => .isNull (e.rename old new)
  | eq a b => .eq (a.rename old new) (b.rename old new)
  | gt a b => .gt (a.rename old new) (b.rename old new)
  | le a b => .le (a.rename old new) (b.rename old new)
  | and a b => .and (a.rename old new) (b.rename old new)
  | or a b => .or (a.rename old new) (b.rename old new)
  | oneOf e values => .oneOf (e.rename old new) values

end Expr

/-! ## Tables -/

inductive ColumnType where
  | integer
  | text
  | blob
deriving DecidableEq, Repr

/-- What a `STRICT` column of this type holds besides null. -/
def ColumnType.holds : ColumnType → Value → Bool
  | .integer, .integer _ | .text, .text _ | .blob, .blob _ => true
  | _, .null => true
  | _, _ => false

structure Column where
  name : String
  /-- `none` in a table that a query made. -/
  type : Option ColumnType
  notNull : Bool
  /-- `PRIMARY KEY` or `UNIQUE`. -/
  unique : Bool
  check : Option Expr
  /-- `REFERENCES table (column)`. -/
  references : Option (String × String)
deriving DecidableEq, Repr

namespace Column

def plain (name : String) (type : ColumnType) : Column := ⟨name, some type, false, false, none, none⟩

def required (name : String) (type : ColumnType) : Column := ⟨name, some type, true, false, none, none⟩

/-- A `PRIMARY KEY`, which a `STRICT` table keeps from being null. -/
def key (name : String) (type : ColumnType) : Column := ⟨name, some type, true, true, none, none⟩

def checked (c : Column) (e : Expr) : Column := { c with check := some e }

def holds (c : Column) (r : Row) : Bool :=
  c.type.all (·.holds (r c.name)) && !(c.notNull && r c.name == .null) && c.check.all (·.passes r)

end Column

/-- A table without its rows. -/
structure Layout where
  columns : List Column
  checks : List Expr
deriving DecidableEq, Repr

namespace Layout

def names (t : Layout) : List String := t.columns.map (·.name)

/-- Types, `NOT NULL` and `CHECK`. -/
def rowOk (t : Layout) (r : Row) : Bool := t.columns.all (·.holds r) && t.checks.all (·.passes r)

/-- Two rows that no `PRIMARY KEY` or `UNIQUE` refuses together: nulls do not clash. -/
def distinct (t : Layout) (r r' : Row) : Bool :=
  t.columns.all fun c => !c.unique || r c.name == .null || r c.name != r' c.name

end Layout

structure Table where
  layout : Layout
  rows : List Row

/-- How many rows of the table refer to this row of the named one. -/
def Table.references (t : Table) (name : String) (r : Row) : Nat :=
  (t.layout.columns.map fun c =>
    match c.references with
    | some (parent, key) => if parent = name then t.rows.countP fun child => child c.name == r key else 0
    | none => 0).sum

/-- Every row passes its checks and no key is there twice. -/
structure Table.Valid (t : Table) : Prop where
  rows : ∀ r ∈ t.rows, t.layout.rowOk r = true
  keys : t.rows.Pairwise fun r r' => t.layout.distinct r r' = true

/-! ## Statements -/

inductive Stmt where
  | createTable (name : String) (layout : Layout)
  /-- `CREATE TABLE name AS SELECT columns FROM source`. -/
  | createTableAs (name source : String) (columns : List String)
  | dropTable (name : String)
  /-- `INSERT INTO name (columns) SELECT columns FROM source`. -/
  | insertSelect (name source : String) (columns : List String)
  | addColumn (table : String) (column : Column)
  | dropColumn (table column : String)
  | renameColumn (table old new : String)
  | createIndex (name table : String)
  | createTrigger (name table : String)
  /-- `PRAGMA defer_foreign_keys = ON`. -/
  | deferForeignKeys
deriving DecidableEq, Repr

/-- A database file. An index or a trigger is its name and its table. -/
structure Db where
  version : Nat
  tables : List (String × Table)
  objects : List (String × String)

namespace Db

def table? (db : Db) (name : String) : Option Table := (db.tables.find? fun t => t.1 == name).map (·.2)

/-- The rows of a table, if it is there. -/
def rows (db : Db) (name : String) : List Row := ((db.table? name).map (·.rows)).getD []

def setTable (db : Db) (name : String) (t : Table) : Db :=
  { db with tables := db.tables.map fun entry => if entry.1 = name then (name, t) else entry }

/-- How many rows refer to this row of the table. -/
def references (db : Db) (name : String) (r : Row) : Nat := (db.tables.map fun entry => entry.2.references name r).sum

/-- How many references of this row, in a table of this layout, find no row. -/
def dangling (db : Db) (t : Layout) (r : Row) : Nat :=
  t.columns.countP fun c => c.references.any fun target =>
    r c.name != .null && !(db.rows target.1).any fun parent => parent target.2 == r c.name

/-- Every row that refers to another finds it. -/
def ForeignKeys (db : Db) : Prop :=
  ∀ entry ∈ db.tables, ∀ r ∈ entry.2.rows, db.dangling entry.2.layout r = 0

/-- What the file's constraints guarantee of its rows. -/
structure Valid (db : Db) : Prop where
  tables : ∀ entry ∈ db.tables, entry.2.Valid
  foreignKeys : db.ForeignKeys

end Db

/-- A transaction on a file. -/
structure Session where
  db : Db
  deferred : Bool
  /-- References to deleted rows. -/
  violations : Nat
  faults : List Bool

inductive Error where
  /-- SQLite failed, for a reason of its own. -/
  | io
  | noSuchTable (name : String)
  | noSuchColumn (name : String)
  | alreadyExists (name : String)
  | constraint
  | cannotAlter (column : String)
deriving DecidableEq, Repr

namespace Session

/-- One call of SQLite. -/
def call (s : Session) : Except Error Session :=
  match s.faults with
  | [] => .ok s
  | true :: _ => .error .io
  | false :: rest => .ok { s with faults := rest }

def find (s : Session) (name : String) : Except Error Table := orThrow (s.db.table? name) (.noSuchTable name)

def setTable (s : Session) (name : String) (t : Table) : Session := { s with db := s.db.setTable name t }

/-- Inserts one row. References that waited for it are satisfied. -/
def insert (name : String) (s : Session) (r : Row) : Except Error Session := do
  let t ← s.find name
  ensure (t.layout.rowOk r = true ∧ ∀ old ∈ t.rows, t.layout.distinct old r = true) .constraint
  ensure (s.deferred = true ∨ s.db.dangling t.layout r = 0) .constraint
  pure { s.setTable name { t with rows := t.rows ++ [r] } with
    violations := s.violations + s.db.dangling t.layout r - s.db.references name r }

/-- Whether SQLite refuses to drop the column: it is a key or refers to another table, or something but its own
`CHECK` names it. -/
def pinned (t : Layout) (c : Column) : Bool :=
  c.unique || c.references.isSome || t.checks.any (fun e => c.name ∈ e.columns) ||
    t.columns.any fun other => other.name != c.name && other.check.any fun e => c.name ∈ e.columns

def findColumn (t : Layout) (name : String) : Except Error Column :=
  orThrow (t.columns.find? fun c => c.name == name) (.noSuchColumn name)

/-- `DROP TABLE` deletes the rows first. -/
def dropTable (name : String) (s : Session) : Except Error Session := do
  let t ← s.find name
  let referred := (t.rows.map (s.db.references name)).sum
  ensure (s.deferred = true ∨ referred = 0) .constraint
  pure { s with db.tables := s.db.tables.filter fun entry => entry.1 != name,
                db.objects := s.db.objects.filter fun object => object.2 != name,
                violations := s.violations + referred }

/-- `ALTER TABLE .. ADD COLUMN`: null in every row, which the column has to allow. -/
def addColumn (name : String) (c : Column) (s : Session) : Except Error Session := do
  let t ← s.find name
  ensure (c.name ∉ t.layout.names) (.alreadyExists c.name)
  ensure (c.unique = false ∧ c.notNull = false) (.cannotAlter c.name)
  let rows := t.rows.map (·.set c.name .null)
  ensure (∀ r ∈ rows, c.holds r = true) .constraint
  pure (s.setTable name ⟨{ t.layout with columns := t.layout.columns ++ [c] }, rows⟩)

def dropColumn (name column : String) (s : Session) : Except Error Session := do
  let t ← s.find name
  let c ← findColumn t.layout column
  ensure (pinned t.layout c = false) (.cannotAlter column)
  pure (s.setTable name ⟨{ t.layout with columns := t.layout.columns.filter fun c => c.name != column },
    t.rows.map (·.set column .null)⟩)

def renameColumn (name old new : String) (s : Session) : Except Error Session := do
  let t ← s.find name
  let _ ← findColumn t.layout old
  ensure (new ∉ t.layout.names) (.alreadyExists new)
  let columns := t.layout.columns.map fun c =>
    { c with name := if c.name = old then new else c.name, check := c.check.map (·.rename old new) }
  pure (s.setTable name ⟨⟨columns, t.layout.checks.map (·.rename old new)⟩,
    t.rows.map fun r => (r.set new (r old)).set old .null⟩)

def addTable (name : String) (t : Table) (s : Session) : Except Error Session := do
  ensure (s.db.table? name = none) (.alreadyExists name)
  pure { s with db.tables := s.db.tables ++ [(name, t)] }

def addObject (name table : String) (s : Session) : Except Error Session := do
  let _ ← s.find table
  ensure (∀ object ∈ s.db.objects, object.1 ≠ name) (.alreadyExists name)
  pure { s with db.objects := s.db.objects ++ [(name, table)] }

end Session

def Stmt.exec : Stmt → Session → Except Error Session
  | .createTable name layout, s => s.addTable name ⟨layout, []⟩
  | .createTableAs name source columns, s => do
    let t ← s.find source
    let made : Layout := ⟨columns.map fun c => ⟨c, none, false, false, none, none⟩, []⟩
    s.addTable name ⟨made, t.rows.map (·.select columns)⟩
  | .dropTable name, s => s.dropTable name
  | .insertSelect name source columns, s => do
    let t ← s.find source
    (t.rows.map (·.select columns)).foldlM (Session.insert name) s
  | .addColumn table column, s => s.addColumn table column
  | .dropColumn table column, s => s.dropColumn table column
  | .renameColumn table old new, s => s.renameColumn table old new
  | .createIndex name table, s => s.addObject name table
  | .createTrigger name table, s => s.addObject name table
  | .deferForeignKeys, s => .ok { s with deferred := true }

/-- `execute_batch`. -/
def execBatch (batch : List Stmt) (s : Session) : Except Error Session :=
  batch.foldlM (fun s stmt => s.call >>= stmt.exec) s

/-- `COMMIT`: references are counted by now. -/
def Session.commit (s : Session) : Except Error Db := do
  let s ← s.call
  ensure (s.violations = 0) .constraint
  pure s.db

/-! ## Faults -/

/-- SQLite does not fail. -/
def Calm (faults : List Bool) : Prop := ∀ f ∈ faults, f = false

/-- A batch without faults. -/
def runBatch (batch : List Stmt) (s : Session) : Except Error Session := batch.foldlM (fun s stmt => stmt.exec s) s

section
variable {s : Session}

def Session.withFaults (s : Session) (faults : List Bool) : Session := { s with faults := faults }

theorem Calm.drop {faults : List Bool} (h : Calm faults) (n : Nat) : Calm (faults.drop n) :=
  fun f hf => h f (List.mem_of_mem_drop hf)

theorem Session.call_cases (s : Session) :
    (s.call = .error .io ∧ ¬ Calm s.faults) ∨ s.call = .ok (s.withFaults (s.faults.drop 1)) := by
  obtain ⟨db, deferred, violations, faults⟩ := s
  rcases faults with _ | ⟨_ | _, rest⟩
  · exact .inr rfl
  · exact .inr rfl
  · exact .inl ⟨rfl, fun h => absurd (h true List.mem_cons_self) (by decide)⟩

theorem insert_faults (name : String) (s : Session) (r : Row) (f : List Bool) :
    (s.withFaults f).insert name r = (s.insert name r).map (·.withFaults f) := by
  simp only [Session.insert, map_bind, map_pure]
  rfl

theorem insertAll_faults (name : String) (rows : List Row) (s : Session) (f : List Bool) :
    rows.foldlM (Session.insert name) (s.withFaults f) = (rows.foldlM (Session.insert name) s).map (·.withFaults f) := by
  induction rows generalizing s with
  | nil => rfl
  | cons r rows ih =>
    rw [List.foldlM_cons, List.foldlM_cons, insert_faults, map_bind]
    cases s.insert name r with
    | error e => rfl
    | ok s1 => exact ih s1

/-- A statement does not look at the faults to come. -/
theorem Stmt.exec_faults (stmt : Stmt) (s : Session) (f : List Bool) :
    stmt.exec (s.withFaults f) = (stmt.exec s).map (·.withFaults f) := by
  cases stmt with
  | insertSelect name source columns =>
    simp only [Stmt.exec, map_bind, ← insertAll_faults]
    rfl
  | createTable name layout =>
    simp only [Stmt.exec, Session.addTable, map_bind, map_pure]
    rfl
  | createTableAs name source columns =>
    simp only [Stmt.exec, Session.addTable, map_bind, map_pure]
    rfl
  | dropTable name =>
    simp only [Stmt.exec, Session.dropTable, map_bind, map_pure]
    rfl
  | addColumn table column =>
    simp only [Stmt.exec, Session.addColumn, map_bind, map_pure]
    rfl
  | dropColumn table column =>
    simp only [Stmt.exec, Session.dropColumn, map_bind, map_pure]
    rfl
  | renameColumn table old new =>
    simp only [Stmt.exec, Session.renameColumn, map_bind, map_pure]
    rfl
  | createIndex name table =>
    simp only [Stmt.exec, Session.addObject, map_bind, map_pure]
    rfl
  | createTrigger name table =>
    simp only [Stmt.exec, Session.addObject, map_bind, map_pure]
    rfl
  | deferForeignKeys => rfl

theorem runBatch_faults (batch : List Stmt) (s : Session) (f : List Bool) :
    runBatch batch (s.withFaults f) = (runBatch batch s).map (·.withFaults f) := by
  induction batch generalizing s with
  | nil => rfl
  | cons stmt batch ih =>
    rw [runBatch, runBatch, List.foldlM_cons, List.foldlM_cons, Stmt.exec_faults, map_bind]
    cases stmt.exec s with
    | error e => rfl
    | ok s1 => exact ih s1

/-- A batch ends as it would without faults, or at one. -/
theorem execBatch_cases (batch : List Stmt) (s : Session) :
    (execBatch batch s = .error .io ∧ ¬ Calm s.faults) ∨
      execBatch batch s = (runBatch batch s).map (·.withFaults (s.faults.drop batch.length)) := by
  induction batch generalizing s with
  | nil => exact .inr rfl
  | cons stmt batch ih =>
    rw [execBatch, runBatch, List.foldlM_cons, List.foldlM_cons, map_bind]
    rcases s.call_cases with ⟨hcall, hfault⟩ | hcall
    · exact .inl ⟨by rw [hcall]; rfl, hfault⟩
    · have hexec : (s.call >>= stmt.exec) = (stmt.exec s).map (·.withFaults (s.faults.drop 1)) := by
        rw [hcall]
        exact Stmt.exec_faults stmt s _
      rw [hexec]
      cases stmt.exec s with
      | error e => exact .inr rfl
      | ok s1 =>
        rcases ih (s1.withFaults (s.faults.drop 1)) with ⟨herror, hfault⟩ | hrun
        · exact .inl ⟨herror, fun hcalm => hfault (hcalm.drop 1)⟩
        · refine .inr (hrun.trans ?_)
          rw [runBatch_faults, List.length_cons, Nat.add_comm, ← List.drop_drop]
          show _ = (runBatch batch s1).map _
          cases runBatch batch s1 with
          | error e => rfl
          | ok s2 => rfl

end

/-! ## Runs to a file -/

/-- Without faults the run ends with this file and this many violations; a fault may end it before. -/
def Leads {ε : Type} (f : List Bool) (run : Except ε Session) (db : Db) (n : Nat) : Prop :=
  (∃ e, run = .error e ∧ ¬ Calm f) ∨ ∃ d f', run = .ok ⟨db, d, n, f'⟩ ∧ (Calm f → Calm f')

section
variable {ε : Type} {f : List Bool} {db db' : Db} {n n' : Nat}

theorem leads_ok (d : Bool) : Leads f (.ok ⟨db, d, n, f⟩ : Except ε Session) db n := .inr ⟨d, f, rfl, fun h => h⟩

theorem Leads.bind {run : Except ε Session} {k : Session → Except ε Session} (h : Leads f run db n)
    (hk : ∀ d f', Leads f' (k ⟨db, d, n, f'⟩) db' n') : Leads f (run >>= k) db' n' := by
  rcases h with ⟨e, rfl, hfault⟩ | ⟨d, f', rfl, hcalm⟩
  · exact .inl ⟨e, rfl, hfault⟩
  · rcases hk d f' with ⟨e, herror, hfault⟩ | ⟨d', f'', hok, hcalm'⟩
    · exact .inl ⟨e, herror, fun h => hfault (hcalm h)⟩
    · exact .inr ⟨d', f'', hok, fun h => hcalm' (hcalm h)⟩

theorem Leads.mapError {ε' : Type} {g : ε → ε'} {run : Except ε Session} (h : Leads f run db n) :
    Leads f (run.mapError g) db n := by
  rcases h with ⟨e, rfl, hfault⟩ | ⟨d, f', rfl, hcalm⟩
  · exact .inl ⟨g e, rfl, hfault⟩
  · exact .inr ⟨d, f', rfl, hcalm⟩

theorem leads_call (d : Bool) : Leads f (Session.call ⟨db, d, n, f⟩) db n := by
  rcases Session.call_cases ⟨db, d, n, f⟩ with ⟨herror, hfault⟩ | hok
  · exact .inl ⟨.io, herror, hfault⟩
  · exact .inr ⟨d, f.drop 1, hok, fun h => h.drop 1⟩

theorem leads_execBatch {batch : List Stmt} {d d' : Bool}
    (h : runBatch batch ⟨db, d, n, f⟩ = .ok ⟨db', d', n', f⟩) : Leads f (execBatch batch ⟨db, d, n, f⟩) db' n' := by
  rcases execBatch_cases batch ⟨db, d, n, f⟩ with ⟨herror, hfault⟩ | hrun
  · exact .inl ⟨.io, herror, hfault⟩
  · rw [h] at hrun
    exact .inr ⟨d', f.drop batch.length, hrun, fun h => h.drop batch.length⟩

end

/-! ## Inserting rows -/

theorem Db.setTable_setTable (db : Db) (name : String) (t t' : Table) :
    (db.setTable name t).setTable name t' = db.setTable name t' := by
  simp only [Db.setTable, List.map_map, Db.mk.injEq, true_and, and_true]
  refine List.map_congr_left fun entry _ => ?_
  by_cases h : entry.1 = name
  · simp [h]
  · simp [h]

theorem Db.table?_setTable {db : Db} {name : String} (h : (db.table? name).isSome = true) (t : Table) :
    (db.setTable name t).table? name = some t := by
  obtain ⟨version, tables, objects⟩ := db
  induction tables with
  | nil => cases h
  | cons entry tables ih =>
    simp only [Db.table?, Db.setTable, List.map_cons, List.find?_cons] at h ih ⊢
    by_cases hname : entry.1 = name
    · simp [hname]
    · simp only [hname, if_false, beq_eq_false_iff_ne.2 hname] at h ⊢
      exact ih h

/-- A table that refers to no other. -/
theorem Table.references_eq_zero {t : Layout} (h : ∀ c ∈ t.columns, c.references = none) (rows : List Row)
    (name : String) (r : Row) : Table.references ⟨t, rows⟩ name r = 0 := by
  refine List.sum_eq_zero_iff_forall_eq_nat.2 fun n hn => ?_
  obtain ⟨c, hc, rfl⟩ := List.mem_map.1 hn
  rw [h c hc]

theorem Db.dangling_eq_zero (db : Db) {t : Layout} (h : ∀ c ∈ t.columns, c.references = none) (r : Row) :
    db.dangling t r = 0 := by
  rw [Db.dangling, List.countP_eq_zero]
  intro c hc
  rw [h c hc]
  exact Bool.false_ne_true

/-- Rows that pass their checks and clash with none are all inserted, into a table that refers to no other. `count`
is how many references each takes back. -/
theorem insertAll_ok (db : Db) (name : String) {layout : Layout} {count : Row → Nat} {d : Bool}
    {f : List Bool} (hthere : (db.table? name).isSome = true) (hfree : ∀ c ∈ layout.columns, c.references = none)
    (hcount : ∀ rows r, (db.setTable name ⟨layout, rows⟩).references name r = count r) (rows old : List Row) (n : Nat)
    (hok : ∀ r ∈ rows, layout.rowOk r = true) (hkeys : (old ++ rows).Pairwise fun r r' => layout.distinct r r' = true) :
    rows.foldlM (Session.insert name) ⟨db.setTable name ⟨layout, old⟩, d, n, f⟩ =
      .ok ⟨db.setTable name ⟨layout, old ++ rows⟩, d, n - (rows.map count).sum, f⟩ := by
  induction rows generalizing old n with
  | nil => rw [List.append_nil]; rfl
  | cons r rows ih =>
    have hsplit : old ++ r :: rows = (old ++ [r]) ++ rows := by rw [List.append_assoc]; rfl
    have hnew : ∀ o ∈ old, layout.distinct o r = true := fun o ho =>
      (List.pairwise_append.1 hkeys).2.2 o ho r List.mem_cons_self
    have hinsert : Session.insert name ⟨db.setTable name ⟨layout, old⟩, d, n, f⟩ r =
        .ok ⟨db.setTable name ⟨layout, old ++ [r]⟩, d, n - count r, f⟩ := by
      simp only [Session.insert, Session.find, orThrow_bind_ok, ensure_bind_ok, Db.table?_setTable hthere]
      refine ⟨_, rfl, ⟨hok r List.mem_cons_self, hnew⟩, .inr (Db.dangling_eq_zero _ hfree r), ?_⟩
      rw [pure_ok, Db.dangling_eq_zero _ hfree r, hcount, Session.setTable, Db.setTable_setTable, Nat.add_zero]
    rw [List.foldlM_cons, hinsert]
    show rows.foldlM (Session.insert name) _ = _
    rw [ih (old ++ [r]) (n - count r) (fun r' h => hok r' (List.mem_cons_of_mem r h)) (hsplit ▸ hkeys), hsplit,
      List.map_cons, List.sum_cons, Nat.sub_sub]

end Sql
