import Mathlib.Order.Defs.LinearOrder
import Mathlib.Data.List.Sort
/-!
# Tables with a primary key

A `Table` is what an SQL table with a primary key is to its statements: a finite set of rows, at
most one for each key, read in key order. The rows are kept sorted by key, so two tables with the
same rows are equal (`Table.ext_get?`) and `rows` is the table as `ORDER BY` the key lists it. The
statements are `put` (an upsert of one row) and `erase` (a delete by key); `get?` is the lookup by
key, and every lemma about a statement is about the lookups after it.
-/
namespace Keyed

section
variable {κ ρ : Type} [LinearOrder κ] (key : ρ → κ)

/-- Puts a row in its place in a list sorted by key, over the row that has its key if there is one. -/
def putRow (r : ρ) : List ρ → List ρ
  | [] => [r]
  | x :: xs => if key r < key x then r :: x :: xs else if key r = key x then r :: xs else x :: putRow r xs

theorem mem_putRow {r x : ρ} : ∀ {xs : List ρ}, x ∈ putRow key r xs → x = r ∨ x ∈ xs
  | [], h => by simpa [putRow] using h
  | y :: ys, h => by
    simp only [putRow] at h
    split at h
    · simpa using h
    · split at h
      · rcases List.mem_cons.1 h with h | h
        · exact Or.inl h
        · exact Or.inr (List.mem_cons_of_mem _ h)
      · rcases List.mem_cons.1 h with h | h
        · exact Or.inr (h ▸ List.mem_cons_self)
        · rcases mem_putRow h with h | h
          · exact Or.inl h
          · exact Or.inr (List.mem_cons_of_mem _ h)

theorem mem_putRow_self (r : ρ) (xs : List ρ) : r ∈ putRow key r xs := by
  induction xs with
  | nil => simp [putRow]
  | cons x xs ih =>
    simp only [putRow]
    split
    · exact List.mem_cons_self
    · split
      · exact List.mem_cons_self
      · exact List.mem_cons_of_mem _ ih

theorem mem_putRow_of_mem {x : κ} (r : κ) {xs : List κ} (h : x ∈ xs) : x ∈ putRow id r xs := by
  induction xs with
  | nil => cases h
  | cons y ys ih =>
    simp only [putRow]
    split
    · exact List.mem_cons_of_mem _ h
    · split
      · rename_i heq
        exact (show r = y from heq) ▸ h
      · rcases List.mem_cons.1 h with rfl | h
        · exact List.mem_cons_self
        · exact List.mem_cons_of_mem _ (ih h)

theorem putRow_sorted (r : ρ) : ∀ {xs : List ρ},
    xs.Pairwise (fun a b => key a < key b) → (putRow key r xs).Pairwise (fun a b => key a < key b)
  | [], _ => by simp [putRow]
  | x :: xs, h => by
    obtain ⟨hx, hxs⟩ := List.pairwise_cons.1 h
    simp only [putRow]
    split
    · rename_i hlt
      refine List.pairwise_cons.2 ⟨fun y hy => ?_, h⟩
      rcases List.mem_cons.1 hy with rfl | hy
      · exact hlt
      · exact lt_trans hlt (hx y hy)
    · split
      · rename_i heq
        exact List.pairwise_cons.2 ⟨fun y hy => heq ▸ hx y hy, hxs⟩
      · rename_i hlt hne
        refine List.pairwise_cons.2 ⟨fun y hy => ?_, putRow_sorted r hxs⟩
        rcases mem_putRow key hy with rfl | hy
        · exact lt_of_le_of_ne (not_lt.1 hlt) (Ne.symm hne)
        · exact hx y hy

/-- The row with a key in a list of rows. -/
def lookup (k : κ) (xs : List ρ) : Option ρ := xs.find? fun r => decide (key r = k)

theorem lookup_cons (k : κ) (x : ρ) (xs : List ρ) :
    lookup key k (x :: xs) = if key x = k then some x else lookup key k xs := by
  by_cases h : key x = k <;> simp [lookup, h]

theorem lookup_putRow (r : ρ) (k : κ) : ∀ {xs : List ρ}, xs.Pairwise (fun a b => key a < key b) →
    lookup key k (putRow key r xs) = if key r = k then some r else lookup key k xs
  | [], _ => by simp [putRow, lookup_cons]
  | x :: xs, h => by
    obtain ⟨hx, hxs⟩ := List.pairwise_cons.1 h
    simp only [putRow]
    split
    · rw [lookup_cons]
    · split
      · rename_i heq
        simp only [lookup_cons, heq]
        split <;> rfl
      · rename_i hne
        simp only [lookup_cons, lookup_putRow r k hxs]
        by_cases hk : key x = k
        · simp [hk, show key r ≠ k from fun e => hne (e.trans hk.symm)]
        · simp [hk]

end

/-- Rows in ascending order of their key, each key at most once. -/
structure Table (κ ρ : Type) [LinearOrder κ] (key : ρ → κ) where
  rows : List ρ
  sorted : rows.Pairwise fun a b => key a < key b

namespace Table
variable {κ ρ : Type} [LinearOrder κ] {key : ρ → κ}

def empty : Table κ ρ key := ⟨[], .nil⟩

def get? (t : Table κ ρ key) (k : κ) : Option ρ := lookup key k t.rows

/-- Inserts the row, or puts it over the one with its key. -/
def put (t : Table κ ρ key) (r : ρ) : Table κ ρ key := ⟨putRow key r t.rows, putRow_sorted key r t.sorted⟩

def erase (t : Table κ ρ key) (k : κ) : Table κ ρ key :=
  ⟨t.rows.filter fun r => decide (key r ≠ k), t.sorted.filter _⟩

@[simp] theorem get?_empty (k : κ) : (empty : Table κ ρ key).get? k = none := rfl

theorem get?_put (t : Table κ ρ key) (r : ρ) (k : κ) :
    (t.put r).get? k = if key r = k then some r else t.get? k := lookup_putRow key r k t.sorted

@[simp] theorem get?_put_self (t : Table κ ρ key) (r : ρ) : (t.put r).get? (key r) = some r := by
  simp [get?_put]

theorem get?_put_ne (t : Table κ ρ key) {r : ρ} {k : κ} (h : key r ≠ k) : (t.put r).get? k = t.get? k := by
  simp [get?_put, h]

theorem get?_erase (t : Table κ ρ key) (j k : κ) :
    (t.erase j).get? k = if k = j then none else t.get? k := by
  have : ∀ xs : List ρ, lookup key k (xs.filter fun r => decide (key r ≠ j)) =
      if k = j then none else lookup key k xs := by
    intro xs
    induction xs with
    | nil => simp [lookup]
    | cons x xs ih =>
      by_cases hx : key x = j
      · simp only [List.filter_cons, hx, ne_eq, not_true_eq_false, decide_false, Bool.false_eq_true, if_false, ih,
          lookup_cons]
        by_cases hk : k = j
        · simp [hk]
        · simp [hk, Ne.symm hk]
      · simp only [List.filter_cons, hx, ne_eq, not_false_eq_true, decide_true, if_true, lookup_cons, ih]
        by_cases hk : k = j
        · simp [hk, hx]
        · simp [hk]
  exact this t.rows

theorem key_of_get? {t : Table κ ρ key} {k : κ} {r : ρ} (h : t.get? k = some r) : key r = k := by
  simpa using List.find?_some h

theorem mem_of_get? {t : Table κ ρ key} {k : κ} {r : ρ} (h : t.get? k = some r) : r ∈ t.rows :=
  List.mem_of_find?_eq_some h

theorem get?_of_mem {t : Table κ ρ key} {r : ρ} (h : r ∈ t.rows) : t.get? (key r) = some r := by
  have : ∀ {xs : List ρ}, xs.Pairwise (fun a b => key a < key b) → r ∈ xs → lookup key (key r) xs = some r := by
    intro xs hs hr
    induction xs with
    | nil => simp at hr
    | cons x xs ih =>
      obtain ⟨hx, hxs⟩ := List.pairwise_cons.1 hs
      rw [lookup_cons]
      rcases List.mem_cons.1 hr with rfl | hr
      · simp
      · rw [if_neg (ne_of_lt (hx r hr)), ih hxs hr]
  exact this t.sorted h

theorem mem_rows {t : Table κ ρ key} {r : ρ} : r ∈ t.rows ↔ t.get? (key r) = some r :=
  ⟨get?_of_mem, mem_of_get?⟩

/-- The keys of the rows never repeat. -/
theorem nodup_keys (t : Table κ ρ key) : (t.rows.map key).Nodup := by
  rw [List.Nodup, List.pairwise_map]
  exact t.sorted.imp fun h => ne_of_lt h

/-- Two tables that answer every lookup alike are one table. -/
theorem ext_get? {t u : Table κ ρ key} (h : ∀ k, t.get? k = u.get? k) : t = u := by
  have hmem : ∀ r, r ∈ t.rows ↔ r ∈ u.rows := fun r => by rw [mem_rows, mem_rows, h]
  have hnd : ∀ v : Table κ ρ key, v.rows.Nodup := fun v => v.nodup_keys.of_map
  have hperm : t.rows.Perm u.rows := (List.perm_ext_iff_of_nodup (hnd t) (hnd u)).2 hmem
  have hrows : t.rows = u.rows :=
    List.Perm.eq_of_pairwise (fun a b _ _ hab hba => absurd hba (lt_asymm hab)) t.sorted u.sorted hperm
  cases t; cases u; simp_all

end Table

end Keyed
