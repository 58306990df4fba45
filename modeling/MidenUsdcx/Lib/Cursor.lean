import Mathlib.Order.Lattice
import Mathlib.Data.List.Basic
/-!
# Reading a sorted list page by page

A page is the first rows after a cursor, and the last row shown is the cursor of the next page. `Pages` are the pages a
reader gets who follows the cursors until there is none. The list is sorted strictly by the key, so the rows after the
last row shown are the rows that were not shown (`past_last`), and the pages together are the list (`pages_past`).
-/
namespace Keyed

section
variable {κ ρ : Type}

/-- The pages from a cursor on, to the first without one. -/
inductive Pages (page : Option κ → Option (List ρ × Option κ)) : Option κ → List (List ρ) → Prop where
  | last {cursor : Option κ} {rows : List ρ} (h : page cursor = some (rows, none)) : Pages page cursor [rows]
  | more {cursor : Option κ} {rows : List ρ} {next : κ} {rest : List (List ρ)} (h : page cursor = some (rows, some next))
    (hrest : Pages page (some next) rest) : Pages page cursor (rows :: rest)

theorem Pages.unique {page : Option κ → Option (List ρ × Option κ)} {cursor : Option κ} {a b : List (List ρ)}
    (ha : Pages page cursor a) (hb : Pages page cursor b) : a = b := by
  induction ha generalizing b with
  | last h =>
    cases hb with
    | last h' => cases h.symm.trans h'; rfl
    | more h' _ => cases h.symm.trans h'
  | more h _ ih =>
    cases hb with
    | last h' => cases h.symm.trans h'
    | more h' hrest =>
      cases h.symm.trans h'
      rw [ih hrest]

end

section
variable {κ ρ : Type} [LinearOrder κ] (key : ρ → κ)

/-- The rows after the cursor. -/
def past (cursor : Option κ) (rows : List ρ) : List ρ := rows.filter fun r => cursor.all fun k => decide (k < key r)

/-- The cursor a page of `size` rows ends with, if more rows follow. -/
def nextCursor (size : Nat) (rows : List ρ) : Option κ :=
  if size < rows.length then (rows.take size).getLast?.map key else none

variable {key}

theorem past_none (rows : List ρ) : past key none rows = rows := by
  simp [past]

/-- The rows after a row that is after the cursor. -/
theorem past_last {cursor : Option κ} {rows front back : List ρ} {r : ρ}
    (hsorted : rows.Pairwise fun a b => key a < key b) (h : past key cursor rows = front ++ r :: back) :
    past key (some (key r)) rows = back := by
  have hafter : cursor.all (fun k => decide (k < key r)) = true := by
    have hmem : r ∈ past key cursor rows := by rw [h]; exact List.mem_append_right front List.mem_cons_self
    exact (List.mem_filter.1 hmem).2
  have htwice : past key (some (key r)) rows = past key (some (key r)) (past key cursor rows) := by
    unfold past
    rw [List.filter_filter]
    refine List.filter_congr fun x _ => ?_
    cases cursor with
    | none => simp
    | some k =>
      have hk : k < key r := by simpa using hafter
      by_cases hx : key r < key x
      · simp [hx, lt_trans hk hx]
      · simp [hx]
  have hsorted' : (front ++ r :: back).Pairwise fun a b => key a < key b := by
    rw [← h]
    exact hsorted.filter _
  obtain ⟨-, hback, hfront⟩ := List.pairwise_append.1 hsorted'
  have hnone : past key (some (key r)) (front ++ [r]) = [] := by
    refine List.filter_eq_nil_iff.2 fun x hx hlt => ?_
    have hlt : key r < key x := by simpa using hlt
    rcases List.mem_append.1 hx with hx | hx
    · exact lt_asymm hlt (hfront x hx r List.mem_cons_self)
    · rw [List.mem_singleton.1 hx] at hlt
      exact lt_irrefl _ hlt
  have hall : past key (some (key r)) back = back := by
    refine List.filter_eq_self.2 fun x hx => ?_
    simpa using (List.pairwise_cons.1 hback).1 x hx
  have hsplit : front ++ r :: back = (front ++ [r]) ++ back := by simp
  calc past key (some (key r)) rows
      = past key (some (key r)) ((front ++ [r]) ++ back) := by rw [htwice, h, hsplit]
    _ = past key (some (key r)) (front ++ [r]) ++ past key (some (key r)) back := List.filter_append ..
    _ = back := by rw [hnone, hall, List.nil_append]

/-- The pages end, and together they are the rows after the cursor. -/
theorem pages_past {page : Option κ → Option (List ρ × Option κ)} {rows : List ρ} {size : Nat} (hsize : 0 < size)
    (hsorted : rows.Pairwise fun a b => key a < key b)
    (hpage : ∀ cursor, page cursor = some ((past key cursor rows).take size, nextCursor key size (past key cursor rows)))
    (cursor : Option κ) : ∃ pages, Pages page cursor pages ∧ pages.flatten = past key cursor rows := by
  -- Each page shows at least one row that the next one starts behind.
  induction hlength : (past key cursor rows).length using Nat.strongRecOn generalizing cursor with
  | ind n ih =>
    by_cases hmore : size < (past key cursor rows).length
    · obtain ⟨front, r, hfront⟩ : ∃ front r, (past key cursor rows).take size = front ++ [r] := by
        have hne : (past key cursor rows).take size ≠ [] := by
          intro hnil
          have hlen := congrArg List.length hnil
          rw [List.length_take, List.length_nil] at hlen
          omega
        exact ⟨_, _, (List.dropLast_append_getLast hne).symm⟩
      have hsplit : past key cursor rows = front ++ r :: (past key cursor rows).drop size := by
        calc past key cursor rows = (past key cursor rows).take size ++ (past key cursor rows).drop size :=
              (List.take_append_drop size _).symm
          _ = front ++ r :: (past key cursor rows).drop size := by
              rw [hfront, List.append_assoc, List.singleton_append]
      have hnext : past key (some (key r)) rows = (past key cursor rows).drop size := past_last hsorted hsplit
      have hcursor : nextCursor key size (past key cursor rows) = some (key r) := by
        rw [nextCursor, if_pos hmore, hfront, List.getLast?_concat, Option.map_some]
      have hshorter : (past key (some (key r)) rows).length < n := by
        rw [hnext, List.length_drop]
        omega
      obtain ⟨rest, hrest, hflat⟩ := ih _ hshorter (some (key r)) rfl
      refine ⟨(past key cursor rows).take size :: rest, .more (by rw [hpage, hcursor]) hrest, ?_⟩
      rw [List.flatten_cons, hflat, hnext]
      exact List.take_append_drop size _
    · have hcursor : nextCursor key size (past key cursor rows) = none := by rw [nextCursor, if_neg hmore]
      refine ⟨[(past key cursor rows).take size], .last (by rw [hpage, hcursor]), ?_⟩
      rw [List.flatten_singleton]
      exact List.take_of_length_le (by omega)

end

end Keyed
