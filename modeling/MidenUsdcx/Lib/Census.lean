import Mathlib.Algebra.BigOperators.Group.Finset.Piecewise
import Mathlib.Data.Fintype.Basic
import MidenUsdcx.Lib.Table
/-!
# Counting rows

What `COUNT(*)` and `MIN` say of two joined tables: counts that cut a list into parts add up (`countP_parts`), a count
over one table is a count over the table it refers to (`Table.countP_join`), and the least of a nullable column is
attained by a row that has one (`min?_filterMap_eq_some`).
-/
namespace Keyed

section
variable {α ι : Type} [Fintype ι]

/-- The rows that satisfy `p` are counted part by part, when each of them is in exactly one part and no other row is
in any. -/
theorem countP_parts {p : α → Bool} {q : ι → α → Bool} {xs : List α}
    (hin : ∀ x ∈ xs, p x = true → ∃! i, q i x = true) (hout : ∀ x ∈ xs, ∀ i, q i x = true → p x = true) :
    xs.countP p = ∑ i, xs.countP (q i) := by
  classical
  induction xs with
  | nil => simp
  | cons x xs ih =>
    have hrest : xs.countP p = ∑ i, xs.countP (q i) :=
      ih (fun y hy => hin y (List.mem_cons_of_mem _ hy)) (fun y hy => hout y (List.mem_cons_of_mem _ hy))
    have hhead : (if p x = true then 1 else 0) = ∑ i, if q i x = true then 1 else 0 := by
      by_cases hp : p x = true
      · obtain ⟨j, hj, honly⟩ := hin x List.mem_cons_self hp
        have hq : ∀ i, q i x = true ↔ i = j := fun i => ⟨honly i, fun e => e ▸ hj⟩
        simp only [hp, if_true, hq, Finset.sum_ite_eq', Finset.mem_univ]
      · have hq : ∀ i, ¬ q i x = true := fun i h => hp (hout x List.mem_cons_self i h)
        rw [if_neg hp, Finset.sum_eq_zero fun i _ => if_neg (hq i)]
    simp only [List.countP_cons, Finset.sum_add_distrib]
    rw [hrest, hhead]

end

section
variable {α β : Type} [LinearOrder β] {f : α → Option β} {xs : List α}

theorem min?_filterMap_eq_none : (xs.filterMap f).min? = none ↔ ∀ x ∈ xs, f x = none := by
  rw [List.min?_eq_none_iff, List.filterMap_eq_nil_iff]

theorem min?_filterMap_eq_some {k : β} : (xs.filterMap f).min? = some k ↔
    (∃ x ∈ xs, f x = some k) ∧ ∀ x ∈ xs, ∀ j, f x = some j → k ≤ j := by
  rw [List.min?_eq_some_iff, List.mem_filterMap]
  constructor
  · rintro ⟨hmem, hleast⟩
    exact ⟨hmem, fun x hx j hj => hleast j (List.mem_filterMap.2 ⟨x, hx, hj⟩)⟩
  · rintro ⟨hmem, hleast⟩
    refine ⟨hmem, fun j hj => ?_⟩
    obtain ⟨x, hx, hj⟩ := List.mem_filterMap.1 hj
    exact hleast x hx j hj

end

namespace Table
variable {κ ρ σ : Type} [LinearOrder κ] {key : ρ → κ} {ref : σ → κ}

/-- Rows that refer to a row of `t` by its key are counted over `t`, through the join. -/
theorem countP_join (t : Table κ ρ key) (u : Table κ σ ref) {p : σ → Bool}
    (h : ∀ r ∈ u.rows, p r = true → (t.get? (ref r)).isSome) :
    u.rows.countP p = t.rows.countP fun b => (u.get? (key b)).any p := by
  have hperm : ((u.rows.filter p).map ref).Perm ((t.rows.filter fun b => (u.get? (key b)).any p).map key) := by
    refine (List.perm_ext_iff_of_nodup ?_ ?_).2 fun k => ?_
    · exact u.nodup_keys.sublist (List.filter_sublist.map _)
    · exact t.nodup_keys.sublist (List.filter_sublist.map _)
    · simp only [List.mem_map, List.mem_filter, Option.any_eq_true]
      constructor
      · rintro ⟨r, ⟨hr, hp⟩, rfl⟩
        obtain ⟨b, hb⟩ := Option.isSome_iff_exists.1 (h r hr hp)
        have hkey : key b = ref r := key_of_get? hb
        exact ⟨b, ⟨mem_of_get? hb, r, by rw [hkey]; exact get?_of_mem hr, hp⟩, hkey⟩
      · rintro ⟨b, ⟨-, r, hr, hp⟩, rfl⟩
        exact ⟨r, ⟨mem_of_get? hr, hp⟩, key_of_get? hr⟩
  have hlength := hperm.length_eq
  rwa [List.length_map, List.length_map, ← List.countP_eq_length_filter, ← List.countP_eq_length_filter] at hlength

end Table

end Keyed
