import Mathlib.Algebra.Order.Monoid.Unbundled.Basic
/-!
# Sliding windows

A log of instants is `Spaced limit width` when any two of its entries that are `limit` places apart
are at least `width` apart: no half-open interval of length `width` holds more than `limit` of them.

A limiter does not keep the log. It keeps a window, drops from its front what is `width` old
(`expire`), lazily and only when it looks, and admits an instant when fewer than `limit` are left.
`Tracks` is what such a window knows of the log, and `Tracks.room_iff` says that the test it makes is
exact: there is room in the expired window precisely if the log stays spaced with the new instant.
-/
namespace Sliding

variable {τ : Type*} [LinearOrder τ] [Add τ] {limit : ℕ} {width now later t : τ} {log window : List τ}

/-- Entries `limit` places apart are at least `width` apart. -/
def Spaced (limit : ℕ) (width : τ) (log : List τ) : Prop :=
  ∀ k a b, log[k]? = some a → log[k + limit]? = some b → a + width ≤ b

/-- Drops from the front what is at least `width` old. -/
def expire (width now : τ) (window : List τ) : List τ :=
  window.dropWhile fun t => decide (t + width ≤ now)

/-- The window is the log without a front part, and all of that part is `width` old by now. -/
def Tracks (width now : τ) (window log : List τ) : Prop :=
  ∃ old, log = old ++ window ∧ ∀ t ∈ old, t + width ≤ now

/-! ## Spacing -/

theorem spaced_nil : Spaced limit width ([] : List τ) := fun _ _ _ h => by simp at h

/-- One more instant keeps the log spaced if the entry `limit` places before it is old enough. -/
theorem spaced_concat (hlimit : 0 < limit) :
    Spaced limit width (log ++ [t]) ↔
      Spaced limit width log ∧ ∀ k a, k + limit = log.length → log[k]? = some a → a + width ≤ t := by
  constructor
  · intro h
    refine ⟨fun k a b ha hb => ?_, fun k a hk ha => ?_⟩
    · have hka := (List.getElem?_eq_some_iff.mp ha).1
      have hkb := (List.getElem?_eq_some_iff.mp hb).1
      apply h k a b
      · rw [List.getElem?_append_left hka, ha]
      · rw [List.getElem?_append_left hkb, hb]
    · have hka := (List.getElem?_eq_some_iff.mp ha).1
      apply h k a t
      · rw [List.getElem?_append_left hka, ha]
      · rw [hk, List.getElem?_concat_length]
  · rintro ⟨hlog, hnew⟩ k a b ha hb
    have hkb : k + limit < log.length + 1 := by
      simpa using (List.getElem?_eq_some_iff.mp hb).1
    have hka : k < log.length := by omega
    rw [List.getElem?_append_left hka] at ha
    by_cases hend : k + limit = log.length
    · rw [hend, List.getElem?_concat_length] at hb
      cases hb
      exact hnew k a hend ha
    · rw [List.getElem?_append_left (by omega)] at hb
      exact hlog k a b ha hb

theorem tracks_nil : Tracks width now ([] : List τ) [] := ⟨[], rfl, by simp⟩

theorem Tracks.mono (h : Tracks width now window log) (hlater : now ≤ later) :
    Tracks width later window log := by
  obtain ⟨old, rfl, hold⟩ := h
  exact ⟨old, rfl, fun t ht => (hold t ht).trans hlater⟩

theorem Tracks.push (h : Tracks width now window log) (t : τ) :
    Tracks width now (window ++ [t]) (log ++ [t]) := by
  obtain ⟨old, rfl, hold⟩ := h
  exact ⟨old, List.append_assoc .., hold⟩

theorem Tracks.expire (h : Tracks width now window log) :
    Tracks width now (expire width now window) log := by
  obtain ⟨old, rfl, hold⟩ := h
  refine ⟨old ++ window.takeWhile fun t => decide (t + width ≤ now), ?_, fun t ht => ?_⟩
  · rw [List.append_assoc, Sliding.expire, List.takeWhile_append_dropWhile]
  · rcases List.mem_append.mp ht with ht | ht
    · exact hold t ht
    · exact of_decide_eq_true (List.all_eq_true.mp List.all_takeWhile t ht)

theorem Tracks.sublist (h : Tracks width now window log) : window.Sublist log := by
  obtain ⟨old, rfl, -⟩ := h
  exact List.sublist_append_right ..

/-- In an ordered window only the front can be old, so nothing old is left after `expire`. -/
theorem young_of_mem_expire [AddRightMono τ] (hsorted : window.Pairwise (· ≤ ·)) :
    ∀ t ∈ Sliding.expire width now window, now < t + width := by
  induction window with
  | nil => intro t ht; cases ht
  | cons a window ih =>
    obtain ⟨ha, hrest⟩ := List.pairwise_cons.mp hsorted
    by_cases hold : a + width ≤ now
    · rw [Sliding.expire, List.dropWhile_cons_of_pos (by simpa using hold)]
      exact ih hrest
    · rw [Sliding.expire, List.dropWhile_cons_of_neg (by simpa using hold)]
      intro t ht
      have hat : a ≤ t := by
        rcases List.mem_cons.mp ht with rfl | ht
        · exact le_refl t
        · exact ha t ht
      exact (not_le.mp hold).trans_le (add_le_add_left hat width)

/-- The window's test is exact: there is room after `expire` precisely if the new instant fits the log. -/
theorem Tracks.room_iff [AddRightMono τ] (h : Tracks width now window log) (hlimit : 0 < limit)
    (hsorted : log.Pairwise (· ≤ ·)) (hspaced : Spaced limit width log) :
    (Sliding.expire width now window).length < limit ↔ Spaced limit width (log ++ [now]) := by
  have hyoung : ∀ t ∈ Sliding.expire width now window, now < t + width :=
    young_of_mem_expire (hsorted.sublist h.sublist)
  obtain ⟨old, hlog, hold⟩ := h.expire
  rw [spaced_concat hlimit, and_iff_right hspaced]
  have hlength := congrArg List.length hlog
  rw [List.length_append] at hlength
  constructor
  · intro hroom k a hk ha
    -- the entry `limit` places back is before the window, which is shorter than that
    rw [hlog, List.getElem?_append_left (by omega)] at ha
    exact hold a (List.mem_of_getElem? ha)
  · intro hfits
    by_contra hfull
    -- else that entry is in the window, so it is young
    obtain ⟨k, hk⟩ := Nat.exists_eq_add_of_le (not_lt.mp hfull)
    have hlt : k < (Sliding.expire width now window).length := by omega
    have ha : log[old.length + k]? = some (Sliding.expire width now window)[k] := by
      rw [hlog, List.getElem?_append_right (Nat.le_add_right ..), Nat.add_sub_cancel_left,
        List.getElem?_eq_getElem hlt]
    have hle := hfits (old.length + k) _ (by omega) ha
    exact absurd (hyoung _ (List.getElem_mem hlt)) (not_lt.mpr hle)

end Sliding
