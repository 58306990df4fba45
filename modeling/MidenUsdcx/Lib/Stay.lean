import Mathlib.Data.List.Induction
/-!
# Stays

Keys come and go in rounds. In a round the keys not kept leave, and then some arrive; a key that is
there already just stays. `Present` says that a key is there after some rounds, `Since` also from which
round on it has been there without a break. Both are said of the rounds alone, and `present_concat` and
`since_concat` are the rules for one more round.
-/
namespace Stays

structure Round (κ τ : Type*) where
  keep : κ → Prop
  arrive : κ → Prop
  time : τ

variable {κ τ : Type*} {rounds : List (Round κ τ)} {r : Round κ τ} {k : κ} {t t' : τ}

/-- The key arrived in some round and was kept in every one since. -/
def Present (rounds : List (Round κ τ)) (k : κ) : Prop :=
  ∃ before r after, rounds = before ++ r :: after ∧ r.arrive k ∧ ∀ q ∈ after, q.keep k

/-- The unbroken stay the key is in began at `t`: it arrived in a round of that time, was kept since, and did
not come into that round as a key that is kept. -/
def Since (rounds : List (Round κ τ)) (k : κ) (t : τ) : Prop :=
  ∃ before r after, rounds = before ++ r :: after ∧ r.arrive k ∧ (∀ q ∈ after, q.keep k) ∧
    ¬ (Present before k ∧ r.keep k) ∧ r.time = t

/-- A place in a list with one more entry is the last one or a place before. -/
theorem split_concat {α : Type*} {xs before after : List α} {x y : α} :
    xs ++ [x] = before ++ y :: after ↔
      (before = xs ∧ y = x ∧ after = []) ∨ ∃ rest, xs = before ++ y :: rest ∧ after = rest ++ [x] := by
  constructor
  · intro h
    rcases List.eq_nil_or_concat after with rfl | ⟨rest, z, rfl⟩
    · obtain ⟨hxs, hy⟩ := List.append_inj' h rfl
      cases hy
      exact .inl ⟨hxs.symm, rfl, rfl⟩
    · rw [List.concat_eq_append, ← List.cons_append, ← List.append_assoc] at h
      obtain ⟨hxs, hz⟩ := List.append_inj' h rfl
      cases hz
      exact .inr ⟨rest, hxs, List.concat_eq_append⟩
  · rintro (⟨rfl, rfl, rfl⟩ | ⟨rest, rfl, rfl⟩)
    · rfl
    · rw [List.append_assoc, List.cons_append]

theorem not_present_nil : ¬ Present ([] : List (Round κ τ)) k := by
  rintro ⟨before, r, after, h, -⟩
  exact absurd h.symm (by simp)

theorem not_since_nil : ¬ Since ([] : List (Round κ τ)) k t := by
  rintro ⟨before, r, after, h, -⟩
  exact absurd h.symm (by simp)

/-- A key is there after one more round if it arrives in it, or was there and is kept. -/
theorem present_concat : Present (rounds ++ [r]) k ↔ r.arrive k ∨ (Present rounds k ∧ r.keep k) := by
  constructor
  · rintro ⟨before, q, after, hsplit, harrive, hkept⟩
    rcases split_concat.mp hsplit with ⟨rfl, rfl, rfl⟩ | ⟨rest, rfl, rfl⟩
    · exact .inl harrive
    · exact .inr ⟨⟨before, q, rest, rfl, harrive, fun p hp => hkept p (List.mem_append_left _ hp)⟩,
        hkept r (List.mem_append_right _ List.mem_cons_self)⟩
  · rintro (harrive | ⟨⟨before, q, rest, rfl, harrive, hkept⟩, hkeep⟩)
    · exact ⟨rounds, r, [], rfl, harrive, fun q hq => (List.not_mem_nil hq).elim⟩
    · refine ⟨before, q, rest ++ [r], split_concat.mpr (.inr ⟨rest, rfl, rfl⟩), harrive, fun p hp => ?_⟩
      rcases List.mem_append.mp hp with hp | hp
      · exact hkept p hp
      · rw [List.mem_singleton.mp hp]
        exact hkeep

/-- A stay goes on if its key is kept; a new one begins with a key that arrives and was not there to be kept. -/
theorem since_concat :
    Since (rounds ++ [r]) k t ↔
      (Since rounds k t ∧ r.keep k) ∨ (r.arrive k ∧ ¬ (Present rounds k ∧ r.keep k) ∧ r.time = t) := by
  constructor
  · rintro ⟨before, q, after, hsplit, harrive, hkept, hnew, htime⟩
    rcases split_concat.mp hsplit with ⟨rfl, rfl, rfl⟩ | ⟨rest, rfl, rfl⟩
    · exact .inr ⟨harrive, hnew, htime⟩
    · exact .inl ⟨⟨before, q, rest, rfl, harrive, fun p hp => hkept p (List.mem_append_left _ hp), hnew, htime⟩,
        hkept r (List.mem_append_right _ List.mem_cons_self)⟩
  · rintro (⟨⟨before, q, rest, rfl, harrive, hkept, hnew, htime⟩, hkeep⟩ | ⟨harrive, hnew, htime⟩)
    · refine ⟨before, q, rest ++ [r], split_concat.mpr (.inr ⟨rest, rfl, rfl⟩), harrive, fun p hp => ?_, hnew, htime⟩
      rcases List.mem_append.mp hp with hp | hp
      · exact hkept p hp
      · rw [List.mem_singleton.mp hp]
        exact hkeep
    · exact ⟨rounds, r, [], rfl, harrive, fun q hq => (List.not_mem_nil hq).elim, hnew, htime⟩

/-- What is there has been there since some round. -/
theorem present_iff_since : Present rounds k ↔ ∃ t, Since rounds k t := by
  induction rounds using List.reverseRecOn with
  | nil => exact iff_of_false not_present_nil fun ⟨_, h⟩ => not_since_nil h
  | append_singleton rounds r ih =>
    rw [present_concat]
    constructor
    · intro h
      by_cases hstays : Present rounds k ∧ r.keep k
      · obtain ⟨t, hsince⟩ := ih.mp hstays.1
        exact ⟨t, since_concat.mpr (.inl ⟨hsince, hstays.2⟩)⟩
      · exact ⟨r.time, since_concat.mpr (.inr ⟨h.resolve_right hstays, hstays, rfl⟩)⟩
    · rintro ⟨t, hsince⟩
      rcases since_concat.mp hsince with ⟨hold, hkeep⟩ | ⟨harrive, -⟩
      · exact .inr ⟨ih.mpr ⟨t, hold⟩, hkeep⟩
      · exact .inl harrive

/-- A stay has one beginning. -/
theorem Since.unique (h : Since rounds k t) (h' : Since rounds k t') : t = t' := by
  induction rounds using List.reverseRecOn with
  | nil => exact absurd h not_since_nil
  | append_singleton rounds r ih =>
    rcases since_concat.mp h with ⟨hold, hkeep⟩ | ⟨-, hnew, rfl⟩
    · rcases since_concat.mp h' with ⟨hold', -⟩ | ⟨-, hnew', -⟩
      · exact ih hold hold'
      · exact absurd ⟨present_iff_since.mpr ⟨t, hold⟩, hkeep⟩ hnew'
    · rcases since_concat.mp h' with ⟨hold', hkeep'⟩ | ⟨-, -, rfl⟩
      · exact absurd ⟨present_iff_since.mpr ⟨t', hold'⟩, hkeep'⟩ hnew
      · rfl

/-- A stay began at the time of some round. -/
theorem Since.mem_times (h : Since rounds k t) : t ∈ rounds.map (·.time) := by
  obtain ⟨before, r, after, rfl, -, -, -, rfl⟩ := h
  exact List.mem_map_of_mem (List.mem_append_right _ List.mem_cons_self)

end Stays
