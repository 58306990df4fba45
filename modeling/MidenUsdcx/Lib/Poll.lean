/-!
# Loops that poll

A loop with a memory of its own reads one observation after another until one makes it stop. `poll` is the loop over the
observations made so far: it has no result while it still waits. `Ends` says which observation stops which history, with
which result, and knows nothing of the memory. `Follows` relates the two one turn at a time, and from it the loop returns
exactly at the first observation that ends its history (`Follows.poll_eq_some`, `Follows.poll_eq_none`).

`trailing` counts how many observations in a row, up to the last, pass a test: what a counter that is reset holds.
-/
namespace Poll

variable {ι σ ρ : Type}

/-- One turn goes on with a new memory or stops with a result. -/
def poll (turn : σ → ι → σ ⊕ ρ) : σ → List ι → Option ρ
  | _, [] => none
  | s, x :: later =>
    match turn s x with
    | .inl s' => poll turn s' later
    | .inr r => some r

theorem poll_cons_inl {turn : σ → ι → σ ⊕ ρ} {s s' : σ} {x : ι} (h : turn s x = .inl s') (later : List ι) :
    poll turn s (x :: later) = poll turn s' later := by
  simp only [poll, h]

theorem poll_cons_inr {turn : σ → ι → σ ⊕ ρ} {s : σ} {x : ι} {r : ρ} (h : turn s x = .inr r) (later : List ι) :
    poll turn s (x :: later) = some r := by
  simp only [poll, h]

/-! ## The first observation that ends a history -/

/-- After some history one observation ends it with `r`, and none before it ended its own. -/
def First (ends : List ι → ι → ρ → Prop) (seen : List ι) (r : ρ) : Prop :=
  ∃ before x later, seen = before ++ x :: later ∧ ends before x r ∧
    ∀ earlier y rest, before = earlier ++ y :: rest → ∀ r', ¬ ends earlier y r'

/-- No observation has ended the history before it. -/
def Never (ends : List ι → ι → ρ → Prop) (seen : List ι) : Prop :=
  ∀ before x later, seen = before ++ x :: later → ∀ r, ¬ ends before x r

/-- The histories after the first observation of one that does not end. -/
def after (ends : List ι → ι → ρ → Prop) (x : ι) : List ι → ι → ρ → Prop := fun before => ends (x :: before)

theorem first_cons_of_ends {ends : List ι → ι → ρ → Prop} {x : ι} {r : ρ} (h : ∀ r', ends [] x r' ↔ r' = r)
    (later : List ι) (r' : ρ) : First ends (x :: later) r' ↔ r' = r := by
  constructor
  · rintro ⟨before, y, rest, hsplit, hends, hfirst⟩
    cases before with
    | nil =>
      obtain ⟨rfl, -⟩ := List.cons.inj hsplit
      exact (h r').1 hends
    | cons z before =>
      obtain ⟨rfl, -⟩ := List.cons.inj hsplit
      exact absurd ((h r).2 rfl) (hfirst [] x before rfl r)
  · rintro rfl
    exact ⟨[], x, later, rfl, (h r').2 rfl, fun earlier y rest he => absurd he.symm (by simp)⟩

theorem first_cons_of_waits {ends : List ι → ι → ρ → Prop} {x : ι} (h : ∀ r, ¬ ends [] x r) (later : List ι) (r : ρ) :
    First ends (x :: later) r ↔ First (after ends x) later r := by
  constructor
  · rintro ⟨before, y, rest, hsplit, hends, hfirst⟩
    cases before with
    | nil =>
      obtain ⟨rfl, -⟩ := List.cons.inj hsplit
      exact absurd hends (h r)
    | cons z before =>
      obtain ⟨rfl, rfl⟩ := List.cons.inj hsplit
      exact ⟨before, y, rest, rfl, hends, fun earlier w more he => hfirst (x :: earlier) w more (by rw [he]; rfl)⟩
  · rintro ⟨before, y, rest, rfl, hends, hfirst⟩
    refine ⟨x :: before, y, rest, rfl, hends, fun earlier w more he => ?_⟩
    cases earlier with
    | nil =>
      obtain ⟨rfl, -⟩ := List.cons.inj he
      exact h
    | cons z earlier =>
      obtain ⟨rfl, rfl⟩ := List.cons.inj he
      exact hfirst earlier w more rfl

theorem never_cons_of_waits {ends : List ι → ι → ρ → Prop} {x : ι} (h : ∀ r, ¬ ends [] x r) (later : List ι) :
    Never ends (x :: later) ↔ Never (after ends x) later := by
  constructor
  · intro hnever before y rest hsplit
    exact hnever (x :: before) y rest (by rw [hsplit]; rfl)
  · intro hnever before y rest hsplit
    cases before with
    | nil =>
      obtain ⟨rfl, -⟩ := List.cons.inj hsplit
      exact h
    | cons z before =>
      obtain ⟨rfl, rfl⟩ := List.cons.inj hsplit
      exact hnever before y rest rfl

/-! ## A loop that follows a specification -/

/-- The memory is `memory` of the history, and a turn stops where the history ends. -/
structure Follows (turn : σ → ι → σ ⊕ ρ) (memory : List ι → σ) (ends : List ι → ι → ρ → Prop) : Prop where
  waits : ∀ before x s, turn (memory before) x = .inl s → memory (before ++ [x]) = s ∧ ∀ r, ¬ ends before x r
  stops : ∀ before x r, turn (memory before) x = .inr r → ∀ r', ends before x r' ↔ r' = r

variable {turn : σ → ι → σ ⊕ ρ}

theorem Follows.of_cases {memory : List ι → σ} {ends : List ι → ι → ρ → Prop}
    (h : ∀ before x,
      (turn (memory before) x = .inl (memory (before ++ [x])) ∧ ∀ r, ¬ ends before x r) ∨
        ∃ r, turn (memory before) x = .inr r ∧ ∀ r', ends before x r' ↔ r' = r) : Follows turn memory ends := by
  refine ⟨fun before x s hs => ?_, fun before x r hr => ?_⟩
  · rcases h before x with ⟨hturn, hwaits⟩ | ⟨r, hturn, -⟩
    · exact ⟨Sum.inl.inj (hturn.symm.trans hs), hwaits⟩
    · cases hturn.symm.trans hs
  · rcases h before x with ⟨hturn, -⟩ | ⟨r₀, hturn, hends⟩
    · cases hturn.symm.trans hr
    · rwa [Sum.inr.inj (hturn.symm.trans hr)] at hends

/-- What follows a specification follows it from any history on. -/
theorem Follows.from_ {memory : List ι → σ} {ends : List ι → ι → ρ → Prop} (h : Follows turn memory ends) (x : ι) :
    Follows turn (fun before => memory (x :: before)) (after ends x) :=
  ⟨fun before => h.waits (x :: before), fun before => h.stops (x :: before)⟩

/-- The loop returns what ends the history first. -/
theorem Follows.poll_eq_some {memory : List ι → σ} {ends : List ι → ι → ρ → Prop} (h : Follows turn memory ends)
    (seen : List ι) (r : ρ) : poll turn (memory []) seen = some r ↔ First ends seen r := by
  induction seen generalizing memory ends with
  | nil =>
    refine ⟨fun hp => (by cases hp), ?_⟩
    rintro ⟨before, x, later, hsplit, -⟩
    simp at hsplit
  | cons x later ih =>
    cases hturn : turn (memory []) x with
    | inl s =>
      obtain ⟨hmemory, hwaits⟩ := h.waits [] x s hturn
      rw [poll_cons_inl hturn, first_cons_of_waits hwaits, ← hmemory]
      exact ih (h.from_ x)
    | inr r₀ =>
      rw [poll_cons_inr hturn, first_cons_of_ends (h.stops [] x r₀ hturn), Option.some.injEq]
      exact eq_comm

/-- The loop still waits as long as nothing has ended the history. -/
theorem Follows.poll_eq_none {memory : List ι → σ} {ends : List ι → ι → ρ → Prop} (h : Follows turn memory ends)
    (seen : List ι) : poll turn (memory []) seen = none ↔ Never ends seen := by
  induction seen generalizing memory ends with
  | nil =>
    refine ⟨fun _ before x later hsplit => ?_, fun _ => rfl⟩
    simp at hsplit
  | cons x later ih =>
    cases hturn : turn (memory []) x with
    | inl s =>
      obtain ⟨hmemory, hwaits⟩ := h.waits [] x s hturn
      rw [poll_cons_inl hturn, never_cons_of_waits hwaits, ← hmemory]
      exact ih (h.from_ x)
    | inr r =>
      rw [poll_cons_inr hturn]
      exact ⟨fun hp => (by cases hp), fun hnever => absurd ((h.stops [] x r hturn r).2 rfl) (hnever [] x later rfl r)⟩

/-! ## How many in a row -/

/-- How many of the last observations pass the test, none between them failing it. -/
def trailing (test : ι → Bool) (seen : List ι) : Nat := (seen.reverse.takeWhile test).length

@[simp] theorem trailing_nil (test : ι → Bool) : trailing test [] = 0 := rfl

theorem trailing_concat (test : ι → Bool) (seen : List ι) (x : ι) :
    trailing test (seen ++ [x]) = if test x then trailing test seen + 1 else 0 := by
  simp only [trailing, List.reverse_append, List.reverse_cons, List.reverse_nil, List.nil_append, List.singleton_append,
    List.takeWhile_cons]
  split <;> rfl

/-- At least two in a row: the history ends in two that pass. -/
theorem two_le_trailing {test : ι → Bool} {seen : List ι} :
    2 ≤ trailing test seen ↔ ∃ before a b, seen = before ++ [a, b] ∧ test a = true ∧ test b = true := by
  constructor
  · intro h
    rcases List.eq_nil_or_concat seen with rfl | ⟨front, b, rfl⟩
    · simp at h
    rw [List.concat_eq_append, trailing_concat] at h
    by_cases hb : test b = true
    · rw [if_pos hb] at h
      rcases List.eq_nil_or_concat front with rfl | ⟨before, a, rfl⟩
      · simp at h
      rw [List.concat_eq_append, trailing_concat] at h
      by_cases ha : test a = true
      · exact ⟨before, a, b, by simp, ha, hb⟩
      · simp [ha] at h
    · simp [hb] at h
  · rintro ⟨before, a, b, rfl, ha, hb⟩
    have hsplit : before ++ [a, b] = (before ++ [a]) ++ [b] := by simp
    rw [hsplit, trailing_concat, trailing_concat, if_pos ha, if_pos hb]
    omega

end Poll
