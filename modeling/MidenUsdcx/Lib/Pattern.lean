import Mathlib.Computability.Language
/-!
# Patterns of texts

Regular expressions as the documentation of a format writes them, as languages: a character class, one or more
of it, between some numbers of it, a literal text. What is done with them is to say when a text over a class
followed by other things matches.
-/
namespace Pattern
variable {p : Char → Bool} {w : List Char} {L : Language Char}

/-- `[...]`. -/
def oneOf (p : Char → Bool) : Language Char := {w | ∃ c, p c = true ∧ w = [c]}

/-- A text as it stands. -/
def lit (text : List Char) : Language Char := {w | w = text}

/-- `L*`. -/
def star (L : Language Char) : Language Char := KStar.kstar L

/-- `L+`. -/
def plus (L : Language Char) : Language Char := L * star L

/-- `L?`. -/
def opt (L : Language Char) : Language Char := 1 + L

/-- `L{lo,hi}`. -/
def between (lo hi : ℕ) (L : Language Char) : Language Char := {w | ∃ n, lo ≤ n ∧ n ≤ hi ∧ w ∈ L ^ n}

theorem mem_lit_mul {text : List Char} : w ∈ lit text * L ↔ ∃ v, w = text ++ v ∧ v ∈ L := by
  rw [Language.mem_mul]
  constructor
  · rintro ⟨_, rfl, v, hv, rfl⟩
    exact ⟨v, rfl, hv⟩
  · rintro ⟨v, rfl, hv⟩
    exact ⟨text, rfl, v, hv, rfl⟩

theorem mem_opt : w ∈ opt L ↔ w = [] ∨ w ∈ L := by
  rw [opt, Language.mem_add, Language.mem_one]

theorem mem_pow_oneOf {n : ℕ} : w ∈ oneOf p ^ n ↔ w.length = n ∧ w.all p = true := by
  induction n generalizing w with
  | zero =>
    rw [pow_zero, Language.mem_one, List.length_eq_zero_iff]
    exact ⟨fun h => ⟨h, by rw [h]; rfl⟩, fun h => h.1⟩
  | succ n ih =>
    rw [pow_succ', Language.mem_mul]
    constructor
    · rintro ⟨_, ⟨c, hc, rfl⟩, v, hv, rfl⟩
      obtain ⟨hlength, hall⟩ := ih.mp hv
      exact ⟨congrArg Nat.succ hlength, by simp [hc, hall]⟩
    · rintro ⟨hlength, hall⟩
      obtain ⟨c, v, rfl⟩ := List.exists_cons_of_length_eq_add_one hlength
      rw [List.all_cons, Bool.and_eq_true] at hall
      exact ⟨[c], ⟨c, hall.1, rfl⟩, v, ih.mpr ⟨Nat.succ.inj hlength, hall.2⟩, rfl⟩

theorem mem_star_oneOf : w ∈ star (oneOf p) ↔ w.all p = true := by
  rw [star, Language.kstar_eq_iSup_pow, Language.mem_iSup]
  simp only [mem_pow_oneOf]
  exact ⟨fun ⟨_, h⟩ => h.2, fun h => ⟨_, rfl, h⟩⟩

theorem mem_plus_oneOf : w ∈ plus (oneOf p) ↔ w ≠ [] ∧ w.all p = true := by
  rw [plus, Language.mem_mul]
  constructor
  · rintro ⟨_, ⟨c, hc, rfl⟩, v, hv, rfl⟩
    exact ⟨List.cons_ne_nil c v, by simp [hc, mem_star_oneOf.mp hv]⟩
  · rintro ⟨hsome, hall⟩
    obtain ⟨c, v, rfl⟩ := List.exists_cons_of_ne_nil hsome
    rw [List.all_cons, Bool.and_eq_true] at hall
    exact ⟨[c], ⟨c, hall.1, rfl⟩, v, mem_star_oneOf.mpr hall.2, rfl⟩

theorem mem_between_oneOf {lo hi : ℕ} :
    w ∈ between lo hi (oneOf p) ↔ lo ≤ w.length ∧ w.length ≤ hi ∧ w.all p = true := by
  constructor
  · rintro ⟨n, hlo, hhi, hw⟩
    obtain ⟨rfl, hall⟩ := mem_pow_oneOf.mp hw
    exact ⟨hlo, hhi, hall⟩
  · rintro ⟨hlo, hhi, hall⟩
    exact ⟨w.length, hlo, hhi, mem_pow_oneOf.mpr ⟨rfl, hall⟩⟩

end Pattern
