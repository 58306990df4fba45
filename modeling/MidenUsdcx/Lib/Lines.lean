import Mathlib.Algebra.GroupWithZero.Nat
/-!
# Lines, words and numbers of a text

`lines` takes a text apart at its line ends and `firstWord` gives the first word of a line. A text that was written line
by line is read back line by line (`lines_text`), whatever follows the first word of a line is not looked at
(`firstWord_append`), and the words of a text have no space in them (`of_mem_words`). `decimalValue` reads digits as a number.
-/
namespace Lines

/-- `char::is_whitespace`: the Unicode property `White_Space`. -/
def isWhitespace (c : Char) : Bool :=
  let n := c.toNat
  (9 ≤ n && n ≤ 13) || n == 0x20 || n == 0x85 || n == 0xA0 || n == 0x1680 || (0x2000 ≤ n && n ≤ 0x200A) ||
    n == 0x2028 || n == 0x2029 || n == 0x202F || n == 0x205F || n == 0x3000

/-- The number that decimal digits spell, the first of them the highest. -/
def decimalValue (digits : List Char) : Nat := digits.foldl (fun n c => 10 * n + (c.toNat - 48)) 0

/-- The lines of a text, without the line feed, or carriage return and line feed, that ends each. -/
def lines : List Char → List (List Char)
  | [] => []
  | c :: rest =>
    if c = '\n' then [] :: lines rest
    else if c = '\r' ∧ rest.head? = some '\n' then lines rest
    else match lines rest with
      | [] => [[c]]
      | line :: more => (c :: line) :: more

theorem lines_append {line : List Char} (hline : '\n' ∉ line ∧ '\r' ∉ line) (rest : List Char) :
    lines (line ++ '\n' :: rest) = line :: lines rest := by
  induction line with
  | nil => simp [lines]
  | cons c line ih =>
    have hc : c ≠ '\n' ∧ c ≠ '\r' := ⟨fun e => hline.1 (e ▸ List.mem_cons_self), fun e => hline.2 (e ▸ List.mem_cons_self)⟩
    have hrest := ih ⟨fun h => hline.1 (List.mem_cons_of_mem _ h), fun h => hline.2 (List.mem_cons_of_mem _ h)⟩
    simp only [List.cons_append, lines, hc.1, hc.2, false_and, if_false, hrest]

/-- What is written line by line is read back line by line. -/
theorem lines_text {written : List (List Char)} (h : ∀ line ∈ written, '\n' ∉ line ∧ '\r' ∉ line) :
    lines (written.flatMap (· ++ ['\n'])) = written := by
  induction written with
  | nil => rfl
  | cons line written ih =>
    simp only [List.flatMap_cons, List.append_assoc, List.singleton_append]
    rw [lines_append (h line List.mem_cons_self), ih fun l hl => h l (List.mem_cons_of_mem _ hl)]

section
variable {α : Type} (space : α → Bool)

/-- The first run without a space. -/
def firstWord (text : List α) : Option (List α) :=
  let word := (text.dropWhile space).takeWhile fun c => !space c
  if word.isEmpty then none else some word

/-- The runs between the spaces, the empty ones left out. -/
def words (text : List α) : List (List α) := (text.splitOnP space).filter fun word => !word.isEmpty

variable {space}

theorem firstWord_append {word : List α} {c : α} (hsome : word ≠ []) (hword : ∀ x ∈ word, space x = false)
    (hc : space c = true) (rest : List α) : firstWord space (word ++ c :: rest) = some word := by
  have htake : (word ++ c :: rest).takeWhile (fun x => !space x) = word := by
    rw [List.takeWhile_append_of_pos fun x hx => by rw [hword x hx]; rfl]
    simp [hc]
  have hdrop : (word ++ c :: rest).dropWhile space = word ++ c :: rest := by
    cases word with
    | nil => exact absurd rfl hsome
    | cons x word => rw [List.cons_append, List.dropWhile_cons_of_neg (by simp [hword x List.mem_cons_self])]
  simp only [firstWord, hdrop, htake, List.isEmpty_iff, hsome, if_false]

theorem of_mem_splitOnP {text word : List α} (h : word ∈ text.splitOnP space) : ∀ x ∈ word, space x = false := by
  induction text generalizing word with
  | nil =>
    obtain rfl : word = [] := by simpa using h
    exact fun x hx => by cases hx
  | cons c text ih =>
    rw [List.splitOnP_cons_eq_if_modifyHead] at h
    split at h
    · rcases List.mem_cons.1 h with rfl | h
      · exact fun x hx => by cases hx
      · exact ih h
    · rename_i hc
      cases hsplit : text.splitOnP space with
      | nil => rw [hsplit] at h; cases h
      | cons first more =>
        rw [hsplit] at h
        rcases List.mem_cons.1 h with rfl | h
        · intro x hx
          rcases List.mem_cons.1 hx with rfl | hx
          · exact Bool.eq_false_iff.2 hc
          · exact ih (by rw [hsplit]; exact List.mem_cons_self) x hx
        · exact ih (by rw [hsplit]; exact List.mem_cons_of_mem _ h)

theorem of_mem_words {text word : List α} (h : word ∈ words space text) : ∀ x ∈ word, space x = false :=
  of_mem_splitOnP (List.mem_filter.1 h).1

/-- Joined words have no other space than what joins them. -/
theorem of_mem_intercalate {sep x : α} {text : List α} (h : x ∈ [sep].intercalate (words space text)) :
    x = sep ∨ space x = false := by
  have hall : ∀ {ws : List (List α)}, (∀ word ∈ ws, ∀ y ∈ word, space y = false) → x ∈ [sep].intercalate ws →
      x = sep ∨ space x = false := by
    intro ws hws hx
    induction ws with
    | nil => cases hx
    | cons word ws ih =>
      have hword := hws word List.mem_cons_self
      have hrest := ih fun w hw => hws w (List.mem_cons_of_mem _ hw)
      by_cases hnil : ws = []
      · subst hnil
        rw [List.intercalate_singleton] at hx
        exact .inr (hword x hx)
      · rw [List.intercalate_cons_of_ne_nil hnil] at hx
        simp only [List.mem_append, List.mem_singleton] at hx
        rcases hx with (hx | hx) | hx
        · exact .inr (hword x hx)
        · exact .inl hx
        · exact hrest hx
  exact hall (fun _ => of_mem_words) h

/-- What the pieces and the separators between them come to, and one more. -/
def spread (pieces : List (List α)) : Nat := (pieces.map List.length).sum + pieces.length

theorem spread_cons (piece : List α) (pieces : List (List α)) :
    spread (piece :: pieces) = piece.length + 1 + spread pieces := by
  simp only [spread, List.map_cons, List.sum_cons, List.length_cons]
  omega

theorem spread_splitOnP (text : List α) : spread (text.splitOnP space) = text.length + 1 := by
  induction text with
  | nil => rfl
  | cons c text ih =>
    rw [List.splitOnP_cons_eq_if_modifyHead]
    split
    · rw [spread_cons, ih, List.length_nil, List.length_cons]
      omega
    · cases hpieces : text.splitOnP space with
      | nil => exact absurd hpieces (List.splitOnP_ne_nil space text)
      | cons piece pieces =>
        rw [hpieces, spread_cons] at ih
        rw [List.modifyHead_cons, spread_cons, List.length_cons, List.length_cons]
        omega

theorem spread_filter (p : List α → Bool) (pieces : List (List α)) : spread (pieces.filter p) ≤ spread pieces := by
  induction pieces with
  | nil => exact Nat.le_refl _
  | cons piece pieces ih =>
    rw [List.filter_cons, spread_cons]
    split
    · rw [spread_cons]
      omega
    · omega

theorem length_intercalate (separator : α) (pieces : List (List α)) :
    ([separator].intercalate pieces).length ≤ spread pieces - 1 := by
  induction pieces with
  | nil => exact Nat.le_refl _
  | cons piece pieces ih =>
    cases pieces with
    | nil => simp [spread]
    | cons second rest =>
      rw [List.intercalate_cons_cons, List.length_append, List.length_append, spread_cons]
      rw [spread_cons] at ih ⊢
      simp only [List.length_singleton]
      omega

/-- The words of a text joined by one separator are no longer than the text. -/
theorem length_join_words (separator : α) (text : List α) :
    ([separator].intercalate (words space text)).length ≤ text.length := by
  have hjoin := length_intercalate separator (words space text)
  have hfilter := spread_filter (fun word => !word.isEmpty) (text.splitOnP space)
  have hsplit : spread (text.splitOnP space) = text.length + 1 := spread_splitOnP text
  rw [words] at hjoin ⊢
  omega
end

end Lines
