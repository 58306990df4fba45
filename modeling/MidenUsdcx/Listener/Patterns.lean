import MidenUsdcx.Listener.Wire
import MidenUsdcx.Lib.Pattern
import Mathlib.Data.List.TakeWhile
/-!
# The documented patterns (`circle/wire.rs:45-68,216-304`)

Each scalar of the wire is documented with a regular expression, and checked by hand there (`Wire`). The two
agree on every text: `…_iff` says so for each.
-/
namespace WithdrawalListener
open Pattern

/-- `[a-fA-F0-9]`. -/
def hexDigit : Language Char := oneOf isAsciiHexdigit

/-- `\d`. -/
def digit : Language Char := oneOf isAsciiDigit

/-- `0x`. -/
def zeroX : Language Char := lit ['0', 'x']

/-- `^0x[a-fA-F0-9]{n}$`. -/
def hexPattern (n : Nat) : Language Char := zeroX * hexDigit ^ n

/-- `^0x[a-fA-F0-9]*$`. -/
def hexBytesPattern : Language Char := zeroX * star hexDigit

/-- `^0x[a-fA-F0-9]+$`. -/
def hexTxIdPattern : Language Char := zeroX * plus hexDigit

/-- `^0x([a-fA-F0-9]{8}[a-fA-F0-9]*)?$`. -/
def calldataPattern : Language Char := zeroX * opt (hexDigit ^ 8 * star hexDigit)

/-- `^\d+$`. -/
def decimalUintPattern : Language Char := plus digit

/-- `^\d+(\.\d+)?$`. -/
def decimalAmountPattern : Language Char := plus digit * opt (lit ['.'] * plus digit)

/-- `^\d+(\.\d{1,6})?$`. -/
def forwardingFeePattern : Language Char := plus digit * opt (lit ['.'] * between 1 6 digit)

/-- Groups of hexadecimal digits of these lengths, with dashes between. -/
def dashed (n : Nat) : List Nat → Language Char
  | [] => hexDigit ^ n
  | m :: ms => hexDigit ^ n * (lit ['-'] * dashed m ms)

/-- A uuid: `8-4-4-4-12` hexadecimal digits. -/
def uuidPattern : Language Char := dashed 8 [4, 4, 4, 12]

/-- A text matches `0x` and something exactly when that is what is left without the `0x`. -/
theorem mem_zeroX_mul {value : String} {L : Language Char} :
    value.toList ∈ zeroX * L ↔ ∃ body, strip0x value = some body ∧ body ∈ L := by
  simp only [strip0x_eq_some]
  exact mem_lit_mul

theorem hex_iff (n : Nat) (value : String) : hexBodyOfLen n value = true ↔ value.toList ∈ hexPattern n := by
  rw [hexPattern, mem_zeroX_mul, hexBodyOfLen]
  cases strip0x value with
  | none => simp
  | some body => simp [hexDigit, mem_pow_oneOf]

theorem hexBytes_iff (value : String) : isHex value = true ↔ value.toList ∈ hexBytesPattern := by
  rw [hexBytesPattern, mem_zeroX_mul, isHex]
  cases strip0x value with
  | none => simp
  | some body => simp [hexDigit, mem_star_oneOf]

theorem hexTxId_iff (value : String) :
    (isHex value && decide (2 < value.length)) = true ↔ value.toList ∈ hexTxIdPattern := by
  rw [hexTxIdPattern, mem_zeroX_mul, isHex, ← String.length_toList]
  cases hstrip : strip0x value with
  | none => simp
  | some body =>
    rw [strip0x_eq_some.mp hstrip]
    simp [hexDigit, mem_plus_oneOf, and_comm, List.length_pos_iff]

theorem calldata_iff (value : String) : isCalldata value = true ↔ value.toList ∈ calldataPattern := by
  rw [calldataPattern, mem_zeroX_mul, isCalldata]
  cases strip0x value with
  | none => simp
  | some body =>
    simp only [Option.some.injEq, exists_eq_left', mem_opt, Language.mem_mul, hexDigit, mem_pow_oneOf, mem_star_oneOf]
    cases body with
    | nil => simp
    | cons c rest =>
      constructor
      · intro h
        obtain ⟨hlength, hall⟩ := (Bool.and_eq_true _ _).mp h
        have hparts := List.take_append_drop 8 (c :: rest)
        refine .inr ⟨(c :: rest).take 8, ⟨?_, ?_⟩, (c :: rest).drop 8, ?_, hparts⟩
        · rw [List.length_take]
          exact Nat.min_eq_left (of_decide_eq_true hlength)
        · exact List.all_eq_true.mpr fun x hx => List.all_eq_true.mp hall x (List.mem_of_mem_take hx)
        · exact List.all_eq_true.mpr fun x hx => List.all_eq_true.mp hall x (List.mem_of_mem_drop hx)
      · rintro (h | ⟨a, ⟨hlength, ha⟩, b, hb, hab⟩)
        · cases h
        · have hlong : 8 ≤ (c :: rest).length := by
            rw [← hab, List.length_append]
            omega
          have hall : (c :: rest).all isAsciiHexdigit = true := by
            rw [← hab, List.all_append, ha, hb]
            rfl
          exact (Bool.and_eq_true _ _).mpr ⟨decide_eq_true hlong, hall⟩

theorem decimalDigits_iff (value : List Char) : isDecimalDigits value = true ↔ value ∈ plus digit := by
  rw [digit, mem_plus_oneOf, isDecimalDigits, Bool.and_eq_true, Bool.not_eq_true', List.isEmpty_eq_false_iff]

theorem decimalUint_iff (value : String) : isDecimalDigits value.toList = true ↔ value.toList ∈ decimalUintPattern :=
  decimalDigits_iff value.toList

theorem ne_of_isAsciiDigit {c : Char} (h : isAsciiDigit c = true) : (c != '.') = true := by
  rw [bne_iff_ne]
  rintro rfl
  exact absurd h (by decide)

theorem no_point {value : List Char} (h : isDecimalDigits value = true) : ∀ c ∈ value, (c != '.') = true := fun c hc =>
  ne_of_isAsciiDigit (List.all_eq_true.mp (Bool.and_eq_true _ _ |>.mp h).2 c hc)

/-- A decimal amount is digits, or digits, a point and digits of an admitted number. -/
theorem decimalAmount_cases (maxPlaces : Option Nat) (value : String) :
    isDecimalAmount maxPlaces value = true ↔ isDecimalDigits value.toList = true ∨
      ∃ whole frac, value.toList = whole ++ '.' :: frac ∧ isDecimalDigits whole = true ∧
        isDecimalDigits frac = true ∧ maxPlaces.all (frac.length ≤ ·) = true := by
  rw [isDecimalAmount, List.span_eq_takeWhile_dropWhile]
  have hparts := List.takeWhile_append_dropWhile (p := (· != '.')) (l := value.toList)
  constructor
  · intro h
    cases hdrop : value.toList.dropWhile (· != '.') with
    | nil =>
      rw [hdrop] at h hparts
      rw [List.append_nil] at hparts
      exact .inl (hparts ▸ h)
    | cons c frac =>
      rw [hdrop] at h hparts
      simp only [Bool.and_eq_true] at h
      have hpoint : c = '.' := by
        have hhead := List.head?_dropWhile_not (· != '.') value.toList
        rw [hdrop] at hhead
        simpa using hhead
      subst hpoint
      exact .inr ⟨_, frac, hparts.symm, h.1.1, h.1.2, h.2⟩
  · rintro (h | ⟨whole, frac, hvalue, hwhole, hfrac, hplaces⟩)
    · rw [List.dropWhile_eq_nil_iff.mpr (no_point h), List.takeWhile_eq_self_iff.mpr (no_point h)]
      exact h
    · rw [hvalue, List.takeWhile_append_of_pos (no_point hwhole), List.dropWhile_append_of_pos (no_point hwhole)]
      simp [hwhole, hfrac, hplaces]

/-- The same of a pattern for what follows the point. -/
theorem mem_amount {F : Language Char} {w : List Char} :
    w ∈ plus digit * opt (lit ['.'] * F) ↔ isDecimalDigits w = true ∨
      ∃ whole frac, w = whole ++ '.' :: frac ∧ isDecimalDigits whole = true ∧ frac ∈ F := by
  rw [Language.mem_mul]
  constructor
  · rintro ⟨whole, hwhole, rest, hrest, rfl⟩
    rcases mem_opt.mp hrest with rfl | hrest
    · rw [List.append_nil]
      exact .inl ((decimalDigits_iff whole).mpr hwhole)
    · obtain ⟨frac, rfl, hfrac⟩ := mem_lit_mul.mp hrest
      exact .inr ⟨whole, frac, rfl, (decimalDigits_iff whole).mpr hwhole, hfrac⟩
  · rintro (h | ⟨whole, frac, rfl, hwhole, hfrac⟩)
    · exact ⟨w, (decimalDigits_iff w).mp h, [], mem_opt.mpr (.inl rfl), List.append_nil w⟩
    · exact ⟨whole, (decimalDigits_iff whole).mp hwhole, '.' :: frac,
        mem_opt.mpr (.inr (mem_lit_mul.mpr ⟨frac, rfl, hfrac⟩)), rfl⟩

theorem decimalAmount_iff (value : String) :
    isDecimalAmount none value = true ↔ value.toList ∈ decimalAmountPattern := by
  rw [decimalAmountPattern, mem_amount, decimalAmount_cases]
  simp only [Option.all_none, and_true, decimalDigits_iff]

theorem forwardingFee_iff (value : String) :
    isDecimalAmount (some 6) value = true ↔ value.toList ∈ forwardingFeePattern := by
  rw [forwardingFeePattern, mem_amount, decimalAmount_cases]
  have hplaces : ∀ frac : List Char, (isDecimalDigits frac = true ∧ (some 6).all (frac.length ≤ ·) = true) ↔
      frac ∈ between 1 6 digit := by
    intro frac
    rw [decimalDigits_iff, digit, mem_plus_oneOf, mem_between_oneOf, Option.all_some, decide_eq_true_iff,
      ← List.length_pos_iff]
    exact ⟨fun h => ⟨h.1.1, h.2, h.1.2⟩, fun h => ⟨⟨h.1, h.2.2⟩, h.2.1⟩⟩
  simp only [hplaces]

theorem no_dash {group : List Char} (h : group.all isAsciiHexdigit = true) : '-' ∉ group := fun hdash =>
  absurd (List.all_eq_true.mp h '-' hdash) (by decide)

/-- The groups of a text between its dashes have these lengths and are hexadecimal. -/
theorem mem_dashed {n : Nat} {ms : List Nat} {w : List Char} :
    w ∈ dashed n ms ↔ (w.splitOn '-').map List.length = n :: ms ∧
      ∀ group ∈ w.splitOn '-', group.all isAsciiHexdigit = true := by
  induction ms generalizing n w with
  | nil =>
    rw [dashed, hexDigit, mem_pow_oneOf]
    constructor
    · rintro ⟨hlength, hall⟩
      rw [List.splitOn_eq_singleton (no_dash hall)]
      exact ⟨congrArg (fun l => [l]) hlength, fun group hgroup => by rw [List.mem_singleton.mp hgroup]; exact hall⟩
    · rintro ⟨hlengths, hall⟩
      obtain ⟨group, hsplit, hlength⟩ := List.map_eq_singleton_iff.mp hlengths
      have hw : ['-'].intercalate (w.splitOn '-') = w := List.intercalate_splitOn '-'
      rw [hsplit, List.intercalate_singleton] at hw
      rw [← hw]
      exact ⟨hlength, hall group (hsplit ▸ List.mem_singleton_self group)⟩
  | cons m ms ih =>
    rw [dashed, Language.mem_mul]
    constructor
    · rintro ⟨group, hgroup, rest, hrest, rfl⟩
      obtain ⟨hlength, hall⟩ := mem_pow_oneOf.mp hgroup
      obtain ⟨v, rfl, hv⟩ := mem_lit_mul.mp hrest
      obtain ⟨hlengths, hgroups⟩ := ih.mp hv
      have hsplit : (group ++ '-' :: v).splitOn '-' = group :: v.splitOn '-' :=
        List.splitOn_append_cons_self_of_not_mem (no_dash hall) v
      rw [List.singleton_append, hsplit]
      refine ⟨by rw [List.map_cons, hlength, hlengths], fun g hg => ?_⟩
      rcases List.mem_cons.mp hg with rfl | hg
      · exact hall
      · exact hgroups g hg
    · rintro ⟨hlengths, hall⟩
      obtain ⟨group, more, hsplit, hlength, hmore⟩ := List.map_eq_cons_iff.mp hlengths
      have hsome : more ≠ [] := by
        rintro rfl
        cases hmore
      have hw : ['-'].intercalate (w.splitOn '-') = w := List.intercalate_splitOn '-'
      rw [hsplit, List.intercalate_cons_of_ne_nil hsome, List.append_assoc] at hw
      rw [hsplit] at hall
      have hdashes : ∀ g ∈ more, '-' ∉ g := fun g hg => no_dash (hall g (List.mem_cons_of_mem group hg))
      refine ⟨group, mem_pow_oneOf.mpr ⟨hlength, hall group List.mem_cons_self⟩, _, ?_, hw⟩
      refine mem_lit_mul.mpr ⟨_, rfl, ih.mpr ?_⟩
      rw [List.splitOn_intercalate '-' hdashes hsome]
      exact ⟨hmore, fun g hg => hall g (List.mem_cons_of_mem group hg)⟩

theorem uuid_iff (value : String) : isUuid value = true ↔ value.toList ∈ uuidPattern := by
  rw [uuidPattern, mem_dashed, isUuid, Bool.and_eq_true, beq_iff_eq, List.all_eq_true]

end WithdrawalListener
