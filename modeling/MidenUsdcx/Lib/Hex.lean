/-!
# Bytes as hexadecimal text

`encode` writes two lowercase digits a byte, most significant first. `decode` reads digits of either
case and refuses an odd number of them or any other character. `decode_encode` is the round trip.
`fixed?` takes bytes as an array of a given length.
-/
namespace Hex

/-- The digit of a number below 16. -/
def digit (n : Nat) : Char := if n < 10 then Char.ofNat (48 + n) else Char.ofNat (87 + n)

def digitValue (c : Char) : Option Nat :=
  if '0' ≤ c ∧ c ≤ '9' then some (c.toNat - 48)
  else if 'a' ≤ c ∧ c ≤ 'f' then some (c.toNat - 87)
  else if 'A' ≤ c ∧ c ≤ 'F' then some (c.toNat - 55)
  else none

def encode (bytes : List UInt8) : List Char := bytes.flatMap fun b => [digit (b.toNat / 16), digit (b.toNat % 16)]

def decode : List Char → Option (List UInt8)
  | [] => some []
  | [_] => none
  | high :: low :: rest =>
    match digitValue high, digitValue low, decode rest with
    | some h, some l, some bytes => some (UInt8.ofNat (16 * h + l) :: bytes)
    | _, _, _ => none

/-- The bytes as an array of length `n`. -/
def fixed? (n : Nat) (bytes : List UInt8) : Option (Vector UInt8 n) :=
  if h : bytes.length = n then some ⟨bytes.toArray, h⟩ else none

/-! ## Digits -/

theorem digitValue_digit : ∀ n < 16, digitValue (digit n) = some n := by decide

theorem digit_toLower : ∀ n < 16, (digit n).toLower = digit n := by decide

/-- What `decode` reads as a digit. -/
theorem digitValue_isSome (c : Char) :
    (digitValue c).isSome = (('0' ≤ c && c ≤ '9') || ('a' ≤ c && c ≤ 'f') || ('A' ≤ c && c ≤ 'F')) := by
  unfold digitValue
  by_cases h0 : '0' ≤ c ∧ c ≤ '9'
  · simp [h0]
  · by_cases ha : 'a' ≤ c ∧ c ≤ 'f'
    · simp [h0, ha]
    · by_cases hA : 'A' ≤ c ∧ c ≤ 'F'
      · simp [h0, ha, hA]
      · simp [h0, ha, hA]
        grind

/-! ## Whole texts -/

@[simp] theorem encode_nil : encode [] = [] := rfl

@[simp] theorem encode_cons (b : UInt8) (bytes : List UInt8) :
    encode (b :: bytes) = digit (b.toNat / 16) :: digit (b.toNat % 16) :: encode bytes := rfl

theorem encode_length (bytes : List UInt8) : (encode bytes).length = 2 * bytes.length := by
  induction bytes with
  | nil => rfl
  | cons b bytes ih =>
    rw [encode_cons, List.length_cons, List.length_cons, List.length_cons, ih]
    omega

theorem isSome_of_mem_encode {bytes : List UInt8} {c : Char} (h : c ∈ encode bytes) : (digitValue c).isSome = true := by
  obtain ⟨b, -, hc⟩ := List.mem_flatMap.1 h
  have hb := b.toNat_lt
  simp only [List.mem_cons, List.not_mem_nil, or_false] at hc
  rcases hc with rfl | rfl
  · rw [digitValue_digit _ (by omega)]
    rfl
  · rw [digitValue_digit _ (by omega)]
    rfl

theorem decode_encode (bytes : List UInt8) : decode (encode bytes) = some bytes := by
  induction bytes with
  | nil => rfl
  | cons b bytes ih =>
    have hb := b.toNat_lt
    have hbyte : UInt8.ofNat (16 * (b.toNat / 16) + b.toNat % 16) = b := by
      rw [Nat.div_add_mod, UInt8.ofNat_toNat]
    rw [encode_cons, decode, digitValue_digit _ (by omega), digitValue_digit _ (by omega), ih]
    simp only [hbyte]

theorem encode_toLower (bytes : List UInt8) : (encode bytes).map Char.toLower = encode bytes := by
  induction bytes with
  | nil => rfl
  | cons b bytes ih =>
    have hb := b.toNat_lt
    rw [encode_cons, List.map_cons, List.map_cons, ih, digit_toLower _ (by omega), digit_toLower _ (by omega)]

/-! ## Arrays of a fixed length -/

theorem fixed?_eq_some {n : Nat} {bytes : List UInt8} {v : Vector UInt8 n} :
    fixed? n bytes = some v ↔ bytes = v.toList := by
  unfold fixed?
  constructor
  · intro h
    split at h
    · cases h
      rfl
    · cases h
  · rintro rfl
    rw [dif_pos v.length_toList]
    rfl

end Hex
