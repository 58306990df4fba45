import Mathlib
/-!
# ECDSA with key recovery

Points are a module over the field of scalars, and a `Curve` adds what ECDSA reads of a point: its x coordinate as a
scalar, and the two bits that reducing it loses. Nothing else about the curve is used.

A signature and its negation are valid for the same keys (`signs_neg`), which is why verifiers ask for the low one of
the two. Recovery is the inverse of verification: it returns a key exactly where the signature verifies with it and the
recovery ID is that of the nonce (`recover_eq_some`), so that a key has one recovery ID at most.
-/
namespace Ecdsa

/-- What a scalar x coordinate does not say of a point. -/
structure RecoveryId where
  odd : Bool
  reduced : Bool
deriving DecidableEq, Repr

/-- The recovery IDs in the order of their byte. -/
def RecoveryId.all : List RecoveryId := [⟨false, false⟩, ⟨true, false⟩, ⟨false, true⟩, ⟨true, true⟩]

theorem RecoveryId.mem_all (id : RecoveryId) : id ∈ all := by
  obtain ⟨odd, reduced⟩ := id
  cases odd <;> cases reduced <;> decide

structure Curve (F P : Type) [Field F] [AddCommGroup P] [Module F P] where
  base : P
  x : P → F
  recoveryId : P → RecoveryId
  /-- The larger of `s` and `-s`. -/
  high : F → Bool
  /-- Decompression: the point with this x coordinate and these bits. -/
  lift : F → RecoveryId → Option P
  base_ne : base ≠ 0
  x_neg : ∀ p, x (-p) = x p
  odd_neg : ∀ p, p ≠ 0 → (recoveryId (-p)).odd = !(recoveryId p).odd
  reduced_neg : ∀ p, (recoveryId (-p)).reduced = (recoveryId p).reduced
  high_neg : ∀ s, s ≠ 0 → high (-s) = !high s
  lift_iff : ∀ r id p, lift r id = some p ↔ p ≠ 0 ∧ x p = r ∧ recoveryId p = id

@[ext]
structure Signature (F : Type) [Zero F] where
  r : F
  s : F
  r_ne : r ≠ 0
  s_ne : s ≠ 0
deriving DecidableEq

section
variable {F P : Type} [Field F] [AddCommGroup P] [Module F P]

def Signature.neg (sig : Signature F) : Signature F := ⟨sig.r, -sig.s, sig.r_ne, neg_ne_zero.mpr sig.s_ne⟩

variable (E : Curve F P) {key : P} {z : F} {sig : Signature F} {id : RecoveryId}

namespace Curve

/-- The point a signature commits to. -/
def nonce (key : P) (z : F) (sig : Signature F) : P := (z / sig.s) • E.base + (sig.r / sig.s) • key

/-- ECDSA's equation. -/
def Signs (key : P) (z : F) (sig : Signature F) : Prop :=
  E.nonce key z sig ≠ 0 ∧ E.x (E.nonce key z sig) = sig.r

/-- The low one of the two signatures, as `normalize_s` with its input for the default. -/
def lowS (sig : Signature F) : Signature F := if E.high sig.s then sig.neg else sig

/-! ## Malleability -/

theorem nonce_neg : E.nonce key z sig.neg = -E.nonce key z sig := by
  simp only [nonce, Signature.neg, div_neg, neg_smul]
  abel

theorem signs_neg : E.Signs key z sig.neg ↔ E.Signs key z sig := by
  rw [Signs, nonce_neg, neg_ne_zero, E.x_neg]
  rfl

theorem lowS_cases (sig : Signature F) :
    (E.high sig.s = true ∧ E.lowS sig = sig.neg) ∨ (E.high sig.s = false ∧ E.lowS sig = sig) := by
  cases h : E.high sig.s <;> simp [lowS, h]

theorem high_lowS (sig : Signature F) : E.high (E.lowS sig).s = false := by
  rcases E.lowS_cases sig with ⟨hhigh, hlow⟩ | ⟨hhigh, hlow⟩
  · rw [hlow, Signature.neg, E.high_neg _ sig.s_ne, hhigh]
    rfl
  · rw [hlow, hhigh]

theorem signs_lowS : E.Signs key z (E.lowS sig) ↔ E.Signs key z sig := by
  rcases E.lowS_cases sig with ⟨-, hlow⟩ | ⟨-, hlow⟩
  · rw [hlow, signs_neg]
  · rw [hlow]

theorem reduced_lowS :
    (E.recoveryId (E.nonce key z (E.lowS sig))).reduced = (E.recoveryId (E.nonce key z sig)).reduced := by
  rcases E.lowS_cases sig with ⟨-, hlow⟩ | ⟨-, hlow⟩
  · rw [hlow, nonce_neg, E.reduced_neg]
  · rw [hlow]

/-! ## Recovery -/

/-- The key a nonce stands for. -/
def keyOf (z : F) (sig : Signature F) (p : P) : P := sig.r⁻¹ • (sig.s • p - z • E.base)

theorem keyOf_nonce (key : P) (z : F) (sig : Signature F) : E.keyOf z sig (E.nonce key z sig) = key := by
  have hs := sig.s_ne
  have hr := sig.r_ne
  simp only [keyOf, nonce, smul_add, smul_smul, mul_div_cancel₀ _ hs, add_sub_cancel_left, inv_mul_cancel₀ hr, one_smul]

theorem nonce_keyOf (p : P) (z : F) (sig : Signature F) : E.nonce (E.keyOf z sig p) z sig = p := by
  have hs := sig.s_ne
  have hr := sig.r_ne
  have hcoefficient : sig.r / sig.s * sig.r⁻¹ = sig.s⁻¹ := by field_simp
  rw [keyOf, nonce, smul_smul, hcoefficient, smul_sub, smul_smul, smul_smul, inv_mul_cancel₀ hs, one_smul,
    div_eq_inv_mul]
  abel

theorem nonce_sign {k secret : F} (hr : E.x (k • E.base) ≠ 0) (hs : k⁻¹ * (z + E.x (k • E.base) * secret) ≠ 0) :
    E.nonce (secret • E.base) z ⟨E.x (k • E.base), k⁻¹ * (z + E.x (k • E.base) * secret), hr, hs⟩ = k • E.base := by
  have hk : k ≠ 0 := fun h => hs (by rw [h, inv_zero, zero_mul])
  have hsum : z + E.x (k • E.base) * secret ≠ 0 := fun h => hs (by rw [h, mul_zero])
  simp only [nonce]
  rw [smul_smul, ← add_smul]
  congr 1
  field_simp

section
variable [DecidableEq F] [DecidableEq P]

instance (key : P) (z : F) (sig : Signature F) : Decidable (E.Signs key z sig) := instDecidableAnd

/-- Verification that refuses the high signature. -/
def verify (key : P) (z : F) (sig : Signature F) : Bool := !E.high sig.s && decide (E.Signs key z sig)

theorem verify_iff : E.verify key z sig = true ↔ E.high sig.s = false ∧ E.Signs key z sig := by
  simp [verify]

/-- Recovery, with the check of the recovered key. -/
def recover (z : F) (sig : Signature F) (id : RecoveryId) : Option P := do
  let p ← E.lift sig.r id
  let key := E.keyOf z sig p
  if key ≠ 0 ∧ E.verify key z sig = true then some key else none

theorem recover_eq_some : E.recover z sig id = some key ↔
    key ≠ 0 ∧ E.verify key z sig = true ∧ E.recoveryId (E.nonce key z sig) = id := by
  constructor
  · intro h
    simp only [recover, Option.bind_eq_bind, Option.bind_eq_some_iff, Option.ite_none_right_eq_some,
      Option.some.injEq] at h
    obtain ⟨p, hp, ⟨hkey, hverify⟩, rfl⟩ := h
    refine ⟨hkey, hverify, ?_⟩
    rw [E.nonce_keyOf]
    exact ((E.lift_iff _ _ _).mp hp).2.2
  · rintro ⟨hkey, hverify, hid⟩
    obtain ⟨hne, hx⟩ := (E.verify_iff.mp hverify).2
    have hlift : E.lift sig.r id = some (E.nonce key z sig) := (E.lift_iff _ _ _).mpr ⟨hne, hx, hid⟩
    simp only [recover, hlift, Option.bind_eq_bind, Option.bind_some, E.keyOf_nonce]
    rw [if_pos ⟨hkey, hverify⟩]

/-- A key has one recovery ID, and of the two signatures only the low one recovers it. -/
theorem recover_unique {other : Signature F} {id' : RecoveryId} (h : E.recover z sig id = some key)
    (hother : other = sig ∨ other = sig.neg) (h' : E.recover z other id' = some key) : other = sig ∧ id' = id := by
  obtain ⟨-, hverify, hid⟩ := E.recover_eq_some.mp h
  obtain ⟨-, hverify', hid'⟩ := E.recover_eq_some.mp h'
  rcases hother with rfl | rfl
  · exact ⟨rfl, hid'.symm.trans hid⟩
  · have hlow := (E.verify_iff.mp hverify).1
    have hhigh := (E.verify_iff.mp hverify').1
    rw [Signature.neg, E.high_neg _ sig.s_ne, hlow] at hhigh
    cases hhigh

/-- The first recovery ID with which the signature recovers this key. -/
def trialRecovery (key : P) (z : F) (sig : Signature F) : Option RecoveryId :=
  RecoveryId.all.find? fun id => decide (E.recover z sig id = some key)

theorem trialRecovery_eq_some : E.trialRecovery key z sig = some id ↔ E.recover z sig id = some key := by
  have hsound : ∀ {found}, E.trialRecovery key z sig = some found → E.recover z sig found = some key := by
    intro found hfound
    simpa using List.find?_some hfound
  constructor
  · exact hsound
  · intro h
    have hany : (E.trialRecovery key z sig).isSome = true :=
      List.find?_isSome.mpr ⟨id, id.mem_all, decide_eq_true h⟩
    obtain ⟨found, hfound⟩ := Option.isSome_iff_exists.mp hany
    have hrecovers := hsound hfound
    -- The nonce has only one recovery ID.
    have hid := (E.recover_eq_some.mp hrecovers).2.2.symm.trans (E.recover_eq_some.mp h).2.2
    exact hfound.trans (congrArg some hid)

/-! ## Signing -/

/-- The signature with the nonce `k`, made low, with the recovery ID that it has then. -/
def sign (k secret z : F) : Option (Signature F × RecoveryId) :=
  let p := k • E.base
  let s := k⁻¹ * (z + E.x p * secret)
  if h : E.x p ≠ 0 ∧ s ≠ 0 then
    some (E.lowS ⟨E.x p, s, h.1, h.2⟩, ⟨(E.recoveryId p).odd ^^ E.high s, (E.recoveryId p).reduced⟩)
  else none

/-- What `sign` returns is low, and recovers the signer's key with the recovery ID that it comes with. -/
theorem sign_recovers {k secret : F} (hsecret : secret ≠ 0) (h : E.sign k secret z = some (sig, id)) :
    E.recover z sig id = some (secret • E.base) := by
  simp only [sign] at h
  split at h
  · next hne =>
    simp only [Option.some.injEq, Prod.mk.injEq] at h
    obtain ⟨rfl, rfl⟩ := h
    have hk : k ≠ 0 := fun hk => hne.2 (by rw [hk, inv_zero, zero_mul])
    have hp : k • E.base ≠ 0 := smul_ne_zero hk E.base_ne
    have hnonce := E.nonce_sign hne.1 hne.2
    have hsigns : E.Signs (secret • E.base) z ⟨_, _, hne.1, hne.2⟩ := by
      rw [Signs, hnonce]
      exact ⟨hp, rfl⟩
    refine E.recover_eq_some.mpr ⟨smul_ne_zero hsecret E.base_ne, E.verify_iff.mpr ⟨E.high_lowS _, ?_⟩, ?_⟩
    · exact E.signs_lowS.mpr hsigns
    · rcases E.lowS_cases ⟨_, _, hne.1, hne.2⟩ with ⟨hhigh, hlow⟩ | ⟨hhigh, hlow⟩
      · rw [hlow, E.nonce_neg, hnonce]
        simp only at hhigh
        rw [hhigh, Bool.xor_true, ← E.odd_neg _ hp, ← E.reduced_neg]
      · rw [hlow, hnonce]
        simp only at hhigh
        rw [hhigh, Bool.xor_false]
  · cases h

end

end Curve

/-! ## Byte forms -/

/-- A curve with the forms in which its values are sent. -/
structure Formats (F P : Type) [Field F] [AddCommGroup P] [Module F P] extends Curve F P where
  /-- The scalar of a digest. -/
  prehash : Vector UInt8 32 → F
  /-- The nonce for a secret and a digest. -/
  nonceOf : F → F → F
  /-- `r` and `s`, 32 bytes each. -/
  encode : Signature F → Vector UInt8 64
  decode : List UInt8 → Option (Signature F)
  fromDer : List UInt8 → Option (Signature F)
  /-- A point that is not zero, in 33 bytes. -/
  compress : P → Vector UInt8 33
  decompress : Vector UInt8 33 → Option P
  /-- The account a key stands for. -/
  address : P → Vector UInt8 20
  decode_encode : ∀ sig, decode (encode sig).toList = some sig
  decompress_compress : ∀ p, p ≠ 0 → decompress (compress p) = some p

/-- A secret scalar. -/
abbrev Secret (F : Type) [Zero F] := { secret : F // secret ≠ 0 }

namespace Formats
variable (E : Formats F P)

def publicKey (secret : Secret F) : P := secret.1 • E.base

variable [DecidableEq F] [DecidableEq P]

def signPrehash (secret : Secret F) (digest : Vector UInt8 32) : Option (Signature F × RecoveryId) :=
  E.sign (E.nonceOf secret.1 (E.prehash digest)) secret.1 (E.prehash digest)

theorem signPrehash_recovers {secret : Secret F} {digest : Vector UInt8 32}
    (h : E.signPrehash secret digest = some (sig, id)) :
    E.recover (E.prehash digest) sig id = some (E.publicKey secret) :=
  E.sign_recovers secret.2 h

end Formats

end

/-! ## A small curve -/

/-- The twelve points of `y² = x³ + 2` over the integers modulo 19, the multiples of the first in their order. -/
def small : List (Nat × Nat) :=
  [(4, 3), (18, 18), (6, 3), (9, 16), (12, 18), (8, 18), (8, 1), (12, 1), (9, 3), (6, 16), (18, 1), (4, 16)]

/-- The coordinates of a multiple of the first point, with zero for none. -/
def smallAt (k : ZMod 13) : Nat × Nat := if k = 0 then (0, 0) else small.getD (k.val - 1) (0, 0)

example : ∀ k : ZMod 13, k ≠ 0 → (smallAt k).2 ^ 2 % 19 = ((smallAt k).1 ^ 3 + 2) % 19 := by decide

instance thirteen_prime : Fact (Nat.Prime 13) := ⟨by decide⟩

def smallId (k : ZMod 13) : RecoveryId := ⟨(smallAt k).2 % 2 == 1, 13 ≤ (smallAt k).1⟩

def smallPoints : List (ZMod 13) := [1, 2, 3, 4, 5, 6, 7, 8, 9, 10, 11, 12]

def smallCurve : Curve (ZMod 13) (ZMod 13) where
  base := 1
  x k := ((smallAt k).1 : ZMod 13)
  recoveryId := smallId
  high s := 6 < s.val
  lift r id := smallPoints.find? fun k => ((smallAt k).1 : ZMod 13) = r ∧ smallId k = id
  base_ne := by decide
  x_neg := by decide
  odd_neg := by decide
  reduced_neg := by decide
  high_neg := by decide
  lift_iff := by
    rintro r ⟨odd, reduced⟩ p
    revert r p
    cases odd <;> cases reduced <;> decide +kernel

/-- A scalar in 32 bytes. -/
def smallWord (s : ZMod 13) : List UInt8 := List.replicate 31 0 ++ [UInt8.ofNat s.val]

def smallScalar (bytes : List UInt8) : Option (ZMod 13) :=
  [0, 1, 2, 3, 4, 5, 6, 7, 8, 9, 10, 11, 12].find? fun s => smallWord s = bytes

/-- A signature from two words: neither may be zero. -/
def smallSignature (r s : Option (ZMod 13)) : Option (Signature (ZMod 13)) := do
  let r ← r
  let s ← s
  if h : r ≠ 0 ∧ s ≠ 0 then some ⟨r, s, h.1, h.2⟩ else none

theorem smallWord_length (s : ZMod 13) : (smallWord s).length = 32 := by simp [smallWord]

theorem smallScalar_word : ∀ s : ZMod 13, smallScalar (smallWord s) = some s := by decide +kernel

theorem smallSignature_words (sig : Signature (ZMod 13)) :
    smallSignature (smallScalar ((smallWord sig.r ++ smallWord sig.s).take 32))
      (smallScalar ((smallWord sig.r ++ smallWord sig.s).drop 32)) = some sig := by
  rw [List.take_left' (smallWord_length sig.r), List.drop_left' (smallWord_length sig.r), smallScalar_word,
    smallScalar_word]
  exact dif_pos ⟨sig.r_ne, sig.s_ne⟩

def smallEncode (sig : Signature (ZMod 13)) : Vector UInt8 64 :=
  ⟨(smallWord sig.r ++ smallWord sig.s).toArray, by simp [smallWord_length]⟩

/-- The two integers of a DER sequence, one byte each. -/
def smallFromDer : List UInt8 → Option (Signature (ZMod 13))
  | [0x30, 6, 2, 1, r, 2, 1, s] => smallSignature (smallScalar (smallWord r.toNat)) (smallScalar (smallWord s.toNat))
  | _ => none

/-- A point in 33 bytes: the parity of `y` and then `x`. -/
def smallSec1 (p : ZMod 13) : List UInt8 :=
  (if (smallId p).odd then 3 else 2) :: List.replicate 31 0 ++ [UInt8.ofNat (smallAt p).1]

theorem smallSec1_find : ∀ p : ZMod 13, p ≠ 0 → (smallPoints.find? fun q => smallSec1 q = smallSec1 p) = some p := by
  decide +kernel

def smallCompress (p : ZMod 13) : Vector UInt8 33 := ⟨(smallSec1 p).toArray, by simp [smallSec1]⟩

def smallAddress (p : ZMod 13) : Vector UInt8 20 :=
  ⟨(List.replicate 18 0 ++ [UInt8.ofNat (smallAt p).1, UInt8.ofNat (smallAt p).2]).toArray, by simp⟩

def smallFormats : Formats (ZMod 13) (ZMod 13) where
  toCurve := smallCurve
  prehash digest := digest.toList.getLastD 0 |>.toNat
  nonceOf secret z := secret + z + 1
  encode := smallEncode
  decode bytes := smallSignature (smallScalar (bytes.take 32)) (smallScalar (bytes.drop 32))
  fromDer := smallFromDer
  compress := smallCompress
  decompress bytes := smallPoints.find? fun p => smallSec1 p = bytes.toList
  address := smallAddress
  decode_encode := smallSignature_words
  decompress_compress := smallSec1_find

/-- Two keys, each its multiple of the first point. -/
def smallFirst : ZMod 13 := 1
def smallSecond : ZMod 13 := 1 + 1

theorem smallFirst_ne : smallFirst ≠ 0 := by decide

theorem smallSecond_ne : smallSecond ≠ 0 := by decide

end Ecdsa
