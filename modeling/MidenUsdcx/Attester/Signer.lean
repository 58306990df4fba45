import MidenUsdcx.Attester.Encoding
import MidenUsdcx.Lib.Ecdsa
import MidenUsdcx.Listener.Quorum
/-!
# The two signers (`signer.rs`, `signer/kms.rs`, `verify.rs:174`)

| here | there |
| --- | --- |
| `SigningPublicKey`, `SignerPair` | `signer.rs:17-138` |
| `checkKeyMetadata`, `publicKeyFromResponse` | `kms.rs:99-141` |
| `signatureFromResponse`, `signatureFromDer` | `kms.rs:155-203` |
| `SignerPair.sign` | `VerifiedWithdrawal::sign` (`verify.rs:174`) |

The curve and its byte forms are any (`Ecdsa.Formats`), and so is whatever KMS answers. Left out: the region, the
retries and the timeout of the KMS client, the texts of errors from other crates, and the signer for tests.
-/
namespace LightAttester
open Checked Ecdsa

/-! ## Keys -/

/-- `SignerError` (`signer.rs:48`), without the error behind it, which is another crate's. -/
structure SignerError where
  new ::
  context : String
deriving DecidableEq, Repr

/-- `SigningPublicKey` (`signer.rs:17`): 33 bytes, which are the key's only form outside KMS. -/
structure SigningPublicKey where
  bytes : Vector UInt8 33
deriving DecidableEq

/-- `decode_hex` (`signer.rs:198`). -/
def decodeHex (n : Nat) (value : String) : Option (Vector UInt8 n) := do
  let digits := match value.toList with
    | '0' :: 'x' :: rest => rest
    | digits => digits
  let bytes ← Hex.decode digits
  Hex.fixed? n bytes

section
variable {F P : Type} [Field F] [AddCommGroup P] [Module F P] (E : Formats F P)

/-- A key that `k256` accepts: it is never the identity. -/
abbrev VerifyingKey (P : Type) [Zero P] := { key : P // key ≠ 0 }

/-- `SigningPublicKey::from_compressed` (`signer.rs:29`). -/
def SigningPublicKey.fromCompressed (bytes : Vector UInt8 33) : Except SignerError SigningPublicKey := do
  ensure ((E.decompress bytes).isSome = true) (.new "public key is not a valid secp256k1 point")
  pure ⟨bytes⟩

/-- `SigningPublicKey::from_hex` (`signer.rs:21`). -/
def SigningPublicKey.fromHex (value : String) : Except SignerError SigningPublicKey := do
  let bytes ← orThrow (decodeHex 33 value) (.new "public key is not 33 bytes of hex")
  fromCompressed E bytes

/-- `SigningPublicKey::address` (`signer.rs:37`). -/
def SigningPublicKey.address (key : SigningPublicKey) : Except SignerError (Vector UInt8 20) := do
  let point ← orThrow (E.decompress key.bytes) (.new "signer public key is not a valid secp256k1 point")
  pure (E.address point)

/-! ## KMS -/

/-- `KeyState`, `KeySpec`, `KeyUsageType`, `SigningAlgorithmSpec`: the value that the checks want, and the rest. -/
inductive KeyState where
  | enabled
  | other (name : String)
deriving DecidableEq, Repr

inductive KeySpec where
  | eccSecgP256K1
  | other (name : String)
deriving DecidableEq, Repr

inductive KeyUsageType where
  | signVerify
  | other (name : String)
deriving DecidableEq, Repr

inductive SigningAlgorithmSpec where
  | ecdsaSha256
  | other (name : String)
deriving DecidableEq, Repr

structure KeyMetadata where
  arn : Option String
  enabled : Bool
  keyState : Option KeyState
  keySpec : Option KeySpec
  keyUsage : Option KeyUsageType

structure GetPublicKeyOutput where
  keyId : Option String
  keySpec : Option KeySpec
  keyUsage : Option KeyUsageType
  signingAlgorithms : List SigningAlgorithmSpec
  publicKey : Option Bytes

structure SignOutput where
  keyId : Option String
  signingAlgorithm : Option SigningAlgorithmSpec
  signature : Option Bytes

/-- What KMS answers about a key, with none where the request failed. -/
structure KmsKey where
  describe : Option (Option KeyMetadata)
  getPublicKey : Option GetPublicKeyOutput

/-- `KmsSigner` (`kms.rs:19`), without the client. -/
structure KmsSigner (P : Type) [Zero P] where
  keyArn : String
  publicKey : VerifyingKey P

/-- `check_key_metadata` (`kms.rs:99`). -/
def checkKeyMetadata (metadata : Option KeyMetadata) (keyArn : String) : Except SignerError Unit := do
  let metadata ← orThrow metadata (.new "AWS KMS described the key without its metadata")
  ensure (metadata.arn = some keyArn ∧ metadata.enabled = true ∧ metadata.keyState = some .enabled ∧
      metadata.keySpec = some .eccSecgP256K1 ∧ metadata.keyUsage = some .signVerify)
    (.new "AWS KMS key is not the enabled secp256k1 signing key with this ARN")

/-- `public_key_from_response` (`kms.rs:117`). -/
def publicKeyFromResponse (fromSpki : Bytes → Option (VerifyingKey P)) (response : GetPublicKeyOutput) (keyArn : String) :
    Except SignerError (VerifyingKey P) := do
  ensure (response.keyId = some keyArn ∧ response.keySpec = some .eccSecgP256K1 ∧
      response.keyUsage = some .signVerify ∧ SigningAlgorithmSpec.ecdsaSha256 ∈ response.signingAlgorithms)
    (.new "AWS KMS public key is not the secp256k1 signing key with this ARN")
  let spki ← orThrow response.publicKey (.new "AWS KMS returned no public key")
  orThrow (fromSpki spki) (.new "AWS KMS public key is not a secp256k1 key")

/-- `KmsSigner::connect` (`kms.rs:45`). -/
def KmsSigner.connect (fromSpki : Bytes → Option (VerifyingKey P)) (kms : KmsKey) (keyArn : String) :
    Except SignerError (KmsSigner P) := do
  let description ← orThrow kms.describe (.new "AWS KMS DescribeKey request failed")
  checkKeyMetadata description keyArn
  let response ← orThrow kms.getPublicKey (.new "AWS KMS GetPublicKey request failed")
  let publicKey ← publicKeyFromResponse fromSpki response keyArn
  pure ⟨keyArn, publicKey⟩

/-- `Signer::public_key` of a KMS signer (`kms.rs:73`): its 33 bytes always fit. -/
def KmsSigner.signingKey (signer : KmsSigner P) : SigningPublicKey := ⟨E.compress signer.publicKey⟩

/-- `alloy`'s `Signature`: `r`, `s` and the parity of the nonce. -/
structure RecoverableSignature (F : Type) [Zero F] where
  signature : Ecdsa.Signature F
  odd : Bool
deriving DecidableEq

/-- The bytes of a digest. -/
def digestBytes (digest : B256) : Vector UInt8 32 := ⟨(wordBytes digest).toArray, by simp [wordBytes, beBytes_length]⟩

variable [DecidableEq F] [DecidableEq P]

/-- `signature_from_der` (`kms.rs:176`). -/
def signatureFromDer (digest : B256) (der : Bytes) (key : VerifyingKey P) :
    Except SignerError (RecoverableSignature F) := do
  let signature ← orThrow (E.fromDer der) (.new "AWS KMS signature is not DER")
  let signature := E.lowS signature
  let z := E.prehash (digestBytes digest)
  ensure (E.verify key.1 z signature = true) (.new "AWS KMS signature does not verify with its key")
  let recovery ← orThrow (E.trialRecovery key.1 z signature) (.new "AWS KMS signature has no recovery ID")
  ensure (recovery.reduced = false) (.new "signature has an x-reduced recovery ID")
  pure ⟨signature, recovery.odd⟩

/-- `signature_from_response` (`kms.rs:155`). -/
def signatureFromResponse (response : SignOutput) (keyArn : String) (digest : B256) (key : VerifyingKey P) :
    Except SignerError (RecoverableSignature F) := do
  ensure (response.keyId = some keyArn ∧ response.signingAlgorithm = some .ecdsaSha256)
    (.new "AWS KMS signed with another key or algorithm")
  let der ← orThrow response.signature (.new "AWS KMS returned no signature")
  signatureFromDer E digest der key

/-- `Signer::sign_digest` of a KMS signer (`kms.rs:85`), with KMS's answer to the request. -/
def KmsSigner.signDigest (signer : KmsSigner P) (answer : Option SignOutput) (digest : B256) :
    Except SignerError (RecoverableSignature F) := do
  let response ← orThrow answer (.new "AWS KMS Sign request failed")
  signatureFromResponse E response signer.keyArn digest signer.publicKey

/-! ## The pair -/

/-- `SignerPair` (`signer.rs:84`), with KMS signers. -/
structure SignerPair (P : Type) [Zero P] where
  first : KmsSigner P
  second : KmsSigner P
  publicKeys : SigningPublicKey × SigningPublicKey

/-- `SignerPair::new` (`signer.rs:92`). -/
def SignerPair.new (one two : KmsSigner P) : Except SignerError (SignerPair P) := do
  ensure (one.signingKey E ≠ two.signingKey E) (.new "the two signing providers hold the same key")
  let second ← (two.signingKey E).address E
  let first ← (one.signingKey E).address E
  if second < first then pure ⟨two, one, (two.signingKey E, one.signingKey E)⟩
  else pure ⟨one, two, (one.signingKey E, two.signingKey E)⟩

/-- `SignerPair::check_expected` (`signer.rs:117`), with the text it fails with. -/
def SignerPair.checkExpected (pair : SignerPair P) (expectedHex : List String) : Except String Unit := do
  let texts ← orThrow (match expectedHex with
    | [first, second] => some (first, second)
    | _ => none) "exactly two signing public keys must be configured"
  let first ← (SigningPublicKey.fromHex E texts.1).mapError fun _ => "configured signing public key is invalid"
  let second ← (SigningPublicKey.fromHex E texts.2).mapError fun _ => "configured signing public key is invalid"
  ensure (first ≠ second) "the two configured signing public keys must differ"
  ensure (pair.publicKeys.1 ∈ [first, second] ∧ pair.publicKeys.2 ∈ [first, second])
    "loaded signing public keys do not match configuration"

/-- `VerifiedWithdrawal::sign` (`verify.rs:174`), with KMS's two answers. -/
def SignerPair.sign (pair : SignerPair P) (answers : Option SignOutput × Option SignOutput) (digest : B256) :
    Except SignerError (RecoverableSignature F × RecoverableSignature F) := do
  let first ← pair.first.signDigest E answers.1 digest
  let second ← pair.second.signDigest E answers.2 digest
  pure (first, second)

/-! ## What a signature from KMS is -/

variable {E} {digest : B256} {der : Bytes} {key : VerifyingKey P} {signed : RecoverableSignature F}

/-- The recovery ID that the parity stands for. -/
def RecoverableSignature.recoveryId (signed : RecoverableSignature F) : RecoveryId := ⟨signed.odd, false⟩

variable (E) in
/-- The signature is low, recovers the key with its parity, and is one of the two that `raw` is worth. -/
structure Signed (digest : B256) (key : VerifyingKey P) (raw : Ecdsa.Signature F) (signed : RecoverableSignature F) :
    Prop where
  low : signed.signature = E.lowS raw
  recovers : E.recover (E.prehash (digestBytes digest)) signed.signature signed.recoveryId = some key.1

theorem signatureFromDer_ok : signatureFromDer E digest der key = .ok signed ↔
    ∃ raw, E.fromDer der = some raw ∧ Signed E digest key raw signed := by
  simp only [signatureFromDer, orThrow_bind_ok, ensure_bind_ok, pure_ok, E.trialRecovery_eq_some]
  constructor
  · rintro ⟨raw, hraw, hverify, ⟨odd, reduced⟩, hrecovers, hreduced, rfl⟩
    obtain rfl : reduced = false := hreduced
    exact ⟨raw, hraw, rfl, hrecovers⟩
  · rintro ⟨raw, hraw, hlow, hrecovers⟩
    rw [hlow] at hrecovers
    refine ⟨raw, hraw, (E.recover_eq_some.mp hrecovers).2.1, signed.recoveryId, hrecovers, rfl, ?_⟩
    rw [← hlow]
    rfl

/-- A DER signature becomes a recoverable one exactly where it is valid for the pinned key, whichever of the two `s` it
has, and its nonce is not reduced. What it becomes is low and recovers the pinned key, and neither the other parity nor
the other `s` does. -/
theorem signatureFromDer_spec (E : Formats F P) (digest : B256) (der : Bytes) (key : VerifyingKey P) :
    ((∃ signed, signatureFromDer E digest der key = .ok signed) ↔
      ∃ raw, E.fromDer der = some raw ∧ E.Signs key.1 (E.prehash (digestBytes digest)) raw ∧
        (E.recoveryId (E.nonce key.1 (E.prehash (digestBytes digest)) raw)).reduced = false) ∧
    ∀ signed, signatureFromDer E digest der key = .ok signed →
      E.high signed.signature.s = false ∧
      E.recover (E.prehash (digestBytes digest)) signed.signature signed.recoveryId = some key.1 ∧
      ∀ other id, other = signed.signature ∨ other = signed.signature.neg →
        E.recover (E.prehash (digestBytes digest)) other id = some key.1 →
          other = signed.signature ∧ id = signed.recoveryId := by
  refine ⟨⟨?_, ?_⟩, fun signed h => ?_⟩
  · rintro ⟨signed, h⟩
    obtain ⟨raw, hraw, hlow, hrecovers⟩ := signatureFromDer_ok.mp h
    rw [hlow] at hrecovers
    obtain ⟨-, hverify, hid⟩ := E.recover_eq_some.mp hrecovers
    refine ⟨raw, hraw, E.signs_lowS.mp (E.verify_iff.mp hverify).2, ?_⟩
    rw [← E.reduced_lowS, hid]
    rfl
  · rintro ⟨raw, hraw, hsigns, hreduced⟩
    have hverify := E.verify_iff.mpr ⟨E.high_lowS raw, E.signs_lowS.mpr hsigns⟩
    rw [← E.reduced_lowS] at hreduced
    cases hid : E.recoveryId (E.nonce key.1 (E.prehash (digestBytes digest)) (E.lowS raw)) with
    | mk odd reduced =>
      rw [hid] at hreduced
      obtain rfl : reduced = false := hreduced
      have hrecovers := E.recover_eq_some.mpr ⟨key.2, hverify, hid⟩
      exact ⟨⟨E.lowS raw, odd⟩, signatureFromDer_ok.mpr ⟨raw, hraw, rfl, hrecovers⟩⟩
  · obtain ⟨raw, hraw, hlow, hrecovers⟩ := signatureFromDer_ok.mp h
    have hhigh := (E.verify_iff.mp (E.recover_eq_some.mp hrecovers).2.1).1
    exact ⟨hhigh, hrecovers, fun other id hother h' => E.recover_unique hrecovers hother h'⟩

/-! ## What a pair is -/

variable {one two : KmsSigner P} {pair : SignerPair P}

variable (E) in
/-- The two signers, in ascending order of their addresses, with the keys they reported. -/
structure Paired (one two : KmsSigner P) (pair : SignerPair P) : Prop where
  signers : (pair.first = one ∧ pair.second = two) ∨ (pair.first = two ∧ pair.second = one)
  keys : pair.publicKeys = (pair.first.signingKey E, pair.second.signingKey E)
  differ : pair.first.signingKey E ≠ pair.second.signingKey E
  ordered : E.address pair.first.publicKey.1 ≤ E.address pair.second.publicKey.1

omit [DecidableEq F] [DecidableEq P] in
theorem address_signingKey (signer : KmsSigner P) :
    (signer.signingKey E).address E = .ok (E.address signer.publicKey.1) := by
  rw [SigningPublicKey.address, show E.decompress (signer.signingKey E).bytes = some signer.publicKey.1 from
    E.decompress_compress _ signer.publicKey.2]
  rfl

omit [DecidableEq F] [DecidableEq P] in
theorem SignerPair.new_ok (h : SignerPair.new E one two = .ok pair) : Paired E one two pair := by
  simp only [SignerPair.new, ensure_bind_ok, address_signingKey] at h
  obtain ⟨hdiffer, h⟩ := h
  change (if E.address two.publicKey.1 < E.address one.publicKey.1 then _ else _) = Except.ok pair at h
  split at h
  · next hlt =>
    obtain rfl := pure_ok.1 h
    exact ⟨.inr ⟨rfl, rfl⟩, rfl, hdiffer.symm, Vector.le_of_lt hlt⟩
  · next hge =>
    obtain rfl := pure_ok.1 h
    exact ⟨.inl ⟨rfl, rfl⟩, rfl, hdiffer, Vector.not_lt.mp hge⟩

theorem signDigest_ok {signer : KmsSigner P} {answer : Option SignOutput}
    (h : signer.signDigest E answer digest = .ok signed) :
    ∃ raw, Signed E digest signer.publicKey raw signed := by
  simp only [KmsSigner.signDigest, signatureFromResponse, orThrow_bind_ok, ensure_bind_ok] at h
  obtain ⟨response, -, -, der, -, h⟩ := h
  obtain ⟨raw, -, hsigned⟩ := signatureFromDer_ok.mp h
  exact ⟨raw, hsigned⟩

omit [DecidableEq F] [DecidableEq P] in
theorem fromHex_ok {text : String} {key : SigningPublicKey} (h : SigningPublicKey.fromHex E text = .ok key) :
    decodeHex 33 text = some key.bytes := by
  simp only [SigningPublicKey.fromHex, SigningPublicKey.fromCompressed, orThrow_bind_ok, ensure_bind_ok, pure_ok] at h
  obtain ⟨bytes, hbytes, -, rfl⟩ := h
  exact hbytes

omit [DecidableEq F] [DecidableEq P] in
/-- The pair's keys are the two configured ones, in either order. -/
theorem checkExpected_ok {expectedHex : List String} (hpair : Paired E one two pair)
    (h : pair.checkExpected E expectedHex = .ok ()) :
    ∃ a b lower upper, expectedHex = [a, b] ∧ decodeHex 33 a = some lower ∧ decodeHex 33 b = some upper ∧
      (((pair.first.signingKey E).bytes, (pair.second.signingKey E).bytes) = (lower, upper) ∨
        ((pair.first.signingKey E).bytes, (pair.second.signingKey E).bytes) = (upper, lower)) := by
  simp only [SignerPair.checkExpected, bind_ok, mapError_ok, orThrow_ok, ensure_ok] at h
  obtain ⟨⟨a, b⟩, htexts, first, hfirst, second, hsecond, -, -, hone, htwo⟩ := h
  have hexpected : expectedHex = [a, b] := by
    split at htexts
    · simp only [Option.some.injEq, Prod.mk.injEq] at htexts
      rw [htexts.1, htexts.2]
    · cases htexts
  refine ⟨a, b, first.bytes, second.bytes, hexpected, fromHex_ok hfirst, fromHex_ok hsecond, ?_⟩
  rw [show pair.publicKeys.1 = pair.first.signingKey E by rw [hpair.keys]] at hone
  rw [show pair.publicKeys.2 = pair.second.signingKey E by rw [hpair.keys]] at htwo
  have hdiffer := hpair.differ
  rcases List.mem_pair.mp hone with hone | hone <;> rcases List.mem_pair.mp htwo with htwo | htwo
  · exact absurd (hone.trans htwo.symm) hdiffer
  · exact .inl (by rw [hone, htwo])
  · exact .inr (by rw [hone, htwo])
  · exact absurd (hone.trans htwo.symm) hdiffer

/-- Startup: both keys are connected, paired and found to be the configured ones (`service.rs:71-87`,
`attester.rs:133`). -/
structure Started (E : Formats F P) (fromSpki : Bytes → Option (VerifyingKey P)) (kms : String → KmsKey)
    (keyArns : String × String) (expectedHex : List String) (pair : SignerPair P) : Prop where
  paired : ∃ one two, KmsSigner.connect fromSpki (kms keyArns.1) keyArns.1 = .ok one ∧
    KmsSigner.connect fromSpki (kms keyArns.2) keyArns.2 = .ok two ∧ SignerPair.new E one two = .ok pair
  expected : pair.checkExpected E expectedHex = .ok ()

/-- After a startup that passed, whatever KMS answers: two signatures come from the two configured keys, one each and in
ascending order of their addresses, and both are low and recover their key with the parity they carry. -/
theorem configured_signatures {fromSpki : Bytes → Option (VerifyingKey P)} {kms : String → KmsKey}
    {keyArns : String × String} {expectedHex : List String} {answers : Option SignOutput × Option SignOutput}
    {signed : RecoverableSignature F × RecoverableSignature F}
    (hstarted : Started E fromSpki kms keyArns expectedHex pair) (hsigned : pair.sign E answers digest = .ok signed) :
    ∃ a b lower upper p q, expectedHex = [a, b] ∧ decodeHex 33 a = some lower ∧ decodeHex 33 b = some upper ∧
      ((E.compress p, E.compress q) = (lower, upper) ∨ (E.compress p, E.compress q) = (upper, lower)) ∧
      E.compress p ≠ E.compress q ∧ E.address p ≤ E.address q ∧
      E.high signed.1.signature.s = false ∧ E.high signed.2.signature.s = false ∧
      E.recover (E.prehash (digestBytes digest)) signed.1.signature signed.1.recoveryId = some p ∧
      E.recover (E.prehash (digestBytes digest)) signed.2.signature signed.2.recoveryId = some q := by
  obtain ⟨⟨one, two, -, -, hnew⟩, hexpected⟩ := hstarted
  have hpair := SignerPair.new_ok hnew
  obtain ⟨a, b, lower, upper, htexts, hlower, hupper, hkeys⟩ := checkExpected_ok hpair hexpected
  simp only [SignerPair.sign, bind_ok, pure_ok] at hsigned
  obtain ⟨first, hfirst, second, hsecond, rfl⟩ := hsigned
  obtain ⟨_, hone⟩ := signDigest_ok hfirst
  obtain ⟨_, htwo⟩ := signDigest_ok hsecond
  have hdiffer : E.compress pair.first.publicKey.1 ≠ E.compress pair.second.publicKey.1 := fun h =>
    hpair.differ (congrArg SigningPublicKey.mk h)
  exact ⟨a, b, lower, upper, _, _, htexts, hlower, hupper, hkeys, hdiffer, hpair.ordered,
    (E.verify_iff.mp (E.recover_eq_some.mp hone.recovers).2.1).1,
    (E.verify_iff.mp (E.recover_eq_some.mp htwo.recovers).2.1).1, hone.recovers, htwo.recovers⟩

/-! ## The other service's bundle -/

/-- `Signature::as_bytes` of `alloy`, which the request spells in hex (`verify.rs:208`). -/
def RecoverableSignature.wire (E : Formats F P) (signed : RecoverableSignature F) : WithdrawalListener.Signature65 :=
  ⟨(E.encode signed.signature).push (if signed.odd then 28 else 27)⟩

/-- The claim that a signature is by this signer. -/
def claimOf (E : Formats F P) (signer : KmsSigner P) (signed : RecoverableSignature F) :
    WithdrawalListener.SignerClaim :=
  (WithdrawalListener.addressFromVerifyingKey E signer.publicKey.1, signed.wire E)

theorem recoverAddress_wire {C : WithdrawalListener.Crates} (hC : C.recoverFromPrehash = WithdrawalListener.k256 E)
    {signer : KmsSigner P} {raw : Ecdsa.Signature F} (h : Signed E digest signer.publicKey raw signed) :
    WithdrawalListener.recoverAddress C (digestBytes digest) (signed.wire E) =
      some (WithdrawalListener.addressFromVerifyingKey E signer.publicKey.1) := by
  have hv : WithdrawalListener.evmVFromRecoveryId signed.recoveryId = some (if signed.odd then 28 else 27) := by
    cases hodd : signed.odd <;> simp [RecoverableSignature.recoveryId, hodd] <;> decide
  rw [RecoverableSignature.wire, WithdrawalListener.recoverAddress_push hC hv, h.recovers]
  rfl

/-- The two services agree on what Circle accepts: what the light attester's pair signs, the withdrawal listener's bundle
takes in the order the pair signs in, except where the two keys have one address. -/
theorem sign_accepted {C : WithdrawalListener.Crates} (hC : C.recoverFromPrehash = WithdrawalListener.k256 E)
    {answers : Option SignOutput × Option SignOutput} {signed : RecoverableSignature F × RecoverableSignature F}
    (hpair : SignerPair.new E one two = .ok pair) (hsigned : pair.sign E answers digest = .ok signed) :
    WithdrawalListener.assembleQuorum C (digestBytes digest)
        [claimOf E pair.first signed.1, claimOf E pair.second signed.2] =
      if E.address one.publicKey.1 = E.address two.publicKey.1 then
        .error (.duplicateSigner (WithdrawalListener.addressFromVerifyingKey E one.publicKey.1))
      else .ok ⟨[signed.1.wire E, signed.2.wire E]⟩ := by
  have hpaired := SignerPair.new_ok hpair
  simp only [SignerPair.sign, bind_ok, pure_ok] at hsigned
  obtain ⟨first, hfirst, second, hsecond, rfl⟩ := hsigned
  obtain ⟨_, hone⟩ := signDigest_ok hfirst
  obtain ⟨_, htwo⟩ := signDigest_ok hsecond
  rw [WithdrawalListener.assembleQuorum_pair (recoverAddress_wire hC hone) (recoverAddress_wire hC htwo) hpaired.ordered]
  have haddress : (claimOf E pair.first first).1 = (claimOf E pair.second second).1 ↔
      E.address one.publicKey.1 = E.address two.publicKey.1 := by
    simp only [claimOf, WithdrawalListener.addressFromVerifyingKey, WithdrawalListener.Address.mk.injEq]
    rcases hpaired.signers with ⟨hf, hs⟩ | ⟨hf, hs⟩ <;> rw [hf, hs]
    exact eq_comm
  by_cases h : E.address one.publicKey.1 = E.address two.publicKey.1
  · rw [if_pos (haddress.mpr h), if_pos h]
    rcases hpaired.signers with ⟨hf, -⟩ | ⟨hf, -⟩ <;> rw [claimOf, hf]
    rw [WithdrawalListener.addressFromVerifyingKey, WithdrawalListener.addressFromVerifyingKey, h]
  · rw [if_neg (fun heq => h (haddress.mp heq)), if_neg h]
    rfl

end

/-! ## Two keys on a small curve -/

namespace SmallKeys

/-- A key's info is its multiple of the first point. -/
def fromSpki (info : Bytes) : Option (VerifyingKey (ZMod 13)) :=
  match info with
  | [1] => some ⟨smallFirst, smallFirst_ne⟩
  | [2] => some ⟨smallSecond, smallSecond_ne⟩
  | _ => none

def key (arn : String) : KmsKey where
  describe := some (some ⟨some arn, true, some .enabled, some .eccSecgP256K1, some .signVerify⟩)
  getPublicKey := some
    ⟨some arn, some .eccSecgP256K1, some .signVerify, [.ecdsaSha256], some [if arn = "one" then 1 else 2]⟩

def one : KmsSigner (ZMod 13) := ⟨"one", smallFirst, smallFirst_ne⟩
def two : KmsSigner (ZMod 13) := ⟨"two", smallSecond, smallSecond_ne⟩

def pair : SignerPair (ZMod 13) := ⟨one, two, (one.signingKey smallFormats, two.signingKey smallFormats)⟩

def expectedHex : List String :=
  ["0x020000000000000000000000000000000000000000000000000000000000000012",
    "030000000000000000000000000000000000000000000000000000000000000004"]

/-- KMS answers with the high one of the two signatures. -/
def answers : Option SignOutput × Option SignOutput :=
  (some ⟨some "one", some .ecdsaSha256, some [0x30, 6, 2, 1, 12, 2, 1, 12]⟩,
    some ⟨some "two", some .ecdsaSha256, some [0x30, 6, 2, 1, 9, 2, 1, 7]⟩)

/-- The second key is given first. -/
theorem paired : SignerPair.new smallFormats two one = .ok pair := by
  have hdiffer : two.signingKey smallFormats ≠ one.signingKey smallFormats := by decide
  have hlt : smallFormats.address 1 < smallFormats.address 2 :=
    show (smallFormats.address 1).toList < (smallFormats.address 2).toList by decide
  rw [SignerPair.new, address_signingKey, address_signingKey, ensure, if_pos hdiffer]
  exact if_pos hlt

theorem started : Started smallFormats fromSpki key ("two", "one") expectedHex pair :=
  ⟨⟨two, one, rfl, rfl, paired⟩, by decide +kernel⟩

theorem signs : ∃ signed, pair.sign smallFormats answers 6 = .ok signed := by
  have hsome : (pair.sign smallFormats answers 6).toOption.isSome = true := by decide +kernel
  cases h : pair.sign smallFormats answers 6 with
  | ok signed => exact ⟨signed, rfl⟩
  | error e =>
    rw [h] at hsome
    cases hsome

end SmallKeys

theorem configured_signatures_small : ∃ signed p q, SmallKeys.pair.sign smallFormats SmallKeys.answers 6 = .ok signed ∧
    smallFormats.address p ≤ smallFormats.address q ∧
    smallFormats.recover (smallFormats.prehash (digestBytes 6)) signed.1.signature signed.1.recoveryId = some p ∧
    smallFormats.recover (smallFormats.prehash (digestBytes 6)) signed.2.signature signed.2.recoveryId = some q := by
  obtain ⟨signed, hsigned⟩ := SmallKeys.signs
  obtain ⟨-, -, -, -, p, q, -, -, -, -, -, hle, -, -, hp, hq⟩ := configured_signatures SmallKeys.started hsigned
  exact ⟨signed, p, q, hsigned, hle, hp, hq⟩

theorem sign_accepted_small : ∃ signed, SmallKeys.pair.sign smallFormats SmallKeys.answers 6 = .ok signed ∧
    WithdrawalListener.assembleQuorum WithdrawalListener.Local.crates (digestBytes 6)
      [claimOf smallFormats SmallKeys.one signed.1, claimOf smallFormats SmallKeys.two signed.2] =
        .ok ⟨[signed.1.wire smallFormats, signed.2.wire smallFormats]⟩ := by
  obtain ⟨signed, hsigned⟩ := SmallKeys.signs
  have haccepted := sign_accepted WithdrawalListener.Local.recovers SmallKeys.paired hsigned
  have hne : smallFormats.address SmallKeys.two.publicKey.1 ≠ smallFormats.address SmallKeys.one.publicKey.1 := by decide
  exact ⟨signed, hsigned, haccepted.trans (if_neg hne)⟩

end LightAttester
