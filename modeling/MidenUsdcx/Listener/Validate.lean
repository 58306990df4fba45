import MidenUsdcx.Lib.Lines
import MidenUsdcx.Listener.Burn
/-!
# Checking what Circle prepared (`validate.rs:201-441`)

| here | there |
| --- | --- |
| `checkMaxFee`, `checkSpec`, `checkHookData`, `checkIntent` | `validate.rs:260-401` |
| `decodeDigest`, `decodeHex32` | `validate.rs:407-431` |
| `validateReturned` | `validate.rs:234` |

`IntentMatches` is what the checks ask of an intent, as facts about the numbers and bytes its texts spell.
`validateReturned_ok` says that the checks ask for exactly that.
-/
namespace WithdrawalListener
open Checked

/-! ## Texts -/

/-- The number a decimal text spells. -/
def uintValue (text : DecimalUint) : Nat := Lines.decimalValue text.asStr.toList

def U128.size : Nat := 340282366920938463463374607431768211456

/-- `str::parse::<u128>`: one leading plus is allowed. -/
def parseU128 (text : String) : Option Nat :=
  let digits := match text.toList with
    | '+' :: rest => rest
    | digits => digits
  if isDecimalDigits digits = true ∧ Lines.decimalValue digits < U128.size then some (Lines.decimalValue digits) else none

/-- `u128::checked_add`. -/
def checkedAddU128 (a b : Nat) : Option Nat := if a + b < U128.size then some (a + b) else none

/-- `text.strip_prefix("0x").unwrap_or(text)`. -/
def without0x (text : String) : List Char := (strip0x text).getD text.toList

/-- `decode_hex32` (`validate.rs:423`). -/
def decodeHex32 (text : String) : Option Bytes32 := do
  let body ← strip0x text
  let bytes ← Hex.decode body
  Hex.fixed? 32 bytes

/-- `hex32_eq` (`validate.rs:429`). -/
def hex32Eq (text : String) (expected : Bytes32) : Bool := (decodeHex32 text).any (· == expected)

def ZERO_BYTES32 : Bytes32 := Vector.replicate 32 0
def ZERO_HEX20 : String := "0x0000000000000000000000000000000000000000"
def NO_FORWARDING_CALLDATA : String := "0x"

/-! ## The gate -/

/-- `ValidationMismatch` (`error.rs:520`). -/
inductive ValidationMismatch where
  | noBatches
  | emptyBurnIntents (batch : Nat)
  | amount (batch : Nat) (expected : UInt64) (returned : String)
  | destinationDomain (batch : Nat) (expected returned : CircleDomain)
  | destinationRecipient (batch : Nat) (expected returned : String)
  | maxFee (batch : Nat) (ceiling amount : UInt64) (returned : String)
  | destinationCaller (batch : Nat) (expected returned : String)
  | hookData (batch : Nat) (field expected returned : String)
  | missingMessageHash (batch : Nat)
  | malformedMessageHash (batch len : Nat)
deriving DecidableEq, Repr

/-- `ValidatedWithdrawal` (`validate.rs:212`). -/
structure ValidatedWithdrawal where
  digests : List Bytes32
deriving DecidableEq

/-- `decode_digest` (`validate.rs:407`). -/
def decodeDigest (batch : Nat) (hash : String) : Except ValidationMismatch Bytes32 := do
  ensure (hash ≠ "") (.missingMessageHash batch)
  let bytes ← orThrow (Hex.decode (without0x hash)) (.malformedMessageHash batch hash.utf8ByteSize)
  orThrow (Hex.fixed? 32 bytes) (.malformedMessageHash batch bytes.length)

section
variable (C : Crates) (cfg : ListenerConfig) (burn : DiscoveredBurn)

/-- `check_max_fee` (`validate.rs:383`). -/
def checkMaxFee (batch : Nat) (maxFee : String) : Except ValidationMismatch Nat :=
  orThrow ((parseU128 maxFee).filter (· ≤ min cfg.maxWithdrawalFee.toNat burn.amount.toNat))
    (.maxFee batch cfg.maxWithdrawalFee burn.amount maxFee)

/-- `check_hook_data` (`validate.rs:324`). -/
def checkHookData (batch : Nat) (hook : StructuredHookData) : Except ValidationMismatch Unit := do
  ensure (hook.remoteDomain = cfg.midenDomain)
    (.hookData batch "remoteDomain" (C.domainText cfg.midenDomain) (C.domainText hook.remoteDomain))
  ensure (hex32Eq hook.remoteDepositor.asStr (C.toBytes32 burn.depositor))
    (.hookData batch "remoteDepositor" (toHex (C.toBytes32 burn.depositor).toList) hook.remoteDepositor.asStr)
  ensure (hex32Eq hook.remoteToken.asStr (C.toBytes32 cfg.faucetId))
    (.hookData batch "remoteToken" (toHex (C.toBytes32 cfg.faucetId).toList) hook.remoteToken.asStr)
  ensure (eqIgnoreAsciiCase hook.forwardingContractAddress.asStr ZERO_HEX20)
    (.hookData batch "forwardingContractAddress" ZERO_HEX20 hook.forwardingContractAddress.asStr)
  ensure (hook.forwardingCalldata.asStr = NO_FORWARDING_CALLDATA)
    (.hookData batch "forwardingCalldata" NO_FORWARDING_CALLDATA hook.forwardingCalldata.asStr)

/-- `check_spec` (`validate.rs:270`). -/
def checkSpec (batch : Nat) (spec : TransferSpec) (maxFee : Nat) : Except ValidationMismatch Unit := do
  ensure ((parseU128 spec.value.asStr).any fun value =>
      0 < value && checkedAddU128 value maxFee == some burn.amount.toNat)
    (.amount batch burn.amount spec.value.asStr)
  ensure (spec.destinationDomain = burn.payload.destDomain)
    (.destinationDomain batch burn.payload.destDomain spec.destinationDomain)
  ensure (hex32Eq spec.destinationRecipient.asStr burn.payload.destRecipient)
    (.destinationRecipient batch (toHex burn.payload.destRecipient.toList) spec.destinationRecipient.asStr)
  ensure (hex32Eq spec.destinationCaller.asStr ZERO_BYTES32)
    (.destinationCaller batch (toHex ZERO_BYTES32.toList) spec.destinationCaller.asStr)
  checkHookData C cfg burn batch spec.hookData

/-- `check_intent` (`validate.rs:260`). -/
def checkIntent (batch : Nat) (intent : BurnIntent) : Except ValidationMismatch Unit := do
  let maxFee ← checkMaxFee cfg burn batch intent.maxFee.asStr
  checkSpec C cfg burn batch intent.spec maxFee

/-- One round of the loop of `validate_returned` (`validate.rs:245-256`). -/
def checkBatch (batch : Nat) (prepared : PreparedBatch) : Except ValidationMismatch Bytes32 := do
  ensure (prepared.burnIntents ≠ []) (.emptyBurnIntents batch)
  prepared.burnIntents.forM fun intent => checkIntent C cfg burn batch intent
  decodeDigest batch prepared.messageHashToSign

/-- `validate_returned` (`validate.rs:234`). -/
def validateReturned (resp : PrepareWithdrawalResponse) : Except ValidationMismatch ValidatedWithdrawal := do
  ensure (resp.batches ≠ []) .noBatches
  let digests ← resp.batches.zipIdx.mapM fun entry => checkBatch C cfg burn entry.2 entry.1
  pure ⟨digests⟩

end

/-! ## What the gate lets through -/

/-- The hook data names Miden, the burner and the faucet, and forwards nothing. -/
structure HookMatches (C : Crates) (cfg : ListenerConfig) (burn : DiscoveredBurn) (hook : StructuredHookData) :
    Prop where
  domain : hook.remoteDomain = cfg.midenDomain
  depositor : decodeHex32 hook.remoteDepositor.asStr = some (C.toBytes32 burn.depositor)
  token : decodeHex32 hook.remoteToken.asStr = some (C.toBytes32 cfg.faucetId)
  noContract : hook.forwardingContractAddress.asStr = ZERO_HEX20
  noCalldata : hook.forwardingCalldata.asStr = "0x"

/-- The intent pays out the burn, less a fee within the limits. -/
structure IntentMatches (C : Crates) (cfg : ListenerConfig) (burn : DiscoveredBurn) (intent : BurnIntent) : Prop where
  positive : 0 < uintValue intent.spec.value
  total : uintValue intent.spec.value + uintValue intent.maxFee = burn.amount.toNat
  fee : uintValue intent.maxFee ≤ min cfg.maxWithdrawalFee.toNat burn.amount.toNat
  domain : intent.spec.destinationDomain = burn.payload.destDomain
  recipient : decodeHex32 intent.spec.destinationRecipient.asStr = some burn.payload.destRecipient
  anyCaller : decodeHex32 intent.spec.destinationCaller.asStr = some ZERO_BYTES32
  hook : HookMatches C cfg burn intent.spec.hookData

/-- The hash spells these 32 bytes. -/
def DigestOf (hash : String) (digest : Bytes32) : Prop := Hex.decode (without0x hash) = some digest.toList

structure BatchMatches (C : Crates) (cfg : ListenerConfig) (burn : DiscoveredBurn) (prepared : PreparedBatch)
    (digest : Bytes32) : Prop where
  some : prepared.burnIntents ≠ []
  intents : ∀ intent ∈ prepared.burnIntents, IntentMatches C cfg burn intent
  digest : DigestOf prepared.messageHashToSign digest

/-! ### Numbers and bytes -/

/-- A text of digits has no sign to skip. -/
theorem parseU128_eq_some {text : DecimalUint} {n : Nat} :
    parseU128 text.asStr = some n ↔ uintValue text = n ∧ uintValue text < U128.size := by
  have hdigits : isDecimalDigits text.asStr.toList = true := text.ok
  have hskip : parseU128 text.asStr =
      if uintValue text < U128.size then some (uintValue text) else none := by
    unfold parseU128 uintValue
    split
    · rename_i rest hrest
      rw [hrest] at hdigits
      simp [isDecimalDigits, isAsciiDigit] at hdigits
    · simp [hdigits]
  rw [hskip]
  by_cases hfits : uintValue text < U128.size
  · simp [hfits]
  · simp [hfits]

theorem hex32Eq_iff {text : String} {expected : Bytes32} :
    hex32Eq text expected = true ↔ decodeHex32 text = some expected := by
  unfold hex32Eq
  cases decodeHex32 text with
  | none => simp
  | some bytes => simp

theorem decodeDigest_ok {batch : Nat} {hash : String} {digest : Bytes32} :
    decodeDigest batch hash = .ok digest ↔ DigestOf hash digest := by
  simp only [decodeDigest, ensure_bind_ok, orThrow_bind_ok, orThrow_ok, Hex.fixed?_eq_some, DigestOf]
  constructor
  · rintro ⟨-, bytes, hbytes, rfl⟩
    exact hbytes
  · intro h
    refine ⟨?_, _, h, rfl⟩
    rintro rfl
    -- The empty text spells no bytes, and a digest has 32.
    have hlen := congrArg (Option.map List.length) h
    simp [without0x, strip0x, Hex.decode] at hlen

/-- Only a zero is lowered to a zero. -/
theorem eq_zero_of_toLower {c : Char} (h : c.toLower = '0') : c = '0' := by
  by_cases hupper : c.val ≥ 'A'.val ∧ c.val ≤ 'Z'.val
  · have hval : c.toLower.val = c.val + ('a'.val - 'A'.val) := congrArg Char.val (dif_pos hupper)
    rw [h] at hval
    have hlow : 65 ≤ c.val.toNat := UInt32.le_iff_toNat_le.1 hupper.1
    have hhigh : c.val.toNat ≤ 90 := UInt32.le_iff_toNat_le.1 hupper.2
    have hsum : 48 = (c.val.toNat + 32) % 4294967296 := congrArg UInt32.toNat hval
    omega
  · have hsame : c.toLower = c := dif_neg hupper
    rw [← hsame, h]

theorem Hex20.body (address : Hex20) : ∃ body, address.asStr.toList = '0' :: 'x' :: body := by
  have hok := address.ok
  unfold hexBodyOfLen at hok
  split at hok
  · rename_i body hstrip
    exact ⟨body, strip0x_eq_some.1 hstrip⟩
  · cases hok

/-- No character of the zero address has another case. -/
theorem eqIgnoreAsciiCase_zero {address : Hex20} :
    eqIgnoreAsciiCase address.asStr ZERO_HEX20 = true ↔ address.asStr = ZERO_HEX20 := by
  constructor
  · intro h
    obtain ⟨body, htext⟩ := address.body
    have hlower : (address.asStr.map Char.toLower).toList = (ZERO_HEX20.map Char.toLower).toList :=
      congrArg String.toList (beq_iff_eq.1 h)
    rw [String.toList_map, String.toList_map, htext] at hlower
    have hzeros : body.map Char.toLower = List.replicate 40 '0' := (List.cons.inj (List.cons.inj hlower).2).2
    have hbody : body = List.replicate 40 '0' := by
      refine List.eq_replicate_iff.2 ⟨by simpa using congrArg List.length hzeros, fun c hc => eq_zero_of_toLower ?_⟩
      exact List.eq_of_mem_replicate (hzeros ▸ List.mem_map_of_mem hc)
    apply String.toList_inj.1
    rw [htext, hbody]
    rfl
  · intro h
    rw [h, eqIgnoreAsciiCase, beq_self_eq_true]

/-! ### The checks -/

section
variable {C : Crates} {cfg : ListenerConfig} {burn : DiscoveredBurn}

theorem checkHookData_ok {batch : Nat} {hook : StructuredHookData} :
    checkHookData C cfg burn batch hook = .ok () ↔ HookMatches C cfg burn hook := by
  simp only [checkHookData, ensure_bind_ok, ensure_ok, hex32Eq_iff, eqIgnoreAsciiCase_zero]
  constructor
  · rintro ⟨hdomain, hdepositor, htoken, hcontract, hcalldata⟩
    exact ⟨hdomain, hdepositor, htoken, hcontract, hcalldata⟩
  · rintro ⟨hdomain, hdepositor, htoken, hcontract, hcalldata⟩
    exact ⟨hdomain, hdepositor, htoken, hcontract, hcalldata⟩

/-- The amount check, in numbers without a bound. -/
theorem amountMatches_iff {value : DecimalUint} {fee : Nat} :
    ((parseU128 value.asStr).any fun v => 0 < v && checkedAddU128 v fee == some burn.amount.toNat) = true ↔
      0 < uintValue value ∧ uintValue value + fee = burn.amount.toNat := by
  have hamount : burn.amount.toNat < U128.size := Nat.lt_trans burn.amount.toNat_lt (by decide)
  rw [Option.any_eq_true]
  constructor
  · rintro ⟨v, hv, hcheck⟩
    obtain ⟨rfl, -⟩ := parseU128_eq_some.1 hv
    rw [Bool.and_eq_true, decide_eq_true_eq, beq_iff_eq, checkedAddU128] at hcheck
    refine ⟨hcheck.1, ?_⟩
    have hsum := hcheck.2
    split at hsum
    · exact Option.some.inj hsum
    · cases hsum
  · rintro ⟨hpos, htotal⟩
    refine ⟨uintValue value, parseU128_eq_some.2 ⟨rfl, by omega⟩, ?_⟩
    rw [Bool.and_eq_true, decide_eq_true_eq, beq_iff_eq, checkedAddU128, if_pos (by omega), htotal]
    exact ⟨hpos, rfl⟩

theorem checkMaxFee_ok {batch : Nat} {maxFee : DecimalUint} {fee : Nat} :
    checkMaxFee cfg burn batch maxFee.asStr = .ok fee ↔
      uintValue maxFee = fee ∧ uintValue maxFee ≤ min cfg.maxWithdrawalFee.toNat burn.amount.toNat := by
  have hamount : burn.amount.toNat < U128.size := Nat.lt_trans burn.amount.toNat_lt (by decide)
  rw [checkMaxFee, orThrow_ok, Option.filter_eq_some_iff, parseU128_eq_some, decide_eq_true_eq]
  constructor
  · rintro ⟨⟨rfl, -⟩, hle⟩
    exact ⟨rfl, hle⟩
  · rintro ⟨rfl, hle⟩
    exact ⟨⟨rfl, Nat.lt_of_le_of_lt (Nat.le_trans hle (Nat.min_le_right _ _)) hamount⟩, hle⟩

theorem checkIntent_ok {batch : Nat} {intent : BurnIntent} :
    checkIntent C cfg burn batch intent = .ok () ↔ IntentMatches C cfg burn intent := by
  simp only [checkIntent, bind_ok, checkMaxFee_ok]
  simp only [checkSpec, ensure_bind_ok, amountMatches_iff, hex32Eq_iff, checkHookData_ok]
  constructor
  · rintro ⟨fee, ⟨rfl, hfee⟩, ⟨hpos, htotal⟩, hdomain, hrecipient, hcaller, hhook⟩
    exact ⟨hpos, htotal, hfee, hdomain, hrecipient, hcaller, hhook⟩
  · intro h
    exact ⟨_, ⟨rfl, h.fee⟩, ⟨h.positive, h.total⟩, h.domain, h.recipient, h.anyCaller, h.hook⟩

theorem checkBatch_ok {batch : Nat} {prepared : PreparedBatch} {digest : Bytes32} :
    checkBatch C cfg burn batch prepared = .ok digest ↔ BatchMatches C cfg burn prepared digest := by
  rw [checkBatch, ensure_bind_ok, bind_ok]
  simp only [forM_ok, checkIntent_ok, decodeDigest_ok]
  constructor
  · rintro ⟨hsome, -, hintents, hdigest⟩
    exact ⟨hsome, hintents, hdigest⟩
  · intro h
    exact ⟨h.some, (), h.intents, h.digest⟩

/-- **The gate before signing.** Every intent of every batch matches the burn, and each digest is its batch's. -/
theorem validateReturned_ok {resp : PrepareWithdrawalResponse} {validated : ValidatedWithdrawal} :
    validateReturned C cfg burn resp = .ok validated ↔
      resp.batches ≠ [] ∧ List.Forall₂ (BatchMatches C cfg burn) resp.batches validated.digests := by
  have hround : ∀ batch prepared digest,
      checkBatch C cfg burn batch prepared = .ok digest ↔ BatchMatches C cfg burn prepared digest :=
    fun _ _ _ => checkBatch_ok
  rw [validateReturned, ensure_bind_ok, bind_ok]
  simp only [mapM_zipIdx_ok hround, pure_ok]
  constructor
  · rintro ⟨hsome, digests, hdigests, rfl⟩
    exact ⟨hsome, hdigests⟩
  · rintro ⟨hsome, hdigests⟩
    exact ⟨hsome, validated.digests, hdigests, rfl⟩

end

end WithdrawalListener
