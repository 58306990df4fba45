import MidenUsdcx.Lib.Checked
/-!
# Circle's wire types (`circle/wire.rs`, `circle/schema/`)

| here | there |
| --- | --- |
| `WireString` and its instances | the `wire_string!` newtypes (`wire.rs:138-304`) |
| `BurnIntent`, `PreparedBatch`, `PrepareWithdrawalResponse` | `schema/intents.rs` |
| `PrepareBurnIntentInput`, `PrepareWithdrawalRequest` | `schema/prepare.rs` |
| `WithdrawBatch`, `WithdrawRequest`, `WithdrawConflict`, `WithdrawalStatus` | `schema/withdraw.rs` |

A pattern of the schema is a check on the text, and a value of the type carries its proof, as serde
runs the same constructor there. The checks are on characters here and on bytes there; all of them
ask for ASCII only, where the two agree. `encoded`, `messageHashToSign` and the `burnTxId` of a request
have no pattern.
-/
namespace WithdrawalListener
open Checked

abbrev CircleDomain := UInt32

/-- `SchemaError` (`wire.rs:41`), as far as a value built here can be refused. -/
inductive SchemaError where
  | valueXor
  | remoteDomainBelowMinimum (domain : CircleDomain)
  | domainsMustDiffer (domain : CircleDomain)
  | batchCountOutOfRange (count : Nat)
  | burnIntentCountOutOfRange (count : Nat)
  | signatureCountBelowThreshold (count : Nat)
deriving DecidableEq, Repr

/-! ## Text with a pattern -/

/-- A text that passed the check of its type (`wire_string!`). -/
structure WireString (check : String → Bool) where
  asStr : String
  ok : check asStr = true
deriving DecidableEq

/-- `u8::is_ascii_hexdigit`. -/
def isAsciiHexdigit (c : Char) : Bool :=
  ('0' ≤ c && c ≤ '9') || ('a' ≤ c && c ≤ 'f') || ('A' ≤ c && c ≤ 'F')

/-- `u8::is_ascii_digit`. -/
def isAsciiDigit (c : Char) : Bool := '0' ≤ c && c ≤ '9'

/-- `value.strip_prefix("0x")`. -/
def strip0x (value : String) : Option (List Char) :=
  match value.toList with
  | '0' :: 'x' :: body => some body
  | _ => none

theorem strip0x_eq_some {text : String} {body : List Char} :
    strip0x text = some body ↔ text.toList = '0' :: 'x' :: body := by
  unfold strip0x
  split
  · rename_i rest hrest
    rw [hrest]
    simp
  · rename_i hother
    constructor
    · intro h
      cases h
    · intro h
      exact absurd h (hother body)

/-- `hex_body_of_len` (`wire.rs:186`). -/
def hexBodyOfLen (digits : Nat) (value : String) : Bool :=
  match strip0x value with
  | some body => body.length == digits && body.all isAsciiHexdigit
  | none => false

/-- `is_hex` (`wire.rs:192`). -/
def isHex (value : String) : Bool :=
  match strip0x value with
  | some body => body.all isAsciiHexdigit
  | none => false

/-- `is_decimal_digits` (`wire.rs:198`). -/
def isDecimalDigits (value : List Char) : Bool := !value.isEmpty && value.all isAsciiDigit

/-- `is_decimal_amount` (`wire.rs:204`). -/
def isDecimalAmount (maxPlaces : Option Nat) (value : String) : Bool :=
  match value.toList.span (· != '.') with
  | (whole, []) => isDecimalDigits whole
  | (whole, _ :: frac) => isDecimalDigits whole && isDecimalDigits frac && maxPlaces.all (frac.length ≤ ·)

def isCalldata (value : String) : Bool :=
  match strip0x value with
  | none => false
  | some [] => true
  | some body => 8 ≤ body.length && body.all isAsciiHexdigit

def isUuid (value : String) : Bool :=
  let groups := value.toList.splitOn '-'
  groups.map List.length == [8, 4, 4, 4, 12] && groups.all (·.all isAsciiHexdigit)

abbrev Hex32 := WireString (hexBodyOfLen 64)
abbrev Hex20 := WireString (hexBodyOfLen 40)
abbrev HexBytes := WireString isHex
abbrev HexTxId := WireString fun value => isHex value && decide (2 < value.length)
abbrev Calldata := WireString isCalldata
abbrev DecimalUint := WireString fun value => isDecimalDigits value.toList
abbrev DecimalAmount := WireString (isDecimalAmount none)
abbrev ForwardingFee := WireString (isDecimalAmount (some 6))
abbrev Uuid := WireString isUuid

/-- `str::eq_ignore_ascii_case`. -/
def eqIgnoreAsciiCase (a b : String) : Bool := a.toLower == b.toLower

/-! ## Preparing (`schema/intents.rs`, `schema/prepare.rs`) -/

/-- `StructuredHookData` (`intents.rs:187`). -/
structure StructuredHookData where
  remoteDomain : CircleDomain
  remoteDepositor : Hex32
  remoteToken : Hex32
  forwardingContractAddress : Hex20
  forwardingCalldata : Calldata
deriving DecidableEq

/-- `TransferSpec` (`intents.rs:93`). -/
structure TransferSpec where
  version : UInt32
  sourceDomain : CircleDomain
  destinationDomain : CircleDomain
  sourceContract : Hex32
  destinationContract : Hex32
  sourceToken : Hex32
  destinationToken : Hex32
  sourceDepositor : Hex32
  destinationRecipient : Hex32
  sourceSigner : Hex32
  destinationCaller : Hex32
  value : DecimalUint
  salt : Hex32
  hookData : StructuredHookData
deriving DecidableEq

/-- `BurnIntent` (`intents.rs:61`). -/
structure BurnIntent where
  maxBlockHeight : DecimalUint
  maxFee : DecimalUint
  spec : TransferSpec
deriving DecidableEq

/-- `PreparedBatch` (`intents.rs:26`). -/
structure PreparedBatch where
  burnIntents : List BurnIntent
  encoded : String
  messageHashToSign : String
deriving DecidableEq

structure PrepareWithdrawalResponse where
  batches : List PreparedBatch
deriving DecidableEq

/-- The one member of `Token`. -/
inductive Token where
  | usdc
deriving DecidableEq

/-- `ForwardingOptions` (`prepare.rs:253`). -/
structure ForwardingOptions where
  maxFee : Option ForwardingFee
  hookData : Option HexBytes
  usesFastFinality : Option Bool
deriving DecidableEq

/-- `PrepareBurnIntentInput` (`prepare.rs:49`). -/
structure PrepareBurnIntentInput where
  token : Token
  valueExcludingFees : Option DecimalAmount
  valueIncludingFees : Option DecimalAmount
  remoteDomain : CircleDomain
  remoteDepositor : Hex32
  finalDestinationDomain : CircleDomain
  finalDestinationRecipient : Hex32
  finalDestinationCaller : Option Hex32
  salt : Option Hex32
  useCircleForwarding : Bool
  forwardingOptions : Option ForwardingOptions
deriving DecidableEq

/-- `PrepareBurnIntentInput::validate` (`prepare.rs:186`). -/
def PrepareBurnIntentInput.validate (input : PrepareBurnIntentInput) : Except SchemaError Unit := do
  ensure (input.valueExcludingFees.isSome ≠ input.valueIncludingFees.isSome) .valueXor
  ensure (1 ≤ input.remoteDomain) (.remoteDomainBelowMinimum input.remoteDomain)
  ensure (input.remoteDomain ≠ input.finalDestinationDomain) (.domainsMustDiffer input.remoteDomain)

structure PrepareWithdrawalRequest where
  batches : List PrepareBurnIntentInput
deriving DecidableEq

/-! ## Submitting (`schema/withdraw.rs`) -/

/-- `WithdrawBatch` (`withdraw.rs:73`). -/
structure WithdrawBatch where
  burnIntents : List BurnIntent
  burnSignatures : List HexBytes
  burnTxId : String
  useCircleForwarding : Bool
  intentCount : 1 ≤ burnIntents.length ∧ burnIntents.length ≤ 10
  signatureCount : 2 ≤ burnSignatures.length
deriving DecidableEq

/-- `WithdrawBatch::new` (`withdraw.rs:113`). -/
def WithdrawBatch.new (burnIntents : List BurnIntent) (burnSignatures : List HexBytes) (burnTxId : String)
    (useCircleForwarding : Bool) : Except SchemaError WithdrawBatch :=
  if hi : 1 ≤ burnIntents.length ∧ burnIntents.length ≤ 10 then
    if hs : 2 ≤ burnSignatures.length then
      .ok ⟨burnIntents, burnSignatures, burnTxId, useCircleForwarding, hi, hs⟩
    else .error (.signatureCountBelowThreshold burnSignatures.length)
  else .error (.burnIntentCountOutOfRange burnIntents.length)

/-- `WithdrawRequest` (`withdraw.rs:22`). -/
structure WithdrawRequest where
  batches : List WithdrawBatch
  batchCount : 1 ≤ batches.length ∧ batches.length ≤ 5
deriving DecidableEq

/-- `WithdrawRequest::new` (`withdraw.rs:44`). -/
def WithdrawRequest.new (batches : List WithdrawBatch) : Except SchemaError WithdrawRequest :=
  if h : 1 ≤ batches.length ∧ batches.length ≤ 5 then .ok ⟨batches, h⟩
  else .error (.batchCountOutOfRange batches.length)

/-- `WithdrawConflict` (`withdraw.rs:187`): the body of a 409. -/
structure WithdrawConflict where
  withdrawalId : Option Uuid
  burnTxId : HexTxId
deriving DecidableEq

/-- `WithdrawalStatusKind` (`withdraw.rs:319`). -/
inductive WithdrawalStatusKind where
  | created
  | verified
  | confirmed
  | finalized
  | expired
  | failed
deriving DecidableEq, Repr

/-- `WithdrawalStatusKind::is_retryable` (`withdraw.rs:350`). -/
def WithdrawalStatusKind.isRetryable (kind : WithdrawalStatusKind) : Bool := kind == .expired

/-- `WithdrawalStatus` (`withdraw.rs:222`). -/
structure WithdrawalStatus where
  withdrawalId : Uuid
  burnTxId : HexTxId
  status : WithdrawalStatusKind
  attestationPayload : Option HexBytes
  attestation : Option HexBytes
  useCircleForwarding : Bool
  transactionHash : Option Hex32
  failureReason : Option String
  transferSpecHashes : List Hex32
deriving DecidableEq

end WithdrawalListener
