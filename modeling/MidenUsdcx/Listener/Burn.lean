import MidenUsdcx.Lib.Hex
import MidenUsdcx.Listener.Wire
/-!
# The burn a note stands for (`note_decode.rs`, `config.rs`, `validate.rs:50-199`)

| here | there |
| --- | --- |
| `Address`, `Signature65`, `recoverAddress` | `attester.rs:107-216`, `380-396` |
| `Crates` | the codec of `xusdc-encoding`, Miden's account and transaction IDs, `k256` |
| `ListenerConfig` | `config.rs:126`, the fields a run reads |
| `decodeBurnPayload`, `readSender` | `note_decode.rs:109-140` |
| `validateDiscovery` | `validate.rs:168` |

`Crates` is left arbitrary. An address is ordered by its bytes, as the derived `Ord` there.
-/
namespace WithdrawalListener
open Checked

abbrev Bytes32 := Vector UInt8 32

/-- An element of Miden's field. -/
abbrev Felt := Fin 18446744069414584321

structure AccountId where
  raw : BitVec 120
deriving DecidableEq

structure NoteId where
  bytes : Bytes32
deriving DecidableEq

structure Nullifier where
  bytes : Bytes32
deriving DecidableEq

structure TransactionId where
  bytes : Bytes32
deriving DecidableEq

abbrev BlockNumber := UInt32

/-- `BurnPayload` (`types.rs:22`). -/
structure BurnPayload where
  destDomain : CircleDomain
  destRecipient : Bytes32
deriving DecidableEq

/-! ## Signatures and signers (`attester.rs`) -/

/-- `Address` (`attester.rs:175`). -/
structure Address where
  bytes : Vector UInt8 20
deriving DecidableEq

instance : LT Address := ⟨fun a b => a.bytes < b.bytes⟩
instance : LE Address := ⟨fun a b => a.bytes ≤ b.bytes⟩
instance : DecidableLT Address := fun a b => inferInstanceAs (Decidable (a.bytes < b.bytes))
instance : DecidableLE Address := fun a b => inferInstanceAs (Decidable (a.bytes ≤ b.bytes))

theorem Address.lt_of_not_le {a b : Address} (h : ¬ b ≤ a) : a < b := by
  have h' : ¬ b.bytes ≤ a.bytes := h
  exact Vector.not_le.1 h'

theorem Address.ne_of_lt {a b : Address} (h : a < b) : a ≠ b := by
  rintro rfl
  exact Vector.lt_irrefl _ h

/-- `Signature65` (`attester.rs:118`). -/
structure Signature65 where
  bytes : Vector UInt8 65
deriving DecidableEq

/-- `Signature65::from_bytes` (`attester.rs:131`), with the length it refuses. -/
def Signature65.fromBytes (bytes : List UInt8) : Except Nat Signature65 :=
  orThrow ((Hex.fixed? 65 bytes).map Signature65.mk) bytes.length

/-- `Signature65::v` (`attester.rs:154`). -/
def Signature65.v (signature : Signature65) : UInt8 := signature.bytes[64]

/-- `format!("0x{}", hex::encode(bytes))`. -/
def toHex (bytes : List UInt8) : String := String.ofList ('0' :: 'x' :: Hex.encode bytes)

/-- What the listener takes from other crates. -/
structure Crates where
  /-- `XReserveBurnItems::decode`. -/
  decodeItems : List Felt → Option BurnPayload
  /-- `AccountId::try_from_elements(suffix, prefix)`. -/
  tryFromElements : Felt → Felt → Option AccountId
  /-- `EthEmbeddedAccountId::from_account_id(..).to_bytes32()`. -/
  toBytes32 : AccountId → Bytes32
  /-- `CircleDomain`'s `Display`. -/
  domainText : CircleDomain → String
  /-- `TransactionId::to_hex`. -/
  transactionIdToHex : TransactionId → String
  /-- The address of the key `k256` recovers from a digest, `r‖s` and a recovery ID (`attester.rs:389-395`). -/
  recoverFromPrehash : Bytes32 → List UInt8 → UInt8 → Option Address

/-- `recover_address` (`attester.rs:380`): only 27 and 28 name a recovery ID. -/
def recoverAddress (C : Crates) (digest : Bytes32) (signature : Signature65) : Option Address :=
  if signature.v = 27 then C.recoverFromPrehash digest (signature.bytes.toList.take 64) 0
  else if signature.v = 28 then C.recoverFromPrehash digest (signature.bytes.toList.take 64) 1
  else none

/-! ## Configuration -/

/-- `ListenerConfig` (`config.rs:126`). The allowlist is asked only for membership and for being empty. -/
structure ListenerConfig where
  faucetId : AccountId
  burnTag : UInt32
  midenDomain : CircleDomain
  maxWithdrawalFee : UInt64
  attesterAllowlist : List Address

/-! ## Discovery -/

/-- `BurnNoteMetadata` (`note_decode.rs:61`): the sender as the pair `(prefix, suffix)`. -/
structure BurnNoteMetadata where
  sender : Option (Felt × Felt)
deriving DecidableEq

/-- `DiscoveredDetails` (`validate.rs:88`). -/
structure DiscoveredDetails where
  items : List Felt
  amount : UInt64
  sender : BurnNoteMetadata
deriving DecidableEq

/-- `DiscoveryRecord` (`validate.rs:62`). -/
structure DiscoveryRecord where
  tag : UInt32
  details : Option DiscoveredDetails
deriving DecidableEq

/-- `DecodeError` (`error.rs:243`). -/
inductive DecodeError where
  | burnItemsMalformed
  | senderAbsent
  | senderZero
  | senderMalformed
deriving DecidableEq, Repr

/-- `DiscoveryReject` (`error.rs:466`). -/
inductive DiscoveryReject where
  | tagMismatch (expected actual : UInt32)
  | privateNoteUnobservable
  | decode (source : DecodeError)
deriving DecidableEq, Repr

/-- `DiscoveredBurn` (`validate.rs:128`). -/
structure DiscoveredBurn where
  payload : BurnPayload
  amount : UInt64
  depositor : AccountId
deriving DecidableEq

section
variable (C : Crates)

/-- `decode_burn_payload` (`note_decode.rs:109`). -/
def decodeBurnPayload (items : List Felt) : Except DecodeError BurnPayload :=
  orThrow (C.decodeItems items) .burnItemsMalformed

/-- `read_sender` (`note_decode.rs:125`). -/
def readSender (metadata : BurnNoteMetadata) : Except DecodeError AccountId := do
  let sender ← orThrow metadata.sender .senderAbsent
  ensure (¬ (sender.1 = 0 ∧ sender.2 = 0)) .senderZero
  orThrow (C.tryFromElements sender.2 sender.1) .senderMalformed

/-- `validate_discovery` (`validate.rs:168`). -/
def validateDiscovery (record : DiscoveryRecord) (cfg : ListenerConfig) : Except DiscoveryReject DiscoveredBurn := do
  ensure (record.tag = cfg.burnTag) (.tagMismatch cfg.burnTag record.tag)
  let details ← orThrow record.details .privateNoteUnobservable
  let payload ← (decodeBurnPayload C details.items).mapError .decode
  let depositor ← (readSender C details.sender).mapError .decode
  pure ⟨payload, details.amount, depositor⟩

end

/-! ## What a discovered burn is -/

/-- The sender felts of a note name an account, and are not both zero. -/
def RealSender (C : Crates) (metadata : BurnNoteMetadata) (account : AccountId) : Prop :=
  ∃ upper suffix, metadata.sender = some (upper, suffix) ∧ ¬ (upper = 0 ∧ suffix = 0) ∧
    C.tryFromElements suffix upper = some account

/-- The burn is what the note's public details say, under the configured tag. -/
structure BurnOf (C : Crates) (cfg : ListenerConfig) (record : DiscoveryRecord) (burn : DiscoveredBurn) : Prop where
  tag : record.tag = cfg.burnTag
  details : ∃ details, record.details = some details ∧ C.decodeItems details.items = some burn.payload ∧
    details.amount = burn.amount ∧ RealSender C details.sender burn.depositor

theorem readSender_ok {C : Crates} {metadata : BurnNoteMetadata} {account : AccountId} :
    readSender C metadata = .ok account ↔ RealSender C metadata account := by
  simp only [readSender, orThrow_bind_ok, ensure_bind_ok, orThrow_ok]
  constructor
  · rintro ⟨⟨upper, suffix⟩, hsender, hzero, hid⟩
    exact ⟨upper, suffix, hsender, hzero, hid⟩
  · rintro ⟨upper, suffix, hsender, hzero, hid⟩
    exact ⟨(upper, suffix), hsender, hzero, hid⟩

theorem validateDiscovery_ok {C : Crates} {cfg : ListenerConfig} {record : DiscoveryRecord} {burn : DiscoveredBurn} :
    validateDiscovery C record cfg = .ok burn ↔ BurnOf C cfg record burn := by
  rw [validateDiscovery, ensure_bind_ok, orThrow_bind_ok]
  simp only [bind_ok, mapError_ok, decodeBurnPayload, orThrow_ok, readSender_ok, pure_ok]
  constructor
  · rintro ⟨htag, details, hdetails, payload, hpayload, depositor, hsender, rfl⟩
    exact ⟨htag, details, hdetails, hpayload, rfl, hsender⟩
  · rintro ⟨htag, details, hdetails, hpayload, hamount, hsender⟩
    exact ⟨htag, details, hdetails, burn.payload, hpayload, burn.depositor, hsender, by rw [hamount]⟩

end WithdrawalListener
