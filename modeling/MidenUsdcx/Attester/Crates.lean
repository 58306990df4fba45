import MidenUsdcx.Attester.Types
/-!
# What the attester takes from other crates

Everything under `Crates` is computed by code outside this repository: JSON text (`serde_json`), the
text forms of fixed-size values, keccak and the EIP-712 hash, the ABI decoder (`alloy`), and Miden's
notes, attachments and block validation. The model leaves all of it arbitrary, so every result holds
whatever these functions return; where one relies on more, it says so in a hypothesis.
-/
namespace LightAttester

structure Crates where
  /-- `serde_json::from_slice::<Value>`. -/
  parseJson : Bytes → Option Json
  /-- `serde_json::from_slice` at the types of `circle.rs`. -/
  parsePrepared : Bytes → Option UnverifiedPrepareResponse
  parseWithdrawal : Bytes → Option WithdrawalResponse
  parseWithdrawals : Bytes → Option (List WithdrawalResponse)
  parseConflict : Bytes → Option ConflictResponse
  /-- The `burnTxId` of the one batch of a saved request (`verify.rs:231-241`). -/
  parseSavedRequest : Bytes → Option String
  /-- `serde_json::to_vec` of the request of `verify.rs:204-213`: the intent, the two signatures and
  the `burnTxId` text. -/
  renderSubmission : Wire.BurnIntent → Signature × Signature → String → Option Bytes
  /-- `reqwest::StatusCode`'s `Display`. -/
  statusText : StatusCode → String
  /-- `FromStr` of the fixed-size words, addresses and byte strings of `alloy`. -/
  parseB256 : String → Option B256
  parseAddress : String → Option Address
  parseBytes : String → Option Bytes
  keccak256 : Bytes → B256
  /-- `eip712_signing_hash` under the domain `GatewayWallet`, version 1 (`verify.rs:652`). -/
  signingHash : Eip712.BurnIntent → B256
  abiDecodeDepositForBurn : Bytes → Option DepositForBurnWithHook
  abiDecodeDepositToRemote : Bytes → Option DepositToRemote
  /-- `EthEmbeddedAccountId::from_account_id(..).to_bytes32()`. -/
  embedAccountId : AccountId → B256
  /-- `CircleDomain::MIDEN`. -/
  midenDomain : UInt32
  /-- `XReserveBurnNote::script_root()`. -/
  burnScriptRoot : B256
  /-- `NetworkAccountTarget::ATTACHMENT_SCHEME`. -/
  networkTargetScheme : Nat
  /-- `XRESERVE_BURN_WITHDRAWAL_ATTACHMENT_SCHEME`. -/
  withdrawalScheme : Nat
  /-- `NetworkAccountTarget::try_from(..)`, with the account it targets. -/
  decodeTarget : Attachment → Option AccountId
  /-- `XUsdcBurnAttachment::try_from(..)`, with its items. -/
  decodeItems : Attachment → Option BurnItems
  /-- `SignedBlock::validate`, against a parent header or on its own. -/
  validate : SignedBlock → Option BlockHeader → Bool

end LightAttester
