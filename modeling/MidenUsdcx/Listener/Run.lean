import MidenUsdcx.Listener.Evidence
import MidenUsdcx.Listener.Submit
import MidenUsdcx.Listener.Validate
import Mathlib.Data.List.TakeDrop
import Mathlib.Data.List.TakeWhile
/-!
# One withdrawal, from the note to Circle's last word (`listener/mod.rs`)

| here | there |
| --- | --- |
| `assembleQuorum` | `attester.rs:481` |
| `buildPrepareRequest`, `buildWithdrawBatch`, `buildWithdrawRequest` | `withdrawal_api.rs:161-261` |
| `prepare` | `withdrawal_api.rs:283` |
| `authorizeSubmission` | `withdrawal_api.rs:515` |
| `clear` | the stages between the two requests (`mod.rs:478-561`) |
| `settle`, `runOnce` | `mod.rs:456-654` |

The signer port and the evidence reads are arbitrary functions, asked once each. A text that `expect` says is well
formed is built together with the proof.

Left out: the events.
-/
namespace WithdrawalListener
open Checked Interact

/-! ## Texts that are well formed by construction -/

theorem strip0x_toHex (bytes : List UInt8) : strip0x (toHex bytes) = some (Hex.encode bytes) :=
  strip0x_eq_some.2 String.toList_ofList

theorem encode_all (bytes : List UInt8) : (Hex.encode bytes).all isAsciiHexdigit = true :=
  List.all_eq_true.2 fun c hc => (Hex.digitValue_isSome c).symm.trans (Hex.isSome_of_mem_encode hc)

/-- `hex32_of` (`withdrawal_api.rs:265`). -/
def hex32Of (bytes : Bytes32) : Hex32 :=
  ⟨toHex bytes.toList, by
    rw [hexBodyOfLen, strip0x_toHex]
    simp only [Hex.encode_length, Vector.length_toList, encode_all, beq_self_eq_true, Bool.and_self]⟩

/-- `HexBytes::new(signature.to_hex())` (`withdrawal_api.rs:237`). -/
def Signature65.toHexBytes (signature : Signature65) : HexBytes :=
  ⟨toHex signature.bytes.toList, by
    rw [isHex, strip0x_toHex]
    exact encode_all _⟩

theorem isDecimalAmount_repr (n : Nat) : isDecimalAmount none n.repr = true := by
  have hdigit : ∀ c ∈ Nat.toDigits 10 n, isAsciiDigit c = true := by
    intro c hc
    have hc := Nat.isDigit_of_mem_toDigits (by decide) (by decide) hc
    simpa [isAsciiDigit, Char.isDigit, Char.le_def] using hc
  have hdot : ∀ c ∈ Nat.toDigits 10 n, (c != '.') = true := by
    intro c hc
    rw [bne_iff_ne]
    rintro rfl
    exact absurd (hdigit _ hc) (by decide)
  have hsome : Nat.toDigits 10 n ≠ [] := List.ne_nil_of_length_pos Nat.length_toDigits_pos
  have hwhole : isDecimalDigits (Nat.toDigits 10 n) = true := by
    rw [isDecimalDigits, List.all_eq_true.2 hdigit, Bool.and_true, Bool.not_eq_true', List.isEmpty_eq_false_iff]
    exact hsome
  rw [isDecimalAmount, Nat.toList_repr, List.span_eq_takeWhile_dropWhile, List.takeWhile_eq_self_iff.2 hdot,
    List.dropWhile_eq_nil_iff.2 hdot]
  exact hwhole

/-- `DecimalAmount::new(amount.to_string())` (`withdrawal_api.rs:166`). -/
def decimalAmountOf (amount : UInt64) : DecimalAmount := ⟨amount.toNat.repr, isDecimalAmount_repr _⟩

/-! ## The quorum (`attester.rs`) -/

def MIN_SIGNATURE_THRESHOLD : Nat := 2

/-- `QuorumError` (`error.rs:396`). -/
inductive QuorumError where
  | belowThreshold (count need : Nat)
  | aboveThreshold (count need : Nat)
  | signatureDoesNotVerify (index : Nat)
  | duplicateSigner (address : Address)
  | notAscending (index : Nat)
deriving DecidableEq

/-- `QuorumBundle` (`attester.rs:423`). -/
structure QuorumBundle where
  signatures : List Signature65
deriving DecidableEq

abbrev SignerClaim := Address × Signature65

/-- The first signer that a later claim names again (`attester.rs:509-515`). -/
def repeatedSigner : List SignerClaim → Option Address
  | [] => none
  | claim :: rest => if rest.any (·.1 == claim.1) then some claim.1 else repeatedSigner rest

/-- The first index, from `index` on, whose signer is not above the one before (`attester.rs:519-523`). -/
def firstDescent (index : Nat) : List SignerClaim → Option Nat
  | before :: claim :: rest => if claim.1 ≤ before.1 then some index else firstDescent (index + 1) (claim :: rest)
  | _ => none

section
variable (C : Crates)

/-- `assemble_quorum` (`attester.rs:481`). -/
def assembleQuorum (msgHashToSign : Bytes32) (sigs : List SignerClaim) : Except QuorumError QuorumBundle := do
  ensure (MIN_SIGNATURE_THRESHOLD ≤ sigs.length) (.belowThreshold sigs.length MIN_SIGNATURE_THRESHOLD)
  ensure (sigs.length ≤ MIN_SIGNATURE_THRESHOLD) (.aboveThreshold sigs.length MIN_SIGNATURE_THRESHOLD)
  sigs.zipIdx.forM fun entry =>
    ensure (recoverAddress C msgHashToSign entry.1.2 = some entry.1.1) (.signatureDoesNotVerify entry.2)
  refuse ((repeatedSigner sigs).map .duplicateSigner)
  refuse ((firstDescent 1 sigs).map .notAscending)
  pure ⟨sigs.map (·.2)⟩

/-! ## The requests (`withdrawal_api.rs`) -/

/-- `build_prepare_request` (`withdrawal_api.rs:161`). -/
def buildPrepareRequest (burn : DiscoveredBurn) (cfg : ListenerConfig) : Except SchemaError PrepareWithdrawalRequest := do
  let input : PrepareBurnIntentInput :=
    { token := .usdc, valueExcludingFees := none, valueIncludingFees := some (decimalAmountOf burn.amount),
      remoteDomain := cfg.midenDomain, remoteDepositor := hex32Of (C.toBytes32 burn.depositor),
      finalDestinationDomain := burn.payload.destDomain,
      finalDestinationRecipient := hex32Of burn.payload.destRecipient, finalDestinationCaller := none, salt := none,
      useCircleForwarding := false, forwardingOptions := none }
  input.validate
  pure ⟨[input]⟩

/-- `build_withdraw_batch` (`withdrawal_api.rs:227`). -/
def buildWithdrawBatch (burnIntent : BurnIntent) (quorum : QuorumBundle) (burnTxId : String)
    (useCircleForwarding : Bool) : Except SchemaError WithdrawBatch :=
  WithdrawBatch.new [burnIntent] (quorum.signatures.map Signature65.toHexBytes) burnTxId useCircleForwarding

/-- `build_withdraw_request` (`withdrawal_api.rs:259`). -/
def buildWithdrawRequest (batches : List WithdrawBatch) : Except SchemaError WithdrawRequest :=
  WithdrawRequest.new batches

/-- What the answer to the prepare request comes to (`withdrawal_api.rs:288-294`). -/
def preparedOf (circle : CircleClient) (reply : Reply) : Except ListenerError PrepareWithdrawalResponse := do
  let response ← received circle reply
  ensure (response.status = 200) (.http response.status)
  decode circle.serde.prepared response.body "prepare-withdrawal"

/-- `prepare` (`withdrawal_api.rs:283`). -/
def prepare (circle : CircleClient) (request : PrepareWithdrawalRequest) :
    Task ListenerError PrepareWithdrawalResponse := do
  let reply : Reply ← call (.postPrepare request)
  attempt (fun e => e) (preparedOf circle reply)

/-! ## The gate before submitting -/

/-- `SubmitGateError` (`error.rs:675`). -/
inductive SubmitGateError where
  | noAttestersConfigured
  | batchDigestCountMismatch (batches digests : Nat)
  | badSignatureHex (batch index : Nat)
  | malformedSignature (batch index len : Nat)
  | signerUnrecoverable (batch index : Nat)
  | signerNotAllowlisted (batch index : Nat) (signer : Address)
deriving DecidableEq

/-- `AuthorizedWithdrawal` (`withdrawal_api.rs:465`). -/
structure AuthorizedWithdrawal where
  request : WithdrawRequest

/-- `decode_signature_hex` (`withdrawal_api.rs:561`). -/
def decodeSignatureHex (text : String) : Option (List UInt8) := Hex.decode (without0x text)

/-- The body of the inner loop of `authorize_submission` (`withdrawal_api.rs:537-555`). -/
def checkSigner (allowlist : List Address) (digest : Bytes32) (batch index : Nat) (signatureHex : HexBytes) :
    Except SubmitGateError Unit := do
  let bytes ← orThrow (decodeSignatureHex signatureHex.asStr) (.badSignatureHex batch index)
  let signature ← (Signature65.fromBytes bytes).mapError (.malformedSignature batch index)
  let signer ← orThrow (recoverAddress C digest signature) (.signerUnrecoverable batch index)
  ensure (signer ∈ allowlist) (.signerNotAllowlisted batch index signer)

/-- `authorize_submission` (`withdrawal_api.rs:515`). -/
def authorizeSubmission (request : WithdrawRequest) (validated : ValidatedWithdrawal) (config : ListenerConfig) :
    Except SubmitGateError AuthorizedWithdrawal := do
  ensure (config.attesterAllowlist ≠ []) .noAttestersConfigured
  ensure (request.batches.length = validated.digests.length)
    (.batchDigestCountMismatch request.batches.length validated.digests.length)
  (request.batches.zip validated.digests).zipIdx.forM fun entry =>
    entry.1.1.burnSignatures.zipIdx.forM fun signature =>
      checkSigner C config.attesterAllowlist entry.1.2 entry.2 signature.2 signature.1
  pure ⟨request⟩

end

/-! ## The run -/

/-- `SignError` (`error.rs:312`). -/
inductive SignError where
  | digestLength (actual : Nat)
  | ecdsa
  | unrepresentableRecoveryId (recoveryId : UInt8)
deriving DecidableEq, Repr

/-- `DiscoveredNote` (`mod.rs:144`). -/
structure DiscoveredNote where
  noteId : NoteId
  record : DiscoveryRecord

/-- `RunContext` (`mod.rs:326`). -/
structure RunContext where
  crates : Crates
  config : ListenerConfig
  circle : CircleClient
  /-- `QuorumSigner::sign_batches` (`mod.rs:186`). -/
  signer : ValidatedWithdrawal → Except SignError (List (List SignerClaim))
  evidence : BurnEvidenceReads

/-- `RunError` (`listener/error.rs:28`). -/
inductive RunError where
  | discovery (source : DiscoveryReject)
  | request (source : SchemaError)
  | circle (source : ListenerError)
  | validation (source : ValidationMismatch)
  | batchCardinality (returned : Nat)
  | intentCardinality (returned : Nat)
  | sign (source : SignError)
  | signerCardinality (batches signed : Nat)
  | quorum (source : QuorumError)
  | evidence (source : EvidenceError)
  | gate (source : SubmitGateError)
  | submit (source : SubmitError)
deriving DecidableEq

/-- `ReconciliationReason` (`mod.rs:410`). -/
inductive ReconciliationReason where
  | conflictNamedNoWithdrawal
  | echoMismatch (echoed : String)
deriving DecidableEq

/-- `Outcome` (`mod.rs:373`). -/
inductive Outcome where
  | withdrawn (burnTxId withdrawalId : String) (status : WithdrawalStatus)
  | conflictRecovered (burnTxId withdrawalId : String) (status : WithdrawalStatus)
  | alreadySubmitted (burnTxId : String) (status : SubmissionStatus)
  | reconciliationRequired (burnTxId : String) (reason : ReconciliationReason)
deriving DecidableEq

section
variable (ctx : RunContext)

/-- From Circle's prepared intents to an authorized request, with its `burnTxId` (`mod.rs:478-561`). A count check
and the index after it are one `sole`; there is a digest for each batch. -/
def clear (noteId : NoteId) (burn : DiscoveredBurn) (request : PrepareWithdrawalRequest)
    (response : PrepareWithdrawalResponse) : Except RunError (String × AuthorizedWithdrawal) := do
  let validated ← (validateReturned ctx.crates ctx.config burn response).mapError .validation
  let digest ← sole validated.digests .batchCardinality
  let prepared ← sole response.batches .batchCardinality
  let intent ← sole prepared.burnIntents .intentCardinality
  let claims ← (ctx.signer validated).mapError .sign
  let claims ← sole claims (.signerCardinality validated.digests.length)
  let quorum ← (assembleQuorum ctx.crates digest claims).mapError .quorum
  let evidence ← (assembleEvidence ctx.crates ctx.evidence noteId ctx.config.faucetId).mapError .evidence
  let batch ← (buildWithdrawBatch intent quorum evidence.burnTxId
    ((request.batches.map (·.useCircleForwarding)).headD false)).mapError .request
  let built ← (buildWithdrawRequest [batch]).mapError .request
  let authorized ← (authorizeSubmission ctx.crates built validated ctx.config).mapError .gate
  pure (evidence.burnTxId, authorized)

/-- `settle` (`mod.rs:575`). -/
def settle (burnTxId : String) : SubmitOutcome → Task RunError Outcome
  | .submitted statuses => do
    -- `statuses[0]`: an empty array was refused when the 201 was decoded
    let created ← attempt (fun e => e) (orThrow statuses.head? (.circle (.withdrawResponseCardinality 1 0)))
    let status ← (pollStatus ctx.circle created.withdrawalId).adapt .circle
    if eqIgnoreAsciiCase status.burnTxId.asStr burnTxId then do
      if status.status = .finalized then
        (recordAs .finalized (.new burnTxId) (some status.withdrawalId.asStr)).adapt .submit
      pure (.withdrawn burnTxId created.withdrawalId.asStr status)
    else pure (.reconciliationRequired burnTxId (.echoMismatch status.burnTxId.asStr))
  | .conflictRecovered withdrawalId status => pure (.conflictRecovered burnTxId withdrawalId.asStr status)
  | .reconciliationRequired burnTxId => pure (.reconciliationRequired burnTxId .conflictNamedNoWithdrawal)
  | .conflictEchoMismatch _ echoed => pure (.reconciliationRequired burnTxId (.echoMismatch echoed))
  | .alreadySubmitted burnTxId status => pure (.alreadySubmitted burnTxId status)

/-- `run_once` (`mod.rs:456`). -/
def runOnce (discovered : DiscoveredNote) : Task RunError Outcome := do
  let burn ← attempt .discovery (validateDiscovery ctx.crates discovered.record ctx.config)
  let request ← attempt .request (buildPrepareRequest ctx.crates burn ctx.config)
  let response ← (prepare ctx.circle request).adapt .circle
  let cleared ← attempt (fun e => e) (clear ctx discovered.noteId burn request response)
  let outcome ← (submitWithdraw ctx.circle cleared.2.request).adapt .submit
  settle ctx cleared.1 outcome

end

end WithdrawalListener
