import MidenUsdcx.Listener.Patterns
import MidenUsdcx.Listener.Submit
import MidenUsdcx.Lib.Codec
/-!
# Circle's wire, written and read (`circle/wire.rs`, `circle/schema/`)

| here | there |
| --- | --- |
| `wire` | `Serialize` and `Deserialize` of the `wire_string!` newtypes (`wire.rs:166-180`) |
| `tokenCodec`, `statusKindCodec` | those of `Token` (`wire.rs:338-349`) and `WithdrawalStatusKind` (derived) |
| `Fields.optional` | `default`, `deserialize_with = "present_non_null"`, `skip_serializing_if` |
| `Codec.record true` | `deny_unknown_fields` |
| `….codec` | the derived `Serialize` and `Deserialize`, through `try_from` where there is one |
| `Doc` | the schema as it is documented (`schema/mod.rs`, `schema/prepare.rs`, `schema/withdraw.rs`, `wire.rs:45-68`) |

A derived reader of a record takes a map of its fields and also a sequence of them, and `serde_json` gives it
either; the same goes for a unit variant and the object `{"variant": null}`.
-/
namespace WithdrawalListener
open JsonMap Codec

/-- `$name::new` (`wire.rs:149`). -/
def WireString.new {check : String → Bool} (value : String) : Option (WireString check) :=
  if h : check value = true then some ⟨value, h⟩ else none

def wire {check : String → Bool} : Codec (WireString check) := Codec.string.refine (·.asStr) WireString.new

def circleDomain : Codec CircleDomain := .uint32

/-- `Token::new` (`wire.rs:322`). -/
def Token.new (value : String) : Option Token := if value = "USDC" then some .usdc else none

/-- `Token::as_str` (`wire.rs:329`). -/
def Token.asStr : Token → String
  | .usdc => "USDC"

def tokenCodec : Codec Token := Codec.string.refine Token.asStr Token.new

/-- `rename_all = "lowercase"` (`withdraw.rs:318`). -/
def WithdrawalStatusKind.name : WithdrawalStatusKind → String
  | .created => "created"
  | .verified => "verified"
  | .confirmed => "confirmed"
  | .finalized => "finalized"
  | .expired => "expired"
  | .failed => "failed"

def WithdrawalStatusKind.all : List WithdrawalStatusKind :=
  [.created, .verified, .confirmed, .finalized, .expired, .failed]

def statusKindCodec : Codec WithdrawalStatusKind := .word WithdrawalStatusKind.name WithdrawalStatusKind.all

/-! ## Records -/

section
open Fields

def StructuredHookData.codec : Codec StructuredHookData :=
  (Codec.record false <|
    required "remoteDomain" circleDomain <|
    required "remoteDepositor" (wire : Codec Hex32) <|
    required "remoteToken" (wire : Codec Hex32) <|
    required "forwardingContractAddress" (wire : Codec Hex20) <|
    required "forwardingCalldata" (wire : Codec Calldata) done).iso
  (fun h => (h.remoteDomain, h.remoteDepositor, h.remoteToken, h.forwardingContractAddress, h.forwardingCalldata, ()))
  fun (a, b, c, d, e, _) => ⟨a, b, c, d, e⟩

def TransferSpec.codec : Codec TransferSpec :=
  (Codec.record false <|
    required "version" Codec.uint32 <|
    required "sourceDomain" circleDomain <|
    required "destinationDomain" circleDomain <|
    required "sourceContract" (wire : Codec Hex32) <|
    required "destinationContract" (wire : Codec Hex32) <|
    required "sourceToken" (wire : Codec Hex32) <|
    required "destinationToken" (wire : Codec Hex32) <|
    required "sourceDepositor" (wire : Codec Hex32) <|
    required "destinationRecipient" (wire : Codec Hex32) <|
    required "sourceSigner" (wire : Codec Hex32) <|
    required "destinationCaller" (wire : Codec Hex32) <|
    required "value" (wire : Codec DecimalUint) <|
    required "salt" (wire : Codec Hex32) <|
    required "hookData" StructuredHookData.codec done).iso
  (fun s => (s.version, s.sourceDomain, s.destinationDomain, s.sourceContract, s.destinationContract, s.sourceToken,
    s.destinationToken, s.sourceDepositor, s.destinationRecipient, s.sourceSigner, s.destinationCaller, s.value, s.salt,
    s.hookData, ()))
  fun (a, b, c, d, e, f, g, h, i, j, k, l, m, n, _) => ⟨a, b, c, d, e, f, g, h, i, j, k, l, m, n⟩

def BurnIntent.codec : Codec BurnIntent :=
  (Codec.record false <|
    required "maxBlockHeight" (wire : Codec DecimalUint) <|
    required "maxFee" (wire : Codec DecimalUint) <|
    required "spec" TransferSpec.codec done).iso
  (fun b => (b.maxBlockHeight, b.maxFee, b.spec, ()))
  fun (a, b, c, _) => ⟨a, b, c⟩

def PreparedBatch.codec : Codec PreparedBatch :=
  (Codec.record false <|
    required "burnIntents" BurnIntent.codec.list <|
    required "encoded" Codec.string <|
    required "messageHashToSign" Codec.string done).iso
  (fun b => (b.burnIntents, b.encoded, b.messageHashToSign, ()))
  fun (a, b, c, _) => ⟨a, b, c⟩

def PrepareWithdrawalResponse.codec : Codec PrepareWithdrawalResponse :=
  (Codec.record false <| required "batches" PreparedBatch.codec.list done).iso
  (fun r => (r.batches, ()))
  fun (a, _) => ⟨a⟩

def ForwardingOptions.codec : Codec ForwardingOptions :=
  (Codec.record true <|
    optional "maxFee" (wire : Codec ForwardingFee) <|
    optional "hookData" (wire : Codec HexBytes) <|
    optional "usesFastFinality" Codec.boolean done).iso
  (fun o => (o.maxFee, o.hookData, o.usesFastFinality, ()))
  fun (a, b, c, _) => ⟨a, b, c⟩

/-- What `build` returns (`prepare.rs:165`), and `try_from` (`prepare.rs:135`). -/
abbrev BuiltInput := {input : PrepareBurnIntentInput // input.validate = .ok ()}

/-- `try_from` once the fields are read, and `build` once they are set. -/
def BuiltInput.make (input : PrepareBurnIntentInput) : Option BuiltInput :=
  match h : input.validate with
  | .ok () => some ⟨input, h⟩
  | .error _ => none

/-- `PrepareBurnIntentInputRaw` (`prepare.rs:117`), whose keys are those of the input itself. -/
def PrepareBurnIntentInput.fields : Fields (Token × Option DecimalAmount × Option DecimalAmount × CircleDomain × Hex32 ×
    CircleDomain × Hex32 × Option Hex32 × Option Hex32 × Bool × Option ForwardingOptions × Unit) :=
  required "token" tokenCodec <|
  optional "valueExcludingFees" (wire : Codec DecimalAmount) <|
  optional "valueIncludingFees" (wire : Codec DecimalAmount) <|
  required "remoteDomain" circleDomain <|
  required "remoteDepositor" (wire : Codec Hex32) <|
  required "finalDestinationDomain" circleDomain <|
  required "finalDestinationRecipient" (wire : Codec Hex32) <|
  optional "finalDestinationCaller" (wire : Codec Hex32) <|
  optional "salt" (wire : Codec Hex32) <|
  required "useCircleForwarding" Codec.boolean <|
  optional "forwardingOptions" ForwardingOptions.codec done

def BuiltInput.codec : Codec BuiltInput :=
  (Codec.record true PrepareBurnIntentInput.fields).refine
  (fun b => (b.1.token, b.1.valueExcludingFees, b.1.valueIncludingFees, b.1.remoteDomain, b.1.remoteDepositor,
    b.1.finalDestinationDomain, b.1.finalDestinationRecipient, b.1.finalDestinationCaller, b.1.salt,
    b.1.useCircleForwarding, b.1.forwardingOptions, ()))
  fun (a, b, c, d, e, f, g, h, i, j, k, _) => BuiltInput.make ⟨a, b, c, d, e, f, g, h, i, j, k⟩

/-- A request of inputs that were built; `new` (`prepare.rs:26`) takes no others. -/
abbrev BuiltRequest := {request : PrepareWithdrawalRequest // ∀ input ∈ request.batches, input.validate = .ok ()}

def BuiltRequest.codec : Codec BuiltRequest :=
  (Codec.record true <| required "batches" BuiltInput.codec.list done).iso
  (fun r => (r.1.batches.attachWith _ r.2, ()))
  fun (inputs, _) => ⟨⟨inputs.map (·.1)⟩, fun _ h => by obtain ⟨b, -, rfl⟩ := List.mem_map.mp h; exact b.2⟩

/-- `WithdrawBatchRaw` (`withdraw.rs:91`). -/
def WithdrawBatch.fields : Fields (List BurnIntent × List HexBytes × String × Bool × Unit) :=
  required "burnIntents" BurnIntent.codec.list <|
  required "burnSignatures" (wire : Codec HexBytes).list <|
  required "burnTxId" Codec.string <|
  required "useCircleForwarding" Codec.boolean done

def WithdrawBatch.codec : Codec WithdrawBatch :=
  (Codec.record true WithdrawBatch.fields).refine
  (fun b => (b.burnIntents, b.burnSignatures, b.burnTxId, b.useCircleForwarding, ()))
  fun (a, b, c, d, _) => (WithdrawBatch.new a b c d).toOption

/-- `WithdrawRequestRaw` (`withdraw.rs:28`). -/
def WithdrawRequest.fields : Fields (List WithdrawBatch × Unit) := required "batches" WithdrawBatch.codec.list done

def WithdrawRequest.codec : Codec WithdrawRequest :=
  (Codec.record true WithdrawRequest.fields).refine
  (fun r => (r.batches, ()))
  fun (a, _) => (WithdrawRequest.new a).toOption

def WithdrawConflict.codec : Codec WithdrawConflict :=
  (Codec.record false <|
    optional "withdrawalId" (wire : Codec Uuid) <|
    required "burnTxId" (wire : Codec HexTxId) done).iso
  (fun c => (c.withdrawalId, c.burnTxId, ()))
  fun (a, b, _) => ⟨a, b⟩

def WithdrawalStatus.codec : Codec WithdrawalStatus :=
  (Codec.record false <|
    required "withdrawalId" (wire : Codec Uuid) <|
    required "burnTxId" (wire : Codec HexTxId) <|
    required "status" statusKindCodec <|
    optional "attestationPayload" (wire : Codec HexBytes) <|
    optional "attestation" (wire : Codec HexBytes) <|
    required "useCircleForwarding" Codec.boolean <|
    optional "transactionHash" (wire : Codec Hex32) <|
    optional "failureReason" Codec.string <|
    required "transferSpecHashes" (wire : Codec Hex32).list done).iso
  (fun s => (s.withdrawalId, s.burnTxId, s.status, s.attestationPayload, s.attestation, s.useCircleForwarding,
    s.transactionHash, s.failureReason, s.transferSpecHashes, ()))
  fun (a, b, c, d, e, f, g, h, i, _) => ⟨a, b, c, d, e, f, g, h, i⟩

end

/-! ## The documented schema -/

namespace Doc

/-- A text that matches a documented pattern. -/
def pattern (L : Language Char) : Schema := .text fun s => s.toList ∈ L

def hex32 : Schema := pattern (hexPattern 64)
def hex20 : Schema := pattern (hexPattern 40)
def hexBytes : Schema := pattern hexBytesPattern
def hexTxId : Schema := pattern hexTxIdPattern
def calldata : Schema := pattern calldataPattern
def decimalUint : Schema := pattern decimalUintPattern
def decimalAmount : Schema := pattern decimalAmountPattern
def forwardingFee : Schema := pattern forwardingFeePattern
def uuid : Schema := pattern uuidPattern

/-- `string`, with no pattern. -/
def string : Schema := .text fun _ => True

/-- `enum: ["USDC"]`. -/
def token : Schema := .text (· = "USDC")

def status : Schema := .word ["created", "verified", "confirmed", "finalized", "expired", "failed"]

def structuredHookData : Schema := .object false [
  ⟨"remoteDomain", true, .uint32⟩,
  ⟨"remoteDepositor", true, hex32⟩,
  ⟨"remoteToken", true, hex32⟩,
  ⟨"forwardingContractAddress", true, hex20⟩,
  ⟨"forwardingCalldata", true, calldata⟩]

def transferSpec : Schema := .object false [
  ⟨"version", true, .uint32⟩,
  ⟨"sourceDomain", true, .uint32⟩,
  ⟨"destinationDomain", true, .uint32⟩,
  ⟨"sourceContract", true, hex32⟩,
  ⟨"destinationContract", true, hex32⟩,
  ⟨"sourceToken", true, hex32⟩,
  ⟨"destinationToken", true, hex32⟩,
  ⟨"sourceDepositor", true, hex32⟩,
  ⟨"destinationRecipient", true, hex32⟩,
  ⟨"sourceSigner", true, hex32⟩,
  ⟨"destinationCaller", true, hex32⟩,
  ⟨"value", true, decimalUint⟩,
  ⟨"salt", true, hex32⟩,
  ⟨"hookData", true, structuredHookData⟩]

def burnIntent : Schema := .object false [
  ⟨"maxBlockHeight", true, decimalUint⟩,
  ⟨"maxFee", true, decimalUint⟩,
  ⟨"spec", true, transferSpec⟩]

def preparedBatch : Schema := .object false [
  ⟨"burnIntents", true, .array burnIntent⟩,
  ⟨"encoded", true, string⟩,
  ⟨"messageHashToSign", true, string⟩]

def prepareWithdrawalResponse : Schema := .object false [⟨"batches", true, .array preparedBatch⟩]

def forwardingOptions : Schema := .object true [
  ⟨"maxFee", false, forwardingFee⟩,
  ⟨"hookData", false, hexBytes⟩,
  ⟨"usesFastFinality", false, .boolean⟩]

/-- One of the two values, a remote domain of at least 1, and another one to end on. -/
def inputRules (j : Json) : Prop :=
  (j.get? "valueExcludingFees").isSome ≠ (j.get? "valueIncludingFees").isSome ∧
  (∃ n, j.get? "remoteDomain" = some (.int n) ∧ 1 ≤ n) ∧
  j.get? "remoteDomain" ≠ j.get? "finalDestinationDomain"

def inputMembers : List Member := [
  ⟨"token", true, token⟩,
  ⟨"valueExcludingFees", false, decimalAmount⟩,
  ⟨"valueIncludingFees", false, decimalAmount⟩,
  ⟨"remoteDomain", true, .uint32⟩,
  ⟨"remoteDepositor", true, hex32⟩,
  ⟨"finalDestinationDomain", true, .uint32⟩,
  ⟨"finalDestinationRecipient", true, hex32⟩,
  ⟨"finalDestinationCaller", false, hex32⟩,
  ⟨"salt", false, hex32⟩,
  ⟨"useCircleForwarding", true, .boolean⟩,
  ⟨"forwardingOptions", false, forwardingOptions⟩]

def prepareBurnIntentInput : Schema := Schema.where (.object true inputMembers) inputRules

def prepareWithdrawalRequest : Schema := .object true [⟨"batches", true, .array prepareBurnIntentInput⟩]

/-- One to ten burn intents and at least two signatures. -/
def batchRules (j : Json) : Prop :=
  (∃ n ∈ j.items? "burnIntents", 1 ≤ n ∧ n ≤ 10) ∧ ∃ n ∈ j.items? "burnSignatures", 2 ≤ n

def batchMembers : List Member := [
  ⟨"burnIntents", true, .array burnIntent⟩,
  ⟨"burnSignatures", true, .array hexBytes⟩,
  ⟨"burnTxId", true, string⟩,
  ⟨"useCircleForwarding", true, .boolean⟩]

def withdrawBatch : Schema := Schema.where (.object true batchMembers) batchRules

/-- One to five batches. -/
def requestRules (j : Json) : Prop := ∃ n ∈ j.items? "batches", 1 ≤ n ∧ n ≤ 5

def withdrawRequest : Schema := Schema.where (.object true [⟨"batches", true, .array withdrawBatch⟩]) requestRules

def withdrawConflict : Schema := .object false [
  ⟨"withdrawalId", false, uuid⟩,
  ⟨"burnTxId", true, hexTxId⟩]

def withdrawalStatus : Schema := .object false [
  ⟨"withdrawalId", true, uuid⟩,
  ⟨"burnTxId", true, hexTxId⟩,
  ⟨"status", true, status⟩,
  ⟨"attestationPayload", false, hexBytes⟩,
  ⟨"attestation", false, hexBytes⟩,
  ⟨"useCircleForwarding", true, .boolean⟩,
  ⟨"transactionHash", false, hex32⟩,
  ⟨"failureReason", false, string⟩,
  ⟨"transferSpecHashes", true, .array hex32⟩]

end Doc

/-! ## What is read is what is documented -/

section
variable {check : String → Bool}

theorem wire_meets {L : Language Char} (h : ∀ value, check value = true ↔ value.toList ∈ L) :
    (wire : Codec (WireString check)).Meets (Doc.pattern L) := by
  refine text_meets (fun b => dif_pos b.ok) (fun s b hb => ?_) fun s => ?_
  · by_cases hs : check s = true
    · rw [WireString.new, dif_pos hs] at hb
      cases hb
      rfl
    · rw [WireString.new, dif_neg hs] at hb
      cases hb
  · rw [← h s, WireString.new]
    by_cases hs : check s = true
    · simp [hs]
    · simp [hs]

theorem hex32_meets : (wire : Codec Hex32).Meets Doc.hex32 := wire_meets (hex_iff 64)
theorem hex20_meets : (wire : Codec Hex20).Meets Doc.hex20 := wire_meets (hex_iff 40)
theorem hexBytes_meets : (wire : Codec HexBytes).Meets Doc.hexBytes := wire_meets hexBytes_iff
theorem hexTxId_meets : (wire : Codec HexTxId).Meets Doc.hexTxId := wire_meets hexTxId_iff
theorem calldata_meets : (wire : Codec Calldata).Meets Doc.calldata := wire_meets calldata_iff
theorem decimalUint_meets : (wire : Codec DecimalUint).Meets Doc.decimalUint := wire_meets decimalUint_iff
theorem decimalAmount_meets : (wire : Codec DecimalAmount).Meets Doc.decimalAmount := wire_meets decimalAmount_iff
theorem forwardingFee_meets : (wire : Codec ForwardingFee).Meets Doc.forwardingFee := wire_meets forwardingFee_iff
theorem uuid_meets : (wire : Codec Uuid).Meets Doc.uuid := wire_meets uuid_iff

theorem token_meets : tokenCodec.Meets Doc.token := by
  refine text_meets (fun b => rfl) (fun s b hb => ?_) fun s => ?_
  · by_cases hs : s = "USDC"
    · rw [hs]
      cases b
      rfl
    · rw [Token.new, if_neg hs] at hb
      cases hb
  · by_cases hs : s = "USDC"
    · simp [Token.new, hs]
    · simp [Token.new, hs]

theorem statusKind_meets : statusKindCodec.Meets Doc.status :=
  word_meets (by intro a; cases a <;> decide) (by intro a b; cases a <;> cases b <;> decide)

theorem circleDomain_meets : circleDomain.Meets .uint32 := uint32_meets

end

section
open Fields

theorem structuredHookData_meets : StructuredHookData.codec.Meets Doc.structuredHookData := by
  refine iso_meets (record_meets ?_ (by decide)) (fun _ => rfl) fun _ => rfl
  exact required_meets (by decide) circleDomain_meets <| required_meets (by decide) hex32_meets <|
    required_meets (by decide) hex32_meets <| required_meets (by decide) hex20_meets <|
    required_meets (by decide) calldata_meets done_meets

theorem transferSpec_meets : TransferSpec.codec.Meets Doc.transferSpec := by
  refine iso_meets (record_meets ?_ (by decide)) (fun _ => rfl) fun _ => rfl
  exact required_meets (by decide) uint32_meets <| required_meets (by decide) circleDomain_meets <|
    required_meets (by decide) circleDomain_meets <| required_meets (by decide) hex32_meets <|
    required_meets (by decide) hex32_meets <| required_meets (by decide) hex32_meets <|
    required_meets (by decide) hex32_meets <| required_meets (by decide) hex32_meets <|
    required_meets (by decide) hex32_meets <| required_meets (by decide) hex32_meets <|
    required_meets (by decide) hex32_meets <| required_meets (by decide) decimalUint_meets <|
    required_meets (by decide) hex32_meets <| required_meets (by decide) structuredHookData_meets done_meets

theorem burnIntent_meets : BurnIntent.codec.Meets Doc.burnIntent := by
  refine iso_meets (record_meets ?_ (by decide)) (fun _ => rfl) fun _ => rfl
  exact required_meets (by decide) decimalUint_meets <| required_meets (by decide) decimalUint_meets <|
    required_meets (by decide) transferSpec_meets done_meets

theorem preparedBatch_meets : PreparedBatch.codec.Meets Doc.preparedBatch := by
  refine iso_meets (record_meets ?_ (by decide)) (fun _ => rfl) fun _ => rfl
  exact required_meets (by decide) (list_meets burnIntent_meets) <| required_meets (by decide) string_meets <|
    required_meets (by decide) string_meets done_meets

theorem prepareWithdrawalResponse_meets : PrepareWithdrawalResponse.codec.Meets Doc.prepareWithdrawalResponse := by
  refine iso_meets (record_meets ?_ (by decide)) (fun _ => rfl) fun _ => rfl
  exact required_meets (by decide) (list_meets preparedBatch_meets) done_meets

theorem forwardingOptions_meets : ForwardingOptions.codec.Meets Doc.forwardingOptions := by
  refine iso_meets (record_meets ?_ (by decide)) (fun _ => rfl) fun _ => rfl
  exact optional_meets (by decide) forwardingFee_meets <| optional_meets (by decide) hexBytes_meets <|
    optional_meets (by decide) boolean_meets done_meets

theorem withdrawConflict_meets : WithdrawConflict.codec.Meets Doc.withdrawConflict := by
  refine iso_meets (record_meets ?_ (by decide)) (fun _ => rfl) fun _ => rfl
  exact optional_meets (by decide) uuid_meets <| required_meets (by decide) hexTxId_meets done_meets

theorem withdrawalStatus_meets : WithdrawalStatus.codec.Meets Doc.withdrawalStatus := by
  refine iso_meets (record_meets ?_ (by decide)) (fun _ => rfl) fun _ => rfl
  exact required_meets (by decide) uuid_meets <| required_meets (by decide) hexTxId_meets <|
    required_meets (by decide) statusKind_meets <| optional_meets (by decide) hexBytes_meets <|
    optional_meets (by decide) hexBytes_meets <| required_meets (by decide) boolean_meets <|
    optional_meets (by decide) hex32_meets <| optional_meets (by decide) string_meets <|
    required_meets (by decide) (list_meets hex32_meets) done_meets

theorem withdrawBatch_fields : WithdrawBatch.fields.Meets Doc.batchMembers :=
  required_meets (by decide) (list_meets burnIntent_meets) <| required_meets (by decide) (list_meets hexBytes_meets) <|
    required_meets (by decide) string_meets <| required_meets (by decide) boolean_meets done_meets

theorem WithdrawBatch.new_ok {intents : List BurnIntent} {signatures : List HexBytes} {burnTxId : String}
    {forwarding : Bool} :
    (WithdrawBatch.new intents signatures burnTxId forwarding).toOption.isSome = true ↔
      (1 ≤ intents.length ∧ intents.length ≤ 10) ∧ 2 ≤ signatures.length := by
  unfold WithdrawBatch.new
  by_cases hi : 1 ≤ intents.length ∧ intents.length ≤ 10
  · by_cases hs : 2 ≤ signatures.length
    · rw [dif_pos hi, dif_pos hs]
      exact iff_of_true rfl ⟨hi, hs⟩
    · rw [dif_pos hi, dif_neg hs]
      exact iff_of_false Bool.false_ne_true fun h => hs h.2
  · rw [dif_neg hi]
    exact iff_of_false Bool.false_ne_true fun h => hi h.1

theorem withdrawBatch_meets : WithdrawBatch.codec.Meets Doc.withdrawBatch := by
  refine refine_meets (record_meets withdrawBatch_fields (by decide)) (fun b => ?_) (fun a b hb => ?_) fun j a ha => ?_
  · show (WithdrawBatch.new _ _ _ _).toOption = some b
    rw [WithdrawBatch.new, dif_pos b.intentCount, dif_pos b.signatureCount]
    rfl
  · obtain ⟨intents, signatures, burnTxId, forwarding, _⟩ := a
    have hb : (WithdrawBatch.new intents signatures burnTxId forwarding).toOption = some b := hb
    obtain ⟨hi, hs⟩ := WithdrawBatch.new_ok.mp (by rw [hb]; rfl)
    rw [WithdrawBatch.new, dif_pos hi, dif_pos hs] at hb
    cases hb
    rfl
  · obtain ⟨intents, signatures, burnTxId, forwarding, _⟩ := a
    have hintents := Json.items?_of_trim (record_member withdrawBatch_fields (by decide) ha
      (m := ⟨"burnIntents", true, .array Doc.burnIntent⟩) (by simp [Doc.batchMembers]))
    have hsignatures := Json.items?_of_trim (record_member withdrawBatch_fields (by decide) ha
      (m := ⟨"burnSignatures", true, .array Doc.hexBytes⟩) (by simp [Doc.batchMembers]))
    show (WithdrawBatch.new intents signatures burnTxId forwarding).toOption.isSome = true ↔
      Doc.batchRules (Schema.namedMembers Doc.batchMembers j)
    rw [WithdrawBatch.new_ok, Doc.batchRules, hintents, hsignatures, List.length_map, List.length_map]
    simp only [Option.mem_def, Option.some.injEq, exists_eq_left']

theorem withdrawRequest_fields : WithdrawRequest.fields.Meets [⟨"batches", true, .array Doc.withdrawBatch⟩] :=
  required_meets (by decide) (list_meets withdrawBatch_meets) done_meets

theorem WithdrawRequest.new_ok {batches : List WithdrawBatch} :
    (WithdrawRequest.new batches).toOption.isSome = true ↔ 1 ≤ batches.length ∧ batches.length ≤ 5 := by
  unfold WithdrawRequest.new
  by_cases h : 1 ≤ batches.length ∧ batches.length ≤ 5
  · rw [dif_pos h]
    exact iff_of_true rfl h
  · rw [dif_neg h]
    exact iff_of_false Bool.false_ne_true h

theorem withdrawRequest_meets : WithdrawRequest.codec.Meets Doc.withdrawRequest := by
  refine refine_meets (record_meets withdrawRequest_fields (by decide)) (fun r => ?_) (fun a r hr => ?_)
    fun j a ha => ?_
  · show (WithdrawRequest.new _).toOption = some r
    rw [WithdrawRequest.new, dif_pos r.batchCount]
    rfl
  · obtain ⟨batches, _⟩ := a
    have hr : (WithdrawRequest.new batches).toOption = some r := hr
    have hcount := WithdrawRequest.new_ok.mp (by rw [hr]; rfl)
    rw [WithdrawRequest.new, dif_pos hcount] at hr
    cases hr
    rfl
  · obtain ⟨batches, _⟩ := a
    have hbatches := Json.items?_of_trim (record_member withdrawRequest_fields (by decide) ha List.mem_cons_self)
    show (WithdrawRequest.new batches).toOption.isSome = true ↔ Doc.requestRules (Schema.namedMembers _ j)
    rw [WithdrawRequest.new_ok, Doc.requestRules, hbatches, List.length_map]
    simp only [Option.mem_def, Option.some.injEq, exists_eq_left']

/-! ## What the partner authors -/

theorem input_fields : PrepareBurnIntentInput.fields.Meets Doc.inputMembers :=
  required_meets (by decide) token_meets <| optional_meets (by decide) decimalAmount_meets <|
    optional_meets (by decide) decimalAmount_meets <| required_meets (by decide) circleDomain_meets <|
    required_meets (by decide) hex32_meets <| required_meets (by decide) circleDomain_meets <|
    required_meets (by decide) hex32_meets <| optional_meets (by decide) hex32_meets <|
    optional_meets (by decide) hex32_meets <| required_meets (by decide) boolean_meets <|
    optional_meets (by decide) forwardingOptions_meets done_meets

theorem validate_ok {input : PrepareBurnIntentInput} {u : Unit} :
    input.validate = .ok u ↔ input.valueExcludingFees.isSome ≠ input.valueIncludingFees.isSome ∧
      1 ≤ input.remoteDomain ∧ input.remoteDomain ≠ input.finalDestinationDomain := by
  simp only [PrepareBurnIntentInput.validate, Checked.ensure_bind_ok, Checked.ensure_ok]

theorem BuiltInput.make_ok {input : PrepareBurnIntentInput} :
    (BuiltInput.make input).isSome = true ↔ input.validate = .ok () := by
  unfold BuiltInput.make
  split
  · rename_i h
    exact iff_of_true rfl h
  · rename_i h
    exact iff_of_false Bool.false_ne_true fun hok => by rw [hok] at h; cases h

theorem BuiltInput.make_eq {input : PrepareBurnIntentInput} {b : BuiltInput} (h : BuiltInput.make input = some b) :
    b.1 = input := by
  unfold BuiltInput.make at h
  split at h
  · cases h
    rfl
  · cases h

/-- The rules on a document are those on the input read from it. -/
theorem inputRules_iff {j : Json} {input : PrepareBurnIntentInput}
    (hexcluding : (j.get? "valueExcludingFees").isSome = input.valueExcludingFees.isSome)
    (hincluding : (j.get? "valueIncludingFees").isSome = input.valueIncludingFees.isSome)
    (hremote : j.get? "remoteDomain" = some (.int input.remoteDomain.toNat))
    (hfinal : j.get? "finalDestinationDomain" = some (.int input.finalDestinationDomain.toNat)) :
    Doc.inputRules j ↔ input.validate = .ok () := by
  have hleast : (1 : Int) ≤ input.remoteDomain.toNat ↔ 1 ≤ input.remoteDomain := by
    rw [UInt32.le_iff_toNat_le]
    exact Int.ofNat_le
  have hdiffer : (Json.int input.remoteDomain.toNat = Json.int input.finalDestinationDomain.toNat) ↔
      input.remoteDomain = input.finalDestinationDomain := by
    rw [Json.int.injEq, Int.ofNat_inj, UInt32.toNat_inj]
  rw [Doc.inputRules, validate_ok, hexcluding, hincluding, hremote, hfinal]
  simp only [Option.some.injEq, Json.int.injEq, exists_eq_left', hleast, ne_eq, ← hdiffer]

theorem builtInput_meets : BuiltInput.codec.Meets Doc.prepareBurnIntentInput := by
  refine refine_meets (record_meets input_fields (by decide)) (fun b => ?_) (fun a b hb => ?_) fun j a ha => ?_
  · obtain ⟨input, hinput⟩ := b
    obtain ⟨built, hbuilt⟩ := Option.isSome_iff_exists.mp (BuiltInput.make_ok.mpr hinput)
    have hsame : built = ⟨input, hinput⟩ := Subtype.ext (BuiltInput.make_eq hbuilt)
    show BuiltInput.make input = _
    rw [hbuilt, hsame]
  · obtain ⟨token, excluding, including, remote, depositor, final, recipient, caller, salt, forwarding, options, _⟩ := a
    have heq := BuiltInput.make_eq hb
    simp only [heq]
  · obtain ⟨token, excluding, including, remote, depositor, final, recipient, caller, salt, forwarding, options, _⟩ := a
    have hexcluding := record_member input_fields (by decide) ha
      (m := ⟨"valueExcludingFees", false, Doc.decimalAmount⟩) (by simp [Doc.inputMembers])
    have hincluding := record_member input_fields (by decide) ha
      (m := ⟨"valueIncludingFees", false, Doc.decimalAmount⟩) (by simp [Doc.inputMembers])
    have hremote := record_member input_fields (by decide) ha
      (m := ⟨"remoteDomain", true, .uint32⟩) (by simp [Doc.inputMembers])
    have hfinal := record_member input_fields (by decide) ha
      (m := ⟨"finalDestinationDomain", true, .uint32⟩) (by simp [Doc.inputMembers])
    show (BuiltInput.make _).isSome = true ↔ Doc.inputRules (Schema.namedMembers Doc.inputMembers j)
    rw [BuiltInput.make_ok]
    refine (inputRules_iff ?_ ?_ ?_ ?_).symm
    · have hsome := congrArg Option.isSome hexcluding
      rw [Option.isSome_map] at hsome
      exact hsome.symm.trans (Option.isSome_map ..)
    · have hsome := congrArg Option.isSome hincluding
      rw [Option.isSome_map] at hsome
      exact hsome.symm.trans (Option.isSome_map ..)
    · exact (Option.map_id' ..).symm.trans hremote.symm
    · exact (Option.map_id' ..).symm.trans hfinal.symm

theorem builtRequest_meets : BuiltRequest.codec.Meets Doc.prepareWithdrawalRequest := by
  refine iso_meets (record_meets ?_ (by decide)) (fun r => ?_) fun a => ?_
  · exact required_meets (by decide) (list_meets builtInput_meets) done_meets
  · obtain ⟨⟨batches⟩, hbatches⟩ := r
    have hsame : (batches.attachWith _ hbatches).map (·.1) = batches := List.attachWith_map_subtype_val hbatches
    exact Subtype.ext (congrArg PrepareWithdrawalRequest.mk hsame)
  · obtain ⟨inputs, _⟩ := a
    have hsame : ∀ h, (inputs.map (·.1)).attachWith (fun input => PrepareBurnIntentInput.validate input = .ok ()) h =
        inputs := fun h => List.map_injective_iff.mpr Subtype.val_injective (List.attachWith_map_subtype_val h)
    exact congrArg (·, ()) (hsame _)

end

/-- Values survive writing and reading, and the document is read and written back as the schema says exactly if it
is spelled out, or would be refused if it were. -/
def Conforms {α : Type} (c : Codec α) (s : Schema) (j : Json) : Prop :=
  (∀ v, c.decode (c.encode v) = some v) ∧ (c.Exact s j ↔ s.named j = j ∨ ¬ s.Accepts (s.named j))

theorem Conforms.of_meets {α : Type} {c : Codec α} {s : Schema} (h : c.Meets s) (j : Json) : Conforms c s j :=
  ⟨h.round, h.exact_iff j⟩

/-- Every type of the wire conforms to its schema on every document. -/
theorem wire_exact_iff (j : Json) :
    Conforms BuiltRequest.codec Doc.prepareWithdrawalRequest j ∧
    Conforms BuiltInput.codec Doc.prepareBurnIntentInput j ∧
    Conforms ForwardingOptions.codec Doc.forwardingOptions j ∧
    Conforms PrepareWithdrawalResponse.codec Doc.prepareWithdrawalResponse j ∧
    Conforms PreparedBatch.codec Doc.preparedBatch j ∧
    Conforms BurnIntent.codec Doc.burnIntent j ∧
    Conforms TransferSpec.codec Doc.transferSpec j ∧
    Conforms StructuredHookData.codec Doc.structuredHookData j ∧
    Conforms WithdrawRequest.codec Doc.withdrawRequest j ∧
    Conforms WithdrawBatch.codec Doc.withdrawBatch j ∧
    Conforms WithdrawConflict.codec Doc.withdrawConflict j ∧
    Conforms WithdrawalStatus.codec Doc.withdrawalStatus j :=
  ⟨.of_meets builtRequest_meets j, .of_meets builtInput_meets j, .of_meets forwardingOptions_meets j,
    .of_meets prepareWithdrawalResponse_meets j, .of_meets preparedBatch_meets j, .of_meets burnIntent_meets j,
    .of_meets transferSpec_meets j, .of_meets structuredHookData_meets j, .of_meets withdrawRequest_meets j,
    .of_meets withdrawBatch_meets j, .of_meets withdrawConflict_meets j, .of_meets withdrawalStatus_meets j⟩

/-! ## What the client reads -/

/-- The readers of the client's answers, over a parser of JSON text. -/
def Serde.json (parse : Bytes → Option Json) : Serde where
  prepared body := (parse body).bind PrepareWithdrawalResponse.codec.decode
  statuses body := (parse body).bind WithdrawalStatus.codec.list.decode
  conflict body := (parse body).bind WithdrawConflict.codec.decode
  status body := (parse body).bind WithdrawalStatus.codec.decode

/-- A body is decoded exactly if its document, spelled out, is accepted; what comes of it writes as that document. -/
theorem decode_ok_iff {α : Type} {c : Codec α} {s : Schema} (h : c.Meets s) {parse : Bytes → Option Json} {body : Bytes}
    {j : Json} (hparse : parse body = some j) (context : String) :
    (∃ a, decode (fun body => (parse body).bind c.decode) body context = .ok a ∧ c.encode a = s.trim (s.named j)) ↔
      s.Accepts (s.named j) := by
  simp only [decode, Checked.orThrow_ok, hparse, Option.bind_some]
  constructor
  · rintro ⟨a, ha, -⟩
    exact (h.sound j a ha).1
  · intro haccepts
    obtain ⟨a, ha⟩ := Option.isSome_iff_exists.mp (h.complete j haccepts)
    exact ⟨a, ha, (h.sound j a ha).2⟩

theorem prepared_ok_iff (parse : Bytes → Option Json) {body : Bytes} {j : Json} (hparse : parse body = some j) :
    (∃ r, decode (Serde.json parse).prepared body "prepare-withdrawal" = .ok r ∧
      PrepareWithdrawalResponse.codec.encode r =
        Doc.prepareWithdrawalResponse.trim (Doc.prepareWithdrawalResponse.named j)) ↔
      Doc.prepareWithdrawalResponse.Accepts (Doc.prepareWithdrawalResponse.named j) :=
  decode_ok_iff prepareWithdrawalResponse_meets hparse _

/-- The statuses of a submission are read from the array of them, not from an object. -/
theorem statuses_ok_iff (parse : Bytes → Option Json) {body : Bytes} {j : Json} (hparse : parse body = some j) :
    (∃ r, decode (Serde.json parse).statuses body "withdraw" = .ok r ∧
      WithdrawalStatus.codec.list.encode r =
        (Schema.array Doc.withdrawalStatus).trim ((Schema.array Doc.withdrawalStatus).named j)) ↔
      (Schema.array Doc.withdrawalStatus).Accepts ((Schema.array Doc.withdrawalStatus).named j) :=
  decode_ok_iff (list_meets withdrawalStatus_meets) hparse _

/-! ## A record in the other spelling -/

/-- A response whose only batch is the array of its fields. -/
def positionalBody : Json := .object {"batches"} fun _ => .array [.array [.array [], .str "0x", .str "0x"]]

/-- It is read, though a batch has to be an object. -/
theorem positional_batch_read :
    PrepareWithdrawalResponse.codec.decode positionalBody = some ⟨[⟨[], "0x", "0x"⟩]⟩ ∧
      ¬ Doc.prepareWithdrawalResponse.Accepts positionalBody ∧
      ¬ PrepareWithdrawalResponse.codec.Exact Doc.prepareWithdrawalResponse positionalBody := by
  have hread : PrepareWithdrawalResponse.codec.decode positionalBody = some ⟨[⟨[], "0x", "0x"⟩]⟩ := by decide
  have hrefused : ¬ Doc.prepareWithdrawalResponse.Accepts positionalBody := by
    intro haccepts
    have hbatches := (haccepts.2.1 _ List.mem_cons_self).2 (.array [.array [.array [], .str "0x", .str "0x"]]) rfl
    obtain ⟨batches, hitems, hall⟩ := hbatches
    cases hitems
    cases (hall _ List.mem_cons_self).1
  exact ⟨hread, hrefused, fun hexact => hrefused (hexact.2.mp (by rw [hread]; rfl))⟩

end WithdrawalListener
