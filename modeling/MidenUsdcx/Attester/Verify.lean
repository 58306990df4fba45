import MidenUsdcx.Attester.Burn
import MidenUsdcx.Attester.Config
/-!
# Checking Circle's prepared withdrawal (`verify.rs`)

| here | there |
| --- | --- |
| `parseIntent`, `HookData.parse` | `parse_intent`, `HookData::parse` (`verify.rs:534-614`): the texts of a reply as typed fields |
| `HookData.encode`, `TransferSpec.encode`, `BurnIntent.encode` | the packed forms Circle hashes (`verify.rs:550-657`) |
| `abiEncodeDepositForBurn`, `abiEncodeDepositToRemote` | `SolCall::abi_encode` of the two calls: selector, static head, tail of the one `bytes` argument |
| `verifyForwardedLeg`, `verifyRedepositLeg` | the two routes with a second leg (`verify.rs:380-529`) |
| `verify` | `UnverifiedPrepareResponse::verify` (`verify.rs:252-375`) |
-/
namespace LightAttester
open Checked

/-! ## Constants (`verify.rs:20-37`) -/

def BURN_INTENT_MAGIC : Nat := 0x070afbc2
def TRANSFER_SPEC_MAGIC : Nat := 0xca85def7
def WITHDRAW_HOOK_DATA_MAGIC : Nat := 0x6b20f62a
def WITHDRAW_HOOK_DATA_VERSION : Nat := 1
/-- The ASCII marker `cctp-forward`, zero-padded to a word. -/
def CCTP_FORWARD_MARKER : Bytes :=
  [0x63, 0x63, 0x74, 0x70, 0x2d, 0x66, 0x6f, 0x72, 0x77, 0x61, 0x72, 0x64] ++ List.replicate 20 0
def CCTP_FAST_FINALITY : UInt32 := 1000
def ARC_DOMAIN : UInt32 := 26
def ARC_USDC : Address := 0x3600000000000000000000000000000000000000

inductive VerifyError where
  | wrongCount
  | unsupportedDestination
  | unknownSalt
  | wrongBurnField (field : String)
  | badAmount
  | feeTooHigh
  | wrongSigner
  | wrongSourceToken
  | wrongSourceDomain
  | callerRestricted
  | forwardedField (field : String)
  | tooSmallToForward
  | payoutTooSmallToForward
  | digestMismatch
  | encodedMismatch
  | malformedField (field : String)
deriving DecidableEq, Repr

/-! ## 256-bit arithmetic -/

/-- `U256::checked_add`. -/
def checkedAddU256 (a b : U256) : Option U256 := if a.uaddOverflow b then none else some (a + b)

/-- `U256::saturating_add`. -/
def saturatingAddU256 (a b : U256) : U256 :=
  if a.uaddOverflow b then U256.MAX else a + b

/-- `U256::from` of a `u64`. -/
def u256 (n : UInt64) : U256 := BitVec.ofNat 256 n.toNat

theorem toNat_add_of_not_overflow {a b : U256} (h : ¬ a.uaddOverflow b = true) :
    (a + b).toNat = a.toNat + b.toNat := by
  simp only [BitVec.uaddOverflow, ge_iff_le, decide_eq_true_eq, not_le] at h
  rw [BitVec.toNat_add, Nat.mod_eq_of_lt h]

theorem checkedAddU256_eq_some {a b c : U256} (h : checkedAddU256 a b = some c) :
    a.toNat + b.toNat = c.toNat := by
  unfold checkedAddU256 at h
  split at h
  · cases h
  · rename_i hfits
    cases h
    exact (toNat_add_of_not_overflow hfits).symm

theorem u256_toNat (n : UInt64) : (u256 n).toNat = n.toNat := by
  have := n.toNat_lt
  rw [u256, BitVec.toNat_ofNat, Nat.mod_eq_of_lt (by omega)]

/-- A saturated sum below the top of the range is the exact sum. -/
theorem saturatingAddU256_le {a b c : U256} (h : (saturatingAddU256 a b).toNat ≤ c.toNat)
    (hc : c.toNat < U256.MAX.toNat) : a.toNat + b.toNat ≤ c.toNat := by
  unfold saturatingAddU256 at h
  split at h
  · exact absurd h (not_le.2 hc)
  · rename_i hfits
    rwa [toNat_add_of_not_overflow hfits] at h

/-! ## Texts -/

/-- `text.parse().map_err(|_| MalformedField(field))`. -/
def parseField {α : Type} (parsed : Option α) (field : String) : Except VerifyError α :=
  orThrow parsed (.malformedField field)

/-- `decimal` (`verify.rs:570`): plain digits, and a value that fits. -/
def decimal (text field : String) : Except VerifyError U256 := do
  ensure (text.toList ≠ [] ∧ text.toList.all Char.isDigit = true) (.malformedField field)
  ensure (Lines.decimalValue text.toList ≤ U256.MAX.toNat) (.malformedField field)
  pure (BitVec.ofNat 256 (Lines.decimalValue text.toList))

/-! ## Packed encodings -/

/-- `to_be_bytes` over `len` bytes. -/
def beBytes : Nat → Nat → Bytes
  | 0, _ => []
  | len + 1, n => beBytes len (n / 256) ++ [UInt8.ofNat (n % 256)]

def wordBytes (w : B256) : Bytes := beBytes 32 w.toNat

/-- `append_with_length` (`verify.rs:606`). -/
def appendWithLength (output bytes : Bytes) : Except VerifyError Bytes := do
  ensure (bytes.length < UInt32.size) (.malformedField "encoded length")
  pure (output ++ beBytes 4 bytes.length ++ bytes)

/-- `HookData` (`verify.rs:531`). -/
structure HookData where
  remoteDomain : UInt32
  remoteToken : B256
  remoteDepositor : B256
  forwardingContract : Address
  forwardingCalldata : Bytes
deriving DecidableEq, Repr

def HookData.parse (C : Crates) (raw : StructuredHookData) : Except VerifyError HookData := do
  let remoteToken ← parseField (C.parseB256 raw.remoteToken) "remoteToken"
  let remoteDepositor ← parseField (C.parseB256 raw.remoteDepositor) "remoteDepositor"
  let forwardingContract ← parseField (C.parseAddress raw.forwardingContractAddress) "forwardingContractAddress"
  let forwardingCalldata ← parseField (C.parseBytes raw.forwardingCalldata) "forwardingCalldata"
  pure { remoteDomain := raw.remoteDomain, remoteToken := remoteToken, remoteDepositor := remoteDepositor,
         forwardingContract := forwardingContract, forwardingCalldata := forwardingCalldata }

def HookData.encode (hook : HookData) : Except VerifyError Bytes :=
  appendWithLength
    (beBytes 4 WITHDRAW_HOOK_DATA_MAGIC ++ beBytes 4 WITHDRAW_HOOK_DATA_VERSION ++ beBytes 4 hook.remoteDomain.toNat ++
      wordBytes hook.remoteToken ++ wordBytes hook.remoteDepositor ++ wordBytes hook.forwardingContract.intoWord)
    hook.forwardingCalldata

def Eip712.TransferSpec.encode (spec : Eip712.TransferSpec) : Except VerifyError Bytes :=
  appendWithLength
    (beBytes 4 TRANSFER_SPEC_MAGIC ++ beBytes 4 spec.version.toNat ++ beBytes 4 spec.sourceDomain.toNat ++
      beBytes 4 spec.destinationDomain.toNat ++
      [spec.sourceContract, spec.destinationContract, spec.sourceToken, spec.destinationToken, spec.sourceDepositor,
        spec.destinationRecipient, spec.sourceSigner, spec.destinationCaller].flatMap wordBytes ++
      wordBytes spec.value ++ wordBytes spec.salt)
    spec.hookData

/-- `TransferSpec::hash` (`verify.rs:639`): Circle's packed transfer ID. -/
def Eip712.TransferSpec.hash (C : Crates) (spec : Eip712.TransferSpec) : Except VerifyError B256 := do
  let bytes ← spec.encode
  pure (C.keccak256 bytes)

def Eip712.BurnIntent.encode (intent : Eip712.BurnIntent) : Except VerifyError Bytes := do
  let spec ← intent.spec.encode
  appendWithLength (beBytes 4 BURN_INTENT_MAGIC ++ wordBytes intent.maxBlockHeight ++ wordBytes intent.maxFee) spec

/-- `parse_intent` (`verify.rs:578`). -/
def parseIntent (C : Crates) (raw : Wire.BurnIntent) : Except VerifyError (Eip712.BurnIntent × HookData) := do
  let spec := raw.spec
  let hook ← HookData.parse C spec.hookData
  let maxBlockHeight ← decimal raw.maxBlockHeight "maxBlockHeight"
  let maxFee ← decimal raw.maxFee "maxFee"
  let sourceContract ← parseField (C.parseB256 spec.sourceContract) "sourceContract"
  let destinationContract ← parseField (C.parseB256 spec.destinationContract) "destinationContract"
  let sourceToken ← parseField (C.parseB256 spec.sourceToken) "sourceToken"
  let destinationToken ← parseField (C.parseB256 spec.destinationToken) "destinationToken"
  let sourceDepositor ← parseField (C.parseB256 spec.sourceDepositor) "sourceDepositor"
  let destinationRecipient ← parseField (C.parseB256 spec.destinationRecipient) "destinationRecipient"
  let sourceSigner ← parseField (C.parseB256 spec.sourceSigner) "sourceSigner"
  let destinationCaller ← parseField (C.parseB256 spec.destinationCaller) "destinationCaller"
  let value ← decimal spec.value "value"
  let salt ← parseField (C.parseB256 spec.salt) "salt"
  let hookData ← hook.encode
  pure ({ maxBlockHeight := maxBlockHeight, maxFee := maxFee, spec := {
            version := spec.version, sourceDomain := spec.sourceDomain, destinationDomain := spec.destinationDomain,
            sourceContract := sourceContract, destinationContract := destinationContract, sourceToken := sourceToken,
            destinationToken := destinationToken, sourceDepositor := sourceDepositor,
            destinationRecipient := destinationRecipient, sourceSigner := sourceSigner,
            destinationCaller := destinationCaller, value := value, salt := salt, hookData := hookData } }, hook)

/-! ## The calls of the second leg -/

/-- The first four bytes of the keccak hash of a function's signature. -/
def selector (C : Crates) (signature : String) : Bytes :=
  (wordBytes (C.keccak256 (signature.toList.map fun c => UInt8.ofNat c.toNat))).take 4

/-- The tail of a `bytes` argument: its length, its bytes, and zeros up to a whole word. -/
def abiTail (bytes : Bytes) : Bytes :=
  beBytes 32 bytes.length ++ bytes ++ List.replicate ((32 - bytes.length % 32) % 32) 0

def abiEncodeDepositForBurn (C : Crates) (call : DepositForBurnWithHook) : Bytes :=
  selector C "depositForBurnWithHook(uint256,uint32,bytes32,address,bytes32,uint256,uint32,bytes)" ++
    wordBytes call.amount ++ beBytes 32 call.destinationDomain.toNat ++ wordBytes call.mintRecipient ++
    wordBytes call.burnToken.intoWord ++ wordBytes call.destinationCaller ++ wordBytes call.maxFee ++
    beBytes 32 call.minFinalityThreshold.toNat ++ beBytes 32 (8 * 32) ++ abiTail call.hookData

def abiEncodeDepositToRemote (C : Crates) (call : DepositToRemote) : Bytes :=
  selector C "depositToRemote(uint256,uint32,bytes32,address,uint256,bytes)" ++
    wordBytes call.value ++ beBytes 32 call.remoteDomain.toNat ++ wordBytes call.remoteRecipient ++
    wordBytes call.localToken.intoWord ++ wordBytes call.maxFee ++ beBytes 32 (6 * 32) ++ abiTail call.hookData

/-- `for (matches, field) in [..] { if !matches { return Err(ForwardedField(field)) } }`. -/
def checkFields : List (Bool × String) → Except VerifyError Unit
  | [] => pure ()
  | (ok, field) :: rest => do
    ensure (ok = true) (.forwardedField field)
    checkFields rest

/-- `verify_forwarded_leg` (`verify.rs:380`): the xReserve contract on Arc is paid and runs the CCTP
transfer of the calldata. -/
def verifyForwardedLeg (C : Crates) (intent : Eip712.BurnIntent) (hook : HookData) (burn : DiscoveredBurn)
    (forwarding : CctpForwarding) : Except VerifyError Unit := do
  let spec := intent.spec
  let forwarder := forwarding.forwarder.intoWord
  ensure (hook.forwardingContract = forwarding.tokenMessenger) (.forwardedField "forwardingContractAddress")
  ensure (spec.destinationRecipient = forwarder) (.forwardedField "destinationRecipient")
  ensure (spec.destinationCaller = forwarder) (.forwardedField "destinationCaller")
  ensure (spec.destinationDomain = ARC_DOMAIN) (.forwardedField "destinationDomain")
  ensure (spec.destinationToken = ARC_USDC.intoWord) (.forwardedField "destinationToken")
  let call ← orThrow (C.abiDecodeDepositForBurn hook.forwardingCalldata) (.forwardedField "forwardingCalldata")
  -- Decoding alone accepts trailing bytes or odd padding.
  ensure (abiEncodeDepositForBurn C call = hook.forwardingCalldata) (.forwardedField "forwardingCalldata")
  ensure (call.amount = spec.value) (.forwardedField "calldata amount")
  ensure (call.destinationDomain = burn.items.destDomain) (.forwardedField "calldata destinationDomain")
  ensure (call.mintRecipient = burn.items.destRecipient) (.forwardedField "calldata mintRecipient")
  ensure (call.burnToken.intoWord = spec.destinationToken) (.forwardedField "calldata burnToken")
  ensure (call.destinationCaller = 0) (.forwardedField "calldata destinationCaller")
  ensure (call.maxFee = u256 forwarding.maxFee) (.forwardedField "calldata maxFee")
  ensure (call.minFinalityThreshold = CCTP_FAST_FINALITY) (.forwardedField "calldata minFinalityThreshold")
  ensure (call.hookData = CCTP_FORWARD_MARKER) (.forwardedField "calldata hookData")

/-- The token of the redeposit's chain: USDC on Ethereum or on Arc (`verify.rs:479-483`). -/
def redepositToken (destinationDomain : UInt32) (ethereumToken : Address) : Option Address :=
  if destinationDomain = 0 then some ethereumToken
  else if destinationDomain = ARC_DOMAIN then some ARC_USDC
  else none

/-- `verify_redeposit_leg` (`verify.rs:467`): a redeposit through a known xReserve deployment. -/
def verifyRedepositLeg (C : Crates) (intent : Eip712.BurnIntent) (hook : HookData) (burn : DiscoveredBurn)
    (forwarder : Address) (maxFee : UInt64) : Except VerifyError Unit := do
  let spec := intent.spec
  let (ethereumToken, wallet, minter) ←
    orThrow (xreserveDeployment forwarder) (.forwardedField "xreserve deployment")
  let token ← orThrow (redepositToken spec.destinationDomain ethereumToken) (.forwardedField "destinationDomain")
  checkFields [
    (hook.forwardingContract == forwarder, "forwardingContractAddress"),
    (spec.destinationRecipient == forwarder.intoWord, "destinationRecipient"),
    (spec.destinationCaller == forwarder.intoWord, "destinationCaller"),
    (spec.destinationToken == token.intoWord, "destinationToken"),
    (spec.sourceContract == wallet.intoWord, "sourceContract"),
    (spec.destinationContract == minter.intoWord, "destinationContract")]
  let call ← orThrow (C.abiDecodeDepositToRemote hook.forwardingCalldata) (.forwardedField "forwardingCalldata")
  ensure (abiEncodeDepositToRemote C call = hook.forwardingCalldata) (.forwardedField "forwardingCalldata")
  checkFields [
    (call.value == spec.value, "calldata value"),
    (call.remoteDomain == burn.items.destDomain, "calldata remoteDomain"),
    (call.remoteRecipient == burn.items.destRecipient, "calldata remoteRecipient"),
    (call.localToken == token, "calldata localToken"),
    (call.maxFee == u256 maxFee, "calldata maxFee"),
    (call.hookData.isEmpty, "calldata hookData")]

/-! ## `verify` -/

/-- The one batch and its one intent (`verify.rs:257-262`). -/
def soleIntent (reply : UnverifiedPrepareResponse) : Option (UnverifiedPrepareBatch × Wire.BurnIntent) :=
  match reply.batches with
  | [batch] => match batch.burnIntents with
    | [raw] => some (batch, raw)
    | _ => none
  | _ => none

/-- `hook.forwarding_contract != ZERO || !forwarding_calldata.is_empty()` (`verify.rs:280`). -/
def HookData.forwarded (hook : HookData) : Bool := hook.forwardingContract != 0 || !hook.forwardingCalldata.isEmpty

/-- The route checks of `verify.rs:283-309`, ending with the fee of the second leg. -/
def verifyRoute (C : Crates) (intent : Eip712.BurnIntent) (hook : HookData) (burn : DiscoveredBurn) (config : Config)
    (forwardingFee : UInt64) : Except VerifyError U256 :=
  if FIRST_REMOTE_DOMAIN ≤ burn.items.destDomain then do
    verifyRedepositLeg C intent hook burn config.cctpForwarding.forwarder forwardingFee
    pure (u256 forwardingFee)
  else if hook.forwarded then do
    verifyForwardedLeg C intent hook burn config.cctpForwarding
    pure (u256 forwardingFee)
  else do
    ensure (intent.spec.destinationDomain = burn.items.destDomain) (.wrongBurnField "destinationDomain")
    ensure (intent.spec.destinationRecipient = burn.items.destRecipient) (.wrongBurnField "destinationRecipient")
    ensure (intent.spec.destinationCaller = 0) .callerRestricted
    pure 0

/-- The fee a withdrawal of this amount may cost in all (`verify.rs:336-337`). -/
def feeCeiling (config : Config) (burnedAmount : U256) : U256 :=
  u256 config.maxWithdrawalFee + burnedAmount * u256 config.maxWithdrawalFeeBps / 10000

/-- A checked authorization (`verify.rs:158`, `185`): only `verify` makes one. -/
structure VerifiedWithdrawal where
  noteId : NoteId
  intent : Wire.BurnIntent
  digest : B256
  transferSpecHash : B256
deriving DecidableEq, Repr

def verify (C : Crates) (reply : UnverifiedPrepareResponse) (burn : DiscoveredBurn) (config : Config) :
    Except VerifyError VerifiedWithdrawal := do
  let (batch, raw) ← orThrow (soleIntent reply) .wrongCount
  let (intent, hook) ← parseIntent C raw
  let spec := intent.spec
  ensure (burn.noteId.word = spec.salt) .unknownSalt
  let forwardingFee ← orThrow (config.forwardingMaxFee burn.items.destDomain) .unsupportedDestination
  let secondaryFee ← verifyRoute C intent hook burn config forwardingFee
  ensure (hook.remoteDomain = C.midenDomain) (.wrongBurnField "remoteDomain")
  ensure (hook.remoteDepositor = C.embedAccountId burn.note.sender) (.wrongBurnField "remoteDepositor")
  ensure (hook.remoteToken = C.embedAccountId config.faucetAccountId) (.wrongBurnField "remoteToken")
  let burnedAmount := u256 burn.amount
  ensure (spec.value ≠ 0 ∧ checkedAddU256 spec.value intent.maxFee = some burnedAmount) .badAmount
  ensure (saturatingAddU256 intent.maxFee secondaryFee ≤ feeCeiling config burnedAmount) .feeTooHigh
  ensure (spec.sourceSigner = spec.sourceDepositor) .wrongSigner
  ensure (spec.sourceToken = ARC_USDC.intoWord) .wrongSourceToken
  ensure (spec.sourceDomain = ARC_DOMAIN) .wrongSourceDomain
  let supplied ← parseField (C.parseBytes batch.encoded) "encoded"
  let encoded ← intent.encode
  ensure (supplied = encoded) .encodedMismatch
  let digest := C.signingHash intent
  let suppliedDigest ← parseField (C.parseB256 batch.messageHashToSign) "messageHashToSign"
  ensure (digest = suppliedDigest) .digestMismatch
  -- The secondary transfer fails if its fee is at least the payout.
  if (hook.forwarded ∨ FIRST_REMOTE_DOMAIN ≤ burn.items.destDomain) ∧ spec.value ≤ secondaryFee then
    if burnedAmount ≤ secondaryFee then throw .tooSmallToForward else throw .payoutTooSmallToForward
  else do
    let transferSpecHash ← spec.hash C
    pure { noteId := burn.noteId, intent := raw, digest := digest, transferSpecHash := transferSpecHash }

/-- What `verify` checked of a reply it accepts, in the order it checks it. -/
structure Accepts (C : Crates) (reply : UnverifiedPrepareResponse) (burn : DiscoveredBurn) (config : Config)
    (batch : UnverifiedPrepareBatch) (raw : Wire.BurnIntent) (intent : Eip712.BurnIntent) (hook : HookData)
    (forwardingFee : UInt64) (secondaryFee : U256) : Prop where
  sole : soleIntent reply = some (batch, raw)
  parsed : parseIntent C raw = .ok (intent, hook)
  salt : burn.noteId.word = intent.spec.salt
  supported : config.forwardingMaxFee burn.items.destDomain = some forwardingFee
  route : verifyRoute C intent hook burn config forwardingFee = .ok secondaryFee
  remoteDomain : hook.remoteDomain = C.midenDomain
  remoteDepositor : hook.remoteDepositor = C.embedAccountId burn.note.sender
  remoteToken : hook.remoteToken = C.embedAccountId config.faucetAccountId
  amount : intent.spec.value ≠ 0 ∧ checkedAddU256 intent.spec.value intent.maxFee = some (u256 burn.amount)
  fee : saturatingAddU256 intent.maxFee secondaryFee ≤ feeCeiling config (u256 burn.amount)
  signer : intent.spec.sourceSigner = intent.spec.sourceDepositor
  sourceToken : intent.spec.sourceToken = ARC_USDC.intoWord
  sourceDomain : intent.spec.sourceDomain = ARC_DOMAIN
  encoded : ∃ encoded, C.parseBytes batch.encoded = some encoded ∧ intent.encode = .ok encoded
  digest : C.parseB256 batch.messageHashToSign = some (C.signingHash intent)
  payout : hook.forwarded = true ∨ FIRST_REMOTE_DOMAIN ≤ burn.items.destDomain → secondaryFee < intent.spec.value

theorem verify_ok {C : Crates} {reply : UnverifiedPrepareResponse} {burn : DiscoveredBurn} {config : Config}
    {v : VerifiedWithdrawal} (h : verify C reply burn config = .ok v) :
    ∃ batch raw intent hook fee secondary hash, Accepts C reply burn config batch raw intent hook fee secondary ∧
      intent.spec.hash C = .ok hash ∧ v = ⟨burn.noteId, raw, C.signingHash intent, hash⟩ := by
  simp only [verify, orThrow_bind_ok] at h
  obtain ⟨⟨batch, raw⟩, sole, h⟩ := h
  rw [bind_ok] at h
  obtain ⟨⟨intent, hook⟩, parsed, h⟩ := h
  simp only [ensure_bind_ok, orThrow_bind_ok] at h
  obtain ⟨salt, fee, supported, h⟩ := h
  rw [bind_ok] at h
  obtain ⟨secondary, route, h⟩ := h
  simp only [ensure_bind_ok, parseField, orThrow_bind_ok] at h
  obtain ⟨remoteDomain, remoteDepositor, remoteToken, amount, feeOk, signer, token, domain, supplied, hsup, h⟩ := h
  rw [bind_ok] at h
  obtain ⟨encoded, hencoded, h⟩ := h
  simp only [ensure_bind_ok, orThrow_bind_ok] at h
  obtain ⟨rfl, digest, hdigest, heq, h⟩ := h
  split at h
  · split at h <;> cases h
  · rename_i hpay
    rw [bind_ok] at h
    obtain ⟨hash, hhash, h⟩ := h
    refine ⟨batch, raw, intent, hook, fee, secondary, hash, ?_, hhash, (pure_ok.1 h).symm⟩
    exact { sole := sole, parsed := parsed, salt := salt, supported := supported, route := route,
            remoteDomain := remoteDomain, remoteDepositor := remoteDepositor, remoteToken := remoteToken,
            amount := amount, fee := feeOk, signer := signer, sourceToken := token, sourceDomain := domain,
            encoded := ⟨_, hsup, hencoded⟩, digest := heq ▸ hdigest,
            payout := fun hf => by simpa using not_and.1 hpay hf }

theorem verify_noteId {C : Crates} {reply : UnverifiedPrepareResponse} {burn : DiscoveredBurn} {config : Config}
    {v : VerifiedWithdrawal} (h : verify C reply burn config = .ok v) : v.noteId = burn.noteId := by
  obtain ⟨_, _, _, _, _, _, _, -, -, rfl⟩ := verify_ok h
  rfl

end LightAttester
