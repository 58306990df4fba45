import MidenUsdcx.Attester.Submission
/-!
# What a verified withdrawal pays

`verify` is about thirty checks in a row. Put together they say that the intent pays the burn's
recipient by one of three routes and costs no more than the configuration allows (`verify_sound`).
-/
namespace LightAttester
open Checked

section
variable {C : Crates} {config : Config} {burn : DiscoveredBurn} {intent : Eip712.BurnIntent} {hook : HookData}

inductive Route where
  | direct
  | cctp
  | redeposit
deriving DecidableEq, Repr

/-- What the second leg of a route may cost. -/
def Route.fee (config : Config) : Route → Nat
  | .direct => 0
  | .cctp => config.cctpForwarding.maxFee.toNat
  | .redeposit => (config.xreserveDepositMaxFee.getD 0).toNat

/-- The intent pays the burn's recipient on the burn's chain. -/
structure PaysDirect (burn : DiscoveredBurn) (intent : Eip712.BurnIntent) (hook : HookData) : Prop where
  native : burn.items.destDomain < FIRST_REMOTE_DOMAIN
  contract : hook.forwardingContract = 0
  calldata : hook.forwardingCalldata = []
  domain : intent.spec.destinationDomain = burn.items.destDomain
  recipient : intent.spec.destinationRecipient = burn.items.destRecipient
  caller : intent.spec.destinationCaller = 0

/-- The call that moves all of the payout on to the burn's recipient over CCTP. -/
def cctpCall (config : Config) (burn : DiscoveredBurn) (intent : Eip712.BurnIntent) : DepositForBurnWithHook :=
  { amount := intent.spec.value, destinationDomain := burn.items.destDomain,
    mintRecipient := burn.items.destRecipient, burnToken := ARC_USDC, destinationCaller := 0,
    maxFee := u256 config.cctpForwarding.maxFee, minFinalityThreshold := CCTP_FAST_FINALITY,
    hookData := CCTP_FORWARD_MARKER }

/-- The call that deposits all of the payout again, for the burn's recipient on a remote chain. -/
def redepositCall (config : Config) (burn : DiscoveredBurn) (intent : Eip712.BurnIntent) (token : Address) :
    DepositToRemote :=
  { value := intent.spec.value, remoteDomain := burn.items.destDomain, remoteRecipient := burn.items.destRecipient,
    localToken := token, maxFee := u256 (config.xreserveDepositMaxFee.getD 0), hookData := [] }

/-- The intent pays the forwarder on Arc, whose call to the token messenger moves all of it on to the
burn's recipient. -/
structure PaysCctp (C : Crates) (config : Config) (burn : DiscoveredBurn) (intent : Eip712.BurnIntent)
    (hook : HookData) : Prop where
  native : burn.items.destDomain < FIRST_REMOTE_DOMAIN
  domain : intent.spec.destinationDomain = ARC_DOMAIN
  token : intent.spec.destinationToken = ARC_USDC.intoWord
  recipient : intent.spec.destinationRecipient = config.cctpForwarding.forwarder.intoWord
  caller : intent.spec.destinationCaller = config.cctpForwarding.forwarder.intoWord
  contract : hook.forwardingContract = config.cctpForwarding.tokenMessenger
  calldata : hook.forwardingCalldata = abiEncodeDepositForBurn C (cctpCall config burn intent)

/-- The intent pays a known xReserve on Ethereum or Arc, whose call deposits all of it again for the
burn's recipient on a remote chain. -/
structure PaysRedeposit (C : Crates) (config : Config) (burn : DiscoveredBurn) (intent : Eip712.BurnIntent)
    (hook : HookData) : Prop where
  remote : burn.items.destDomain = STACKS_DOMAIN ∨ burn.items.destDomain = CARDANO_DOMAIN ∨
    burn.items.destDomain = MOVEMENT_DOMAIN
  enabled : config.xreserveDepositMaxFee.isSome
  recipient : intent.spec.destinationRecipient = config.cctpForwarding.forwarder.intoWord
  caller : intent.spec.destinationCaller = config.cctpForwarding.forwarder.intoWord
  contract : hook.forwardingContract = config.cctpForwarding.forwarder
  deployment : ∃ ethereumToken wallet minter token,
    xreserveDeployment config.cctpForwarding.forwarder = some (ethereumToken, wallet, minter) ∧
    (intent.spec.destinationDomain = 0 ∧ token = ethereumToken ∨
      intent.spec.destinationDomain = ARC_DOMAIN ∧ token = ARC_USDC) ∧
    intent.spec.destinationToken = token.intoWord ∧ intent.spec.sourceContract = wallet.intoWord ∧
    intent.spec.destinationContract = minter.intoWord ∧
    hook.forwardingCalldata = abiEncodeDepositToRemote C (redepositCall config burn intent token)

def Pays (C : Crates) (config : Config) (burn : DiscoveredBurn) (intent : Eip712.BurnIntent) (hook : HookData) :
    Route → Prop
  | .direct => PaysDirect burn intent hook
  | .cctp => PaysCctp C config burn intent hook
  | .redeposit => PaysRedeposit C config burn intent hook

/-- The remote chains are all at or above the first remote domain. -/
theorem PaysRedeposit.above (h : PaysRedeposit C config burn intent hook) :
    FIRST_REMOTE_DOMAIN ≤ burn.items.destDomain := by
  rcases h.remote with h | h | h <;> rw [h] <;> decide

/-- No reply fits two routes: the messenger is not the zero address, and the domains do not overlap. -/
theorem Pays.unique {r r' : Route} (h : Pays C config burn intent hook r) (h' : Pays C config burn intent hook r') :
    r = r' := by
  have hzero : ∀ (_ : PaysDirect burn intent hook) (_ : PaysCctp C config burn intent hook), False :=
    fun hd hc => config.cctp_messenger (hc.contract.symm.trans hd.contract)
  have hremote : ∀ (_ : burn.items.destDomain < FIRST_REMOTE_DOMAIN) (_ : PaysRedeposit C config burn intent hook),
      False := fun hlt hr => absurd hr.above (UInt32.not_le.2 hlt)
  cases r <;> cases r' <;> first
    | rfl
    | exact (hzero h h').elim
    | exact (hzero h' h).elim
    | exact (hremote h.native h').elim
    | exact (hremote h'.native h).elim

/-! ## The routes -/

theorem Address.intoWord_inj {a b : Address} (h : a.intoWord = b.intoWord) : a = b := by
  have hn := congrArg BitVec.toNat h
  simp only [Address.intoWord, BitVec.toNat_setWidth] at hn
  have ha := a.isLt
  have hb := b.isLt
  rw [Nat.mod_eq_of_lt (by omega), Nat.mod_eq_of_lt (by omega)] at hn
  exact BitVec.eq_of_toNat_eq hn

theorem checkFields_iff {fields : List (Bool × String)} {u : Unit} :
    checkFields fields = .ok u ↔ ∀ f ∈ fields, f.1 = true := by
  induction fields with
  | nil => simp [checkFields]
  | cons f fields ih =>
    obtain ⟨ok, name⟩ := f
    simp only [checkFields, ensure_bind_ok, ih, List.forall_mem_cons]

/-- What the redeposit checks compare, in the order of the source. -/
theorem verifyRedepositLeg_iff {forwarder : Address} {fee : UInt64} :
    verifyRedepositLeg C intent hook burn forwarder fee = .ok () ↔
      ∃ ethereumToken wallet minter token call,
        xreserveDeployment forwarder = some (ethereumToken, wallet, minter) ∧
        redepositToken intent.spec.destinationDomain ethereumToken = some token ∧
        (hook.forwardingContract = forwarder ∧ intent.spec.destinationRecipient = forwarder.intoWord ∧
          intent.spec.destinationCaller = forwarder.intoWord ∧ intent.spec.destinationToken = token.intoWord ∧
          intent.spec.sourceContract = wallet.intoWord ∧ intent.spec.destinationContract = minter.intoWord) ∧
        C.abiDecodeDepositToRemote hook.forwardingCalldata = some call ∧
        abiEncodeDepositToRemote C call = hook.forwardingCalldata ∧
        call.value = intent.spec.value ∧ call.remoteDomain = burn.items.destDomain ∧
        call.remoteRecipient = burn.items.destRecipient ∧ call.localToken = token ∧ call.maxFee = u256 fee ∧
        call.hookData = [] := by
  simp only [verifyRedepositLeg, orThrow_bind_ok, Prod.exists, bind_ok (x := checkFields _), ensure_bind_ok,
    checkFields_iff, List.mem_cons, List.not_mem_nil, or_false, forall_eq_or_imp, forall_eq, beq_iff_eq,
    List.isEmpty_iff, exists_const, exists_and_left]

theorem verifyForwardedLeg_ok {u : Unit} (hlt : burn.items.destDomain < FIRST_REMOTE_DOMAIN)
    (h : verifyForwardedLeg C intent hook burn config.cctpForwarding = .ok u) :
    PaysCctp C config burn intent hook := by
  simp only [verifyForwardedLeg, ensure_bind_ok, orThrow_bind_ok, ensure_ok] at h
  obtain ⟨hcontract, hrecipient, hcaller, hdomain, htoken, call, -, hencode, hamount, hdest, hmint, hburn, hnocaller,
    hfee, hfinality, hmarker⟩ := h
  have htok : call.burnToken = ARC_USDC := Address.intoWord_inj (hburn.trans htoken)
  have hcall : call = cctpCall config burn intent := by
    cases call
    simp_all [cctpCall]
  exact { native := hlt, domain := hdomain, token := htoken, recipient := hrecipient, caller := hcaller,
          contract := hcontract, calldata := by rw [← hencode, hcall] }

theorem verifyRedepositLeg_ok {u : Unit} {fee : UInt64}
    (hremote : burn.items.destDomain = STACKS_DOMAIN ∨ burn.items.destDomain = CARDANO_DOMAIN ∨
      burn.items.destDomain = MOVEMENT_DOMAIN) (hfee : config.xreserveDepositMaxFee = some fee)
    (h : verifyRedepositLeg C intent hook burn config.cctpForwarding.forwarder fee = .ok u) :
    PaysRedeposit C config burn intent hook := by
  obtain ⟨ethereumToken, wallet, minter, token, call, hdeploy, htoken, hspec, -, hencode, hcalled⟩ :=
    verifyRedepositLeg_iff.1 h
  obtain ⟨hcontract, hrecipient, hcaller, hdest, hwallet, hminter⟩ := hspec
  obtain ⟨hvalue, hdomain, hto, hlocal, hmax, hhook⟩ := hcalled
  have hcall : call = redepositCall config burn intent token := by
    cases call
    simp_all [redepositCall]
  refine { remote := hremote, enabled := by rw [hfee]; rfl, recipient := hrecipient, caller := hcaller,
           contract := hcontract, deployment := ⟨ethereumToken, wallet, minter, token, hdeploy, ?_, hdest, hwallet,
             hminter, by rw [← hencode, hcall]⟩ }
  unfold redepositToken at htoken
  split at htoken
  · rename_i h0
    exact Or.inl ⟨h0, (Option.some.inj htoken).symm⟩
  · split at htoken
    · rename_i h26
      exact Or.inr ⟨h26, (Option.some.inj htoken).symm⟩
    · cases htoken

/-- A supported remote destination is one of the three with a redeposit cap. -/
theorem forwardingMaxFee_remote {destination : UInt32} {fee : UInt64} (hle : FIRST_REMOTE_DOMAIN ≤ destination)
    (h : config.forwardingMaxFee destination = some fee) :
    (destination = STACKS_DOMAIN ∨ destination = CARDANO_DOMAIN ∨ destination = MOVEMENT_DOMAIN) ∧
      config.xreserveDepositMaxFee = some fee := by
  simp only [Config.forwardingMaxFee, if_pos hle] at h
  split at h
  · rename_i hremote
    exact ⟨hremote, h⟩
  · cases h

theorem forwardingMaxFee_native {destination : UInt32} {fee : UInt64} (hlt : destination < FIRST_REMOTE_DOMAIN)
    (h : config.forwardingMaxFee destination = some fee) : fee = config.cctpForwarding.maxFee := by
  unfold Config.forwardingMaxFee at h
  split at h
  · rename_i hremote
    rcases hremote with h | h | h <;> rw [h] at hlt <;> exact absurd hlt (by decide)
  · rw [if_neg (UInt32.not_le.2 hlt)] at h
    exact (Option.some.inj h).symm

theorem verifyRoute_ok {fee : UInt64} {secondary : U256} (hfee : config.forwardingMaxFee burn.items.destDomain = some fee)
    (h : verifyRoute C intent hook burn config fee = .ok secondary) :
    ∃ route, Pays C config burn intent hook route ∧ secondary.toNat = route.fee config ∧
      (route ≠ .direct → hook.forwarded = true ∨ FIRST_REMOTE_DOMAIN ≤ burn.items.destDomain) := by
  unfold verifyRoute at h
  split at h
  · rename_i hle
    obtain ⟨hremote, hmax⟩ := forwardingMaxFee_remote hle hfee
    rw [bind_ok] at h
    obtain ⟨_, hleg, h⟩ := h
    obtain rfl := pure_ok.1 h
    exact ⟨.redeposit, verifyRedepositLeg_ok hremote hmax hleg, by rw [u256_toNat, Route.fee, hmax]; rfl,
      fun _ => Or.inr hle⟩
  · rename_i hlt
    replace hlt := UInt32.not_le.1 hlt
    split at h
    · rename_i hfwd
      rw [bind_ok] at h
      obtain ⟨_, hleg, h⟩ := h
      obtain rfl := pure_ok.1 h
      exact ⟨.cctp, verifyForwardedLeg_ok hlt hleg, by rw [u256_toNat, forwardingMaxFee_native hlt hfee]; rfl,
        fun _ => Or.inl hfwd⟩
    · rename_i hfwd
      simp only [ensure_bind_ok, pure_ok] at h
      obtain ⟨hdomain, hrecipient, hcaller, rfl⟩ := h
      simp only [HookData.forwarded, Bool.or_eq_true, bne_iff_ne, ne_eq, Bool.not_eq_true', List.isEmpty_eq_false_iff,
        not_or, not_not] at hfwd
      exact ⟨.direct, ⟨hlt, hfwd.1, hfwd.2, hdomain, hrecipient, hcaller⟩, rfl, fun hne => absurd rfl hne⟩

/-! ## The amounts -/

/-- Two `u64` settings and a `u64` amount stay far below 256 bits. -/
theorem ceiling_lt (config : Config) (amount : UInt64) :
    amount.toNat * config.maxWithdrawalFeeBps.toNat < U256.MAX.toNat ∧
      config.maxWithdrawalFee.toNat + amount.toNat * config.maxWithdrawalFeeBps.toNat / 10000 < U256.MAX.toNat := by
  have hm : config.maxWithdrawalFee.toNat < UInt64.size := config.maxWithdrawalFee.toNat_lt_size
  have hmul : amount.toNat * config.maxWithdrawalFeeBps.toNat < UInt64.size * UInt64.size :=
    Nat.mul_lt_mul'' amount.toNat_lt_size config.maxWithdrawalFeeBps.toNat_lt_size
  have hdiv := Nat.div_le_self (amount.toNat * config.maxWithdrawalFeeBps.toNat) 10000
  have hmax : UInt64.size + UInt64.size * UInt64.size < U256.MAX.toNat := by decide
  constructor <;> omega

theorem feeCeiling_toNat (config : Config) (amount : UInt64) :
    (feeCeiling config (u256 amount)).toNat =
      config.maxWithdrawalFee.toNat + amount.toNat * config.maxWithdrawalFeeBps.toNat / 10000 := by
  obtain ⟨hmul, hsum⟩ := ceiling_lt config amount
  unfold feeCeiling
  rw [BitVec.toNat_add, BitVec.toNat_udiv, BitVec.toNat_mul, u256_toNat, u256_toNat, u256_toNat,
    Nat.mod_eq_of_lt (hmul.trans U256.MAX.isLt)]
  exact Nat.mod_eq_of_lt (hsum.trans U256.MAX.isLt)

/-- What justifies signing `v` for the burn: the reply's one intent `raw`, which reads as `intent` and `hook`
and pays by `route`. -/
structure Justified (C : Crates) (config : Config) (burn : DiscoveredBurn) (reply : UnverifiedPrepareResponse)
    (v : VerifiedWithdrawal) (batch : UnverifiedPrepareBatch) (raw : Wire.BurnIntent) (intent : Eip712.BurnIntent)
    (hook : HookData) (route : Route) : Prop where
  batches : reply.batches = [batch]
  intents : batch.burnIntents = [raw]
  parsed : parseIntent C raw = .ok (intent, hook)
  salt : intent.spec.salt = burn.noteId.word
  positive : 0 < intent.spec.value.toNat
  /-- The payout and the fee are the burned amount, as numbers: nothing wraps. -/
  amount : intent.spec.value.toNat + intent.maxFee.toNat = burn.amount.toNat
  fee : intent.maxFee.toNat + route.fee config ≤
    config.maxWithdrawalFee.toNat + burn.amount.toNat * config.maxWithdrawalFeeBps.toNat / 10000
  sourceDomain : intent.spec.sourceDomain = ARC_DOMAIN
  sourceToken : intent.spec.sourceToken = ARC_USDC.intoWord
  sourceSigner : intent.spec.sourceSigner = intent.spec.sourceDepositor
  remoteDomain : hook.remoteDomain = C.midenDomain
  remoteDepositor : hook.remoteDepositor = C.embedAccountId burn.note.sender
  remoteToken : hook.remoteToken = C.embedAccountId config.faucetAccountId
  pays : Pays C config burn intent hook route
  only : ∀ other, Pays C config burn intent hook other → other = route
  /-- The second leg does not eat up the payout. -/
  payout : route ≠ .direct → route.fee config < intent.spec.value.toNat
  encoded : ∃ encoded, intent.encode = .ok encoded ∧ C.parseBytes batch.encoded = some encoded
  digest : C.parseB256 batch.messageHashToSign = some (C.signingHash intent)
  /-- What is signed and sent is this intent, under the burn's note ID. -/
  signed : ∃ hash, intent.spec.hash C = .ok hash ∧ v = ⟨burn.noteId, raw, C.signingHash intent, hash⟩ ∧
    ∀ signatures endpoint saved, signedSubmission C v signatures endpoint = some saved →
      C.renderSubmission raw signatures burn.noteId.toHex = some saved.body ∧ saved.endpoint = endpoint ∧
        saved.noteId = burn.noteId ∧ saved.transferSpecHash = hash

/-- **Verification soundness.** Every reply `verify` accepts is justified: no mixture of the routes, no
wrapped amount and no fee above the ceiling gets through. -/
theorem verify_sound {reply : UnverifiedPrepareResponse} {v : VerifiedWithdrawal}
    (h : verify C reply burn config = .ok v) :
    ∃ batch raw intent hook route, Justified C config burn reply v batch raw intent hook route := by
  obtain ⟨batch, raw, intent, hook, fee, secondary, hash, ha, hhash, rfl⟩ := verify_ok h
  obtain ⟨hbatches, hintents⟩ : reply.batches = [batch] ∧ batch.burnIntents = [raw] := by
    have hsole := ha.sole
    unfold soleIntent at hsole
    split at hsole
    · rename_i b hb
      split at hsole
      · rename_i r hr
        cases hsole
        exact ⟨hb, hr⟩
      · cases hsole
    · cases hsole
  obtain ⟨route, hpays, hsecondary, hforwarded⟩ := verifyRoute_ok ha.supported ha.route
  have hsum : intent.spec.value.toNat + intent.maxFee.toNat = burn.amount.toNat := by
    rw [checkedAddU256_eq_some ha.amount.2, u256_toNat]
  have hvalue : 0 < intent.spec.value.toNat := by
    refine Nat.pos_of_ne_zero fun h0 => ha.amount.1 ?_
    exact BitVec.eq_of_toNat_eq (by simpa using h0)
  have hceiling : intent.maxFee.toNat + route.fee config ≤
      config.maxWithdrawalFee.toNat + burn.amount.toNat * config.maxWithdrawalFeeBps.toNat / 10000 := by
    have hle : (saturatingAddU256 intent.maxFee secondary).toNat ≤ (feeCeiling config (u256 burn.amount)).toNat := ha.fee
    have hbound : (feeCeiling config (u256 burn.amount)).toNat < U256.MAX.toNat := by
      rw [feeCeiling_toNat]
      exact (ceiling_lt config burn.amount).2
    rw [← hsecondary, ← feeCeiling_toNat]
    exact saturatingAddU256_le hle hbound
  obtain ⟨encoded, hsupplied, hencoded⟩ := ha.encoded
  refine ⟨batch, raw, intent, hook, route, {
    batches := hbatches, intents := hintents, parsed := ha.parsed, salt := ha.salt.symm, positive := hvalue,
    amount := hsum, fee := hceiling, sourceDomain := ha.sourceDomain, sourceToken := ha.sourceToken,
    sourceSigner := ha.signer, remoteDomain := ha.remoteDomain, remoteDepositor := ha.remoteDepositor,
    remoteToken := ha.remoteToken, pays := hpays, only := fun _ ho => ho.unique hpays, payout := fun hne => ?_,
    encoded := ⟨encoded, hencoded, hsupplied⟩, digest := ha.digest, signed := ⟨hash, hhash, rfl, ?_⟩ }⟩
  · rw [← hsecondary]
    exact ha.payout (hforwarded hne)
  · intro signatures endpoint saved hsaved
    obtain ⟨body, hbody, hsaved⟩ := Option.bind_eq_some_iff.1 hsaved
    cases hsaved
    exact ⟨hbody, rfl, rfl, rfl⟩

end

/-! ## A captured reply

Circle's sandbox answer to a withdrawal to Base (`tests/fixtures/circle-sandbox-2026-09-21-direct-base-with-options`),
with the hook's remote domain and token set as `captured` (`tests/verify.rs:66`) sets them. `crates` does on it, and on
the other documents below, what the real functions do. -/

namespace Sample

def utf8 (s : String) : Bytes := s.toByteArray.data.toList

def quoted (s : String) : Bytes := 0x22 :: (utf8 s ++ [0x22])

mutual

/-- `serde_json::to_vec`; no text here needs an escape. -/
def bytesOf : Json → Bytes
  | .null => utf8 "null"
  | .bool b => utf8 (if b then "true" else "false")
  | .number t => utf8 t
  | .string s => quoted s
  | .array items => 0x5b :: (itemBytes items ++ [0x5d])
  | .object fields => 0x7b :: (fieldBytes fields ++ [0x7d])

def itemBytes : List Json → Bytes
  | [] => []
  | [j] => bytesOf j
  | j :: rest => bytesOf j ++ 0x2c :: itemBytes rest

def fieldBytes : List (String × Json) → Bytes
  | [] => []
  | [(key, j)] => quoted key ++ 0x3a :: bytesOf j
  | (key, j) :: rest => quoted key ++ 0x3a :: (bytesOf j ++ 0x2c :: fieldBytes rest)

end

def hexValue (c : Nat) : Option Nat :=
  if 48 ≤ c ∧ c ≤ 57 then some (c - 48) else if 97 ≤ c ∧ c ≤ 102 then some (c - 87) else none

/-- The bytes of an even number of hexadecimal digits. -/
def hexBytes : Bytes → Option Bytes
  | [] => some []
  | [_] => none
  | a :: b :: rest => do
    let high ← hexValue a.toNat
    let low ← hexValue b.toNat
    let tail ← hexBytes rest
    pure (UInt8.ofNat (16 * high + low) :: tail)

def parseHex (s : String) : Option Bytes :=
  match utf8 s with
  | 0x30 :: 0x78 :: digits => hexBytes digits
  | _ => none

/-- The number a word of exactly `len` bytes spells. -/
def parseWord (len : Nat) (s : String) : Option Nat := do
  let bytes ← parseHex s
  if bytes.length = len then some (bytes.foldl (fun n b => 256 * n + b.toNat) 0) else none

def faucet : AccountId := ⟨0xbb405fd9fe431bd1135a292de098cb⟩

def items : BurnItems := { destDomain := 6, destRecipient := 0x1111111111111111111111111111111111111111 }

def routing : Attachment := { scheme := 1, words := [0xbb405fd9fe431bd1135a292de098cb] }

def withdrawal : Attachment := { scheme := 2, words := [6, 0x1111111111111111111111111111111111111111] }

def asset : Asset := { isFungible := true, faucetId := faucet, amount := 1000000, elements := [1000000] }

def note : Note :=
  { id := ⟨0x0807060504030201181716151413121128272625242322213837363534333231⟩, nullifier := ⟨0x77⟩,
    sender := ⟨0xba0000000000ca110000dd000000ef⟩, scriptRoot := 0xb9, attachments := [routing, withdrawal],
    assets := [asset], storage := [1000000] }

def burn : DiscoveredBurn :=
  { note := note, creationBlock := 100, consumptionBlock := 101, items := items, amount := 1000000 }

def intent : Wire.BurnIntent :=
  { maxBlockHeight := "64509248", maxFee := "11099",
    spec := {
      version := 1, sourceDomain := 26, destinationDomain := 6,
      sourceContract := "0x0000000000000000000000000077777d7eba4688bdef3e311b846f25870a19b9",
      destinationContract := "0x0000000000000000000000000022222abe238cc2c7bb1f21003f0a260052475b",
      sourceToken := "0x0000000000000000000000003600000000000000000000000000000000000000",
      destinationToken := "0x000000000000000000000000036cbd53842c5426634e7929541ec2318f3dcf7e",
      sourceDepositor := "0x000000000000000000000000cc2cbf0357b5a64b0c7f0dcbb49d309f3abb96d2",
      destinationRecipient := "0x0000000000000000000000001111111111111111111111111111111111111111",
      sourceSigner := "0x000000000000000000000000cc2cbf0357b5a64b0c7f0dcbb49d309f3abb96d2",
      destinationCaller := "0x0000000000000000000000000000000000000000000000000000000000000000",
      value := "988901",
      salt := "0x0807060504030201181716151413121128272625242322213837363534333231",
      hookData := {
        remoteDomain := 10007,
        remoteDepositor := "0x00000000000000000000000000000000ba0000000000ca110000dd000000ef00",
        remoteToken := "0x00000000000000000000000000000000bb405fd9fe431bd1135a292de098cb00",
        forwardingContractAddress := "0x0000000000000000000000000000000000000000",
        forwardingCalldata := "0x" } } }

def encoded : String :=
  "0x070afbc20000000000000000000000000000000000000000000000000000000003d85540000000000000000000000000000000" ++
  "0000000000000000000000000000002b5b000001c4ca85def7000000010000001a00000006000000000000000000000000007777" ++
  "7d7eba4688bdef3e311b846f25870a19b90000000000000000000000000022222abe238cc2c7bb1f21003f0a260052475b000000" ++
  "0000000000000000003600000000000000000000000000000000000000000000000000000000000000036cbd53842c5426634e79" ++
  "29541ec2318f3dcf7e000000000000000000000000cc2cbf0357b5a64b0c7f0dcbb49d309f3abb96d20000000000000000000000" ++
  "001111111111111111111111111111111111111111000000000000000000000000cc2cbf0357b5a64b0c7f0dcbb49d309f3abb96" ++
  "d2000000000000000000000000000000000000000000000000000000000000000000000000000000000000000000000000000000" ++
  "000000000000000000000f16e50807060504030201181716151413121128272625242322213837363534333231000000706b20f6" ++
  "2a000000010000271700000000000000000000000000000000bb405fd9fe431bd1135a292de098cb000000000000000000000000" ++
  "0000000000ba0000000000ca110000dd000000ef0000000000000000000000000000000000000000000000000000000000000000" ++
  "0000000000"

def batch : UnverifiedPrepareBatch :=
  { burnIntents := [intent], encoded := encoded,
    messageHashToSign := "0x350e1fa4232c7cb4c583d195701b15b6c6c4f24bd9b661212fe162ebadab420b" }

def reply : UnverifiedPrepareResponse := { batches := [batch] }

def intentJson (raw : Wire.BurnIntent) : Json :=
  .object [("maxBlockHeight", .string raw.maxBlockHeight), ("maxFee", .string raw.maxFee), ("spec", .object [
    ("version", .number (toString raw.spec.version.toNat)),
    ("sourceDomain", .number (toString raw.spec.sourceDomain.toNat)),
    ("destinationDomain", .number (toString raw.spec.destinationDomain.toNat)),
    ("sourceContract", .string raw.spec.sourceContract),
    ("destinationContract", .string raw.spec.destinationContract),
    ("sourceToken", .string raw.spec.sourceToken),
    ("destinationToken", .string raw.spec.destinationToken),
    ("sourceDepositor", .string raw.spec.sourceDepositor),
    ("destinationRecipient", .string raw.spec.destinationRecipient),
    ("sourceSigner", .string raw.spec.sourceSigner),
    ("destinationCaller", .string raw.spec.destinationCaller),
    ("value", .string raw.spec.value),
    ("salt", .string raw.spec.salt),
    ("hookData", .object [
      ("remoteDomain", .number (toString raw.spec.hookData.remoteDomain.toNat)),
      ("remoteDepositor", .string raw.spec.hookData.remoteDepositor),
      ("remoteToken", .string raw.spec.hookData.remoteToken),
      ("forwardingContractAddress", .string raw.spec.hookData.forwardingContractAddress),
      ("forwardingCalldata", .string raw.spec.hookData.forwardingCalldata)])])]

def prepared : Json :=
  .object [("batches", .array [.object [("burnIntents", .array [intentJson intent]), ("encoded", .string encoded),
    ("messageHashToSign", .string batch.messageHashToSign)]])]

def signatureText (s : Signature) : String :=
  String.ofList ('0' :: 'x' :: s.bytes.flatMap fun b => hexDigits 2 b.toNat)

/-- The request of `SignedWithdrawal::submission`. -/
def submission (raw : Wire.BurnIntent) (signatures : Signature × Signature) (id : String) : Json :=
  .object [("batches", .array [.object [("burnIntents", .array [intentJson raw]),
    ("burnSignatures", .array [.string (signatureText signatures.1), .string (signatureText signatures.2)]),
    ("burnTxId", .string id), ("useCircleForwarding", .bool true)]])]

def signature : Signature := ⟨List.replicate 65 0x2a⟩

def withdrawalId : String := "0b0e3d1c-5a3f-4d2e-9c41-7f2b6a1d8e90"

def transferSpecHash : B256 := 0x70aaa7e8c363ee44b9164ee54acfd50dc462835f1a38f4cb5961b7f607e50957

def withdrawalJson (status : String) : Json :=
  .object [("withdrawalId", .string withdrawalId), ("burnTxId", .string note.id.toHex), ("status", .string status),
    ("transferSpecHashes", .array [.string "0x70aaa7e8c363ee44b9164ee54acfd50dc462835f1a38f4cb5961b7f607e50957"])]

def withdrawalResponse (status : String) : WithdrawalResponse :=
  { withdrawalId := withdrawalId, burnNoteId := note.id.toHex, status := status,
    transferSpecHashes := ["0x70aaa7e8c363ee44b9164ee54acfd50dc462835f1a38f4cb5961b7f607e50957"],
    failureReason := none }

/-- The answers to a POST, to a lookup, to a request over the limit, and to a second request for a note. -/
def created : Json := .array [withdrawalJson "created"]

def expired : Json := withdrawalJson "expired"

def limited : Json := .object [("message", .string "Withdrawal limit exceeded for this window")]

def conflict : Json :=
  .object [("conflict", .object [("withdrawalId", .string withdrawalId), ("burnTxId", .string note.id.toHex)])]

/-- Whether a document begins with this text. The documents of a run differ in their first key. -/
def begins (text : String) (body : Bytes) : Bool := (utf8 text).isPrefixOf body

def crates : Crates where
  parseJson body :=
    if begins "\x7b\"message" body then some limited
    else if begins "\x7b\"conflict" body then some conflict
    else if begins "\x7b\"withdrawalId" body then some expired
    else if begins "[" body then some created
    else if begins "\x7b\"batches" body then some prepared
    else none
  parsePrepared body := if begins "\x7b\"batches" body then some reply else none
  parseWithdrawal body := if begins "\x7b\"withdrawalId" body then some (withdrawalResponse "expired") else none
  parseWithdrawals body := if begins "[" body then some [withdrawalResponse "created"] else none
  parseConflict body :=
    if begins "\x7b\"conflict" body then some ⟨some ⟨some withdrawalId, some note.id.toHex⟩⟩ else none
  parseSavedRequest body := if begins "\x7b\"batches" body then some note.id.toHex else none
  renderSubmission raw signatures id := some (bytesOf (submission raw signatures id))
  statusText status := toString status.code
  parseB256 s := (parseWord 32 s).map (BitVec.ofNat 256)
  parseAddress s := (parseWord 20 s).map (BitVec.ofNat 160)
  parseBytes s := parseHex s
  keccak256 _ := transferSpecHash
  signingHash _ := 0x350e1fa4232c7cb4c583d195701b15b6c6c4f24bd9b661212fe162ebadab420b
  abiDecodeDepositForBurn _ := none
  abiDecodeDepositToRemote _ := none
  embedAccountId account := account.raw.setWidth 256 <<< 8
  midenDomain := 10007
  burnScriptRoot := 0xb9
  networkTargetScheme := 1
  withdrawalScheme := 2
  decodeTarget attachment := if attachment = routing then some faucet else none
  decodeItems attachment := if attachment = withdrawal then some items else none
  validate block parent := parent.all fun p => block.header.blockNum == p.blockNum + 1

def config : Config where
  faucetAccountId := faucet
  circleApiBaseUrl := { scheme := "https", userInfo := "", host := some "xreserve-api-testnet.circle.com", port := none,
                        path := "/", query := none, fragment := none, cannotBeABase := false }
  maxWithdrawalFee := 20000
  maxWithdrawalFeeBps := 0
  cctpForwarding := { maxFee := 100, forwarder := 0x008888878f94c0d87defdf0b07f46b93c1934442,
                      tokenMessenger := 0x8fe6b999dc680ccfdd5bf7eb0974218be2542daa }
  xreserveDepositMaxFee := none
  withdrawalLimit := some { messagePrefix := "Withdrawal limit exceeded", retryInterval := 60 * nanosPerSec }
  trustedAnchor := { blockNum := 100, commitment := 0x64 }
  minimumFinalityDepthBlocks := 1
  cctp_fee := by decide
  cctp_forwarder := by decide
  cctp_messenger := by decide
  cctp_distinct := by decide
  redeposit_known := Or.inl rfl
  depth_pos := by decide
  limit_set := by
    intro p hp
    cases hp
    exact ⟨by decide +kernel, by decide⟩
  circle_https := ⟨rfl, rfl⟩

def verified : VerifiedWithdrawal :=
  { noteId := note.id, intent := intent,
    digest := 0x350e1fa4232c7cb4c583d195701b15b6c6c4f24bd9b661212fe162ebadab420b,
    transferSpecHash := transferSpecHash }

end Sample

/-- The captured reply is accepted, and so it is justified. -/
theorem verify_sound_captured :
    verify Sample.crates Sample.reply Sample.burn Sample.config = .ok Sample.verified ∧
      ∃ batch raw intent hook route, Justified Sample.crates Sample.config Sample.burn Sample.reply Sample.verified
        batch raw intent hook route := by
  have h : verify Sample.crates Sample.reply Sample.burn Sample.config = .ok Sample.verified := by decide +kernel
  exact ⟨h, verify_sound h⟩

end LightAttester
