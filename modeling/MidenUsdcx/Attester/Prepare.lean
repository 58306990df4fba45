import MidenUsdcx.Attester.Payout
import MidenUsdcx.Attester.Service
/-!
# The request for a withdrawal and its reply (`circle.rs:352-423`, `verify.rs:252-529`)

| here | there |
| --- | --- |
| `PrepareBatch`, `PrepareBatch.fromBurn` | `PrepareBatch` (`circle.rs:358`), `PrepareBatch::from_burn` (`circle.rs:381`) |
| `usdcDecimals` | `UsdcDecimals::from` (`circle.rs:411`) |
| `hexWord` | `format!("0x{}", hex::encode(..))` of 32 bytes |

`from_burn` writes the request and `verify` reads the reply, each from the burn and the configuration. `Prepared` is
about the request's texts alone: a reply repeats them. So `prepare_agrees` says that the two paths agree.
-/
namespace LightAttester
open Checked

/-! ## The request -/

def hexWord (w : B256) : String := String.ofList ('0' :: 'x' :: hexDigits 64 w.toNat)

/-- `10_u64.pow(USDCX_DECIMALS)`. -/
def unitsPerUsdc : Nat := 1000000

/-- The last `len` decimal digits, zero-padded. -/
def decimalDigits : Nat → Nat → List Char
  | 0, _ => []
  | len + 1, n => decimalDigits len (n / 10) ++ [Nat.digitChar (n % 10)]

/-- Whole USDC with all six fractional digits: 1000001 units are `1.000001`. -/
def usdcDecimals (units : Nat) : String :=
  String.ofList (Nat.toDigits 10 (units / unitsPerUsdc) ++ '.' :: decimalDigits 6 (units % unitsPerUsdc))

structure ForwardingOptions where
  maxFee : String
  usesFastFinality : Bool
deriving DecidableEq, Repr

structure PrepareBatch where
  token : String
  remoteDomain : UInt32
  remoteDepositor : String
  finalDestinationDomain : UInt32
  finalDestinationRecipient : String
  valueIncludingFees : String
  salt : String
  useCircleForwarding : Bool
  forwardingOptions : ForwardingOptions
deriving DecidableEq, Repr

def PrepareBatch.fromBurn (C : Crates) (burn : DiscoveredBurn) (forwardingMaxFee : UInt64) : PrepareBatch :=
  { token := "USDC", remoteDomain := C.midenDomain, remoteDepositor := hexWord (C.embedAccountId burn.note.sender),
    finalDestinationDomain := burn.items.destDomain, finalDestinationRecipient := hexWord burn.items.destRecipient,
    valueIncludingFees := usdcDecimals burn.amount.toNat, salt := burn.noteId.toHex, useCircleForwarding := true,
    forwardingOptions := { maxFee := usdcDecimals forwardingMaxFee.toNat, usesFastFinality := true } }

/-! ## The texts of the request -/

/-- Numbers written with the same digits of a fixed width are the same. -/
theorem fixedDigits_inj (base : Nat) (digit : Nat → Char) {digits : Nat → Nat → List Char}
    (hdigit : ∀ a < base, ∀ b < base, digit a = digit b → a = b)
    (hstep : ∀ len n, digits (len + 1) n = digits len (n / base) ++ [digit (n % base)]) (hbase : 0 < base) :
    ∀ len n m, n < Nat.pow base len → m < Nat.pow base len → digits len n = digits len m → n = m := by
  intro len
  induction len with
  | zero =>
    intro n m hn hm _
    rw [Nat.lt_one_iff.1 hn, Nat.lt_one_iff.1 hm]
  | succ len ih =>
    intro n m hn hm h
    rw [hstep, hstep] at h
    obtain ⟨hhigh, hlow⟩ := List.append_singleton_inj.1 h
    have hlt : ∀ {k}, k < Nat.pow base (len + 1) → k / base < Nat.pow base len := fun hk =>
      Nat.div_lt_of_lt_mul (lt_of_lt_of_eq hk (Nat.mul_comm _ _))
    have hdiv := ih _ _ (hlt hn) (hlt hm) hhigh
    have hmod := hdigit _ (Nat.mod_lt n hbase) _ (Nat.mod_lt m hbase) hlow
    rw [← Nat.div_add_mod n base, hdiv, hmod, Nat.div_add_mod]

theorem hexWord_inj {v w : B256} (h : hexWord v = hexWord w) : v = w := by
  have hdigits : hexDigits 64 v.toNat = hexDigits 64 w.toNat := by simpa [hexWord] using String.ofList_injective h
  refine BitVec.eq_of_toNat_eq (fixedDigits_inj 16 Hex.digit (by decide) (fun _ _ => rfl) (by decide)
    64 _ _ ?_ ?_ hdigits)
  · exact lt_of_lt_of_eq v.isLt (by decide)
  · exact lt_of_lt_of_eq w.isLt (by decide)

theorem decimalDigits_length (len n : Nat) : (decimalDigits len n).length = len := by
  induction len generalizing n with
  | zero => rfl
  | succ len ih => rw [decimalDigits, List.length_append, ih]; rfl

/-- An amount is read back from its text. -/
theorem usdcDecimals_inj {a b : Nat} (h : usdcDecimals a = usdcDecimals b) : a = b := by
  have hlist := String.ofList_injective h
  obtain ⟨hwhole, hrest⟩ := List.append_inj' hlist (by simp [decimalDigits_length])
  have hdiv : a / unitsPerUsdc = b / unitsPerUsdc := by
    rw [← Nat.ofDigitChars_ten_toDigits (n := a / unitsPerUsdc), hwhole, Nat.ofDigitChars_ten_toDigits]
  have hmod : a % unitsPerUsdc = b % unitsPerUsdc :=
    fixedDigits_inj 10 Nat.digitChar (by decide) (fun _ _ => rfl) (by decide) 6 _ _
      (Nat.mod_lt a (by decide)) (Nat.mod_lt b (by decide)) (List.cons.inj hrest).2
  rw [← Nat.div_add_mod a unitsPerUsdc, hdiv, hmod, Nat.div_add_mod]

/-! ## A reply that repeats them -/

/-- The payout goes to the requested recipient on the requested chain. -/
structure DirectLeg (request : PrepareBatch) (intent : Eip712.BurnIntent) (hook : HookData) : Prop where
  native : request.finalDestinationDomain < FIRST_REMOTE_DOMAIN
  contract : hook.forwardingContract = 0
  calldata : hook.forwardingCalldata = []
  domain : intent.spec.destinationDomain = request.finalDestinationDomain
  recipient : hexWord intent.spec.destinationRecipient = request.finalDestinationRecipient
  caller : intent.spec.destinationCaller = 0

/-- The payout goes to the forwarder on Arc, whose calldata holds `call`: it moves all of it on by CCTP. -/
structure CctpLeg (C : Crates) (config : Config) (request : PrepareBatch) (intent : Eip712.BurnIntent) (hook : HookData)
    (call : DepositForBurnWithHook) : Prop where
  native : request.finalDestinationDomain < FIRST_REMOTE_DOMAIN
  contract : hook.forwardingContract = config.cctpForwarding.tokenMessenger
  recipient : intent.spec.destinationRecipient = config.cctpForwarding.forwarder.intoWord
  caller : intent.spec.destinationCaller = config.cctpForwarding.forwarder.intoWord
  domain : intent.spec.destinationDomain = ARC_DOMAIN
  token : intent.spec.destinationToken = ARC_USDC.intoWord
  decoded : C.abiDecodeDepositForBurn hook.forwardingCalldata = some call
  canonical : abiEncodeDepositForBurn C call = hook.forwardingCalldata
  amount : call.amount = intent.spec.value
  destination : call.destinationDomain = request.finalDestinationDomain
  mintRecipient : hexWord call.mintRecipient = request.finalDestinationRecipient
  burnToken : call.burnToken = ARC_USDC
  anyCaller : call.destinationCaller = 0
  fee : usdcDecimals call.maxFee.toNat = request.forwardingOptions.maxFee
  finality : call.minFinalityThreshold = CCTP_FAST_FINALITY
  marker : call.hookData = CCTP_FORWARD_MARKER

/-- The payout goes to a known xReserve, whose calldata holds `call`: it deposits all of it again. -/
structure RedepositLeg (C : Crates) (config : Config) (request : PrepareBatch) (intent : Eip712.BurnIntent)
    (hook : HookData) (call : DepositToRemote) : Prop where
  remote : FIRST_REMOTE_DOMAIN ≤ request.finalDestinationDomain
  contract : hook.forwardingContract = config.cctpForwarding.forwarder
  recipient : intent.spec.destinationRecipient = config.cctpForwarding.forwarder.intoWord
  caller : intent.spec.destinationCaller = config.cctpForwarding.forwarder.intoWord
  deployment : ∃ ethereumToken wallet minter,
    xreserveDeployment config.cctpForwarding.forwarder = some (ethereumToken, wallet, minter) ∧
    redepositToken intent.spec.destinationDomain ethereumToken = some call.localToken ∧
    intent.spec.sourceContract = wallet.intoWord ∧ intent.spec.destinationContract = minter.intoWord
  token : intent.spec.destinationToken = call.localToken.intoWord
  decoded : C.abiDecodeDepositToRemote hook.forwardingCalldata = some call
  canonical : abiEncodeDepositToRemote C call = hook.forwardingCalldata
  value : call.value = intent.spec.value
  destination : call.remoteDomain = request.finalDestinationDomain
  remoteRecipient : hexWord call.remoteRecipient = request.finalDestinationRecipient
  fee : usdcDecimals call.maxFee.toNat = request.forwardingOptions.maxFee
  hookData : call.hookData = []

/-- The routes a destination admits, each with what its second leg may cost. -/
inductive RouteTaken (C : Crates) (config : Config) (request : PrepareBatch) (intent : Eip712.BurnIntent)
    (hook : HookData) : Option Nat → Prop where
  | direct : DirectLeg request intent hook → RouteTaken C config request intent hook none
  | cctp {call} : CctpLeg C config request intent hook call →
      RouteTaken C config request intent hook (some call.maxFee.toNat)
  | redeposit {call} : RedepositLeg C config request intent hook call →
      RouteTaken C config request intent hook (some call.maxFee.toNat)

/-- The reply's one intent answers the request, splits the amount within the ceiling, and comes with the canonical
encoding and hash of its fields. -/
structure Prepared (C : Crates) (config : Config) (request : PrepareBatch) (reply : UnverifiedPrepareResponse)
    (batch : UnverifiedPrepareBatch) (raw : Wire.BurnIntent) (intent : Eip712.BurnIntent) (hook : HookData)
    (second : Option Nat) : Prop where
  batches : reply.batches = [batch]
  intents : batch.burnIntents = [raw]
  parsed : parseIntent C raw = .ok (intent, hook)
  salt : hexWord intent.spec.salt = request.salt
  remoteDomain : hook.remoteDomain = request.remoteDomain
  remoteDepositor : hexWord hook.remoteDepositor = request.remoteDepositor
  remoteToken : hook.remoteToken = C.embedAccountId config.faucetAccountId
  split : usdcDecimals (intent.spec.value.toNat + intent.maxFee.toNat) = request.valueIncludingFees
  positive : 0 < intent.spec.value.toNat
  route : RouteTaken C config request intent hook second
  fee : intent.maxFee.toNat + second.getD 0 ≤ config.maxWithdrawalFee.toNat +
    (intent.spec.value.toNat + intent.maxFee.toNat) * config.maxWithdrawalFeeBps.toNat / 10000
  payout : ∀ cost, second = some cost → cost < intent.spec.value.toNat
  encoded : ∃ encoded, intent.encode = .ok encoded ∧ C.parseBytes batch.encoded = some encoded
  digest : C.parseB256 batch.messageHashToSign = some (C.signingHash intent)

/-- The payout is taken out of Circle's own wallet on Arc, in USDC. -/
structure FromArc (intent : Eip712.BurnIntent) : Prop where
  signer : intent.spec.sourceSigner = intent.spec.sourceDepositor
  token : intent.spec.sourceToken = ARC_USDC.intoWord
  domain : intent.spec.sourceDomain = ARC_DOMAIN

section
variable {C : Crates} {config : Config} {burn : DiscoveredBurn} {fee : UInt64} {intent : Eip712.BurnIntent}
  {hook : HookData} {second : Option Nat}

theorem u256_eq_iff {x : U256} : x = u256 fee ↔ usdcDecimals x.toNat = usdcDecimals fee.toNat := by
  constructor
  · rintro rfl
    rw [u256_toNat]
  · intro h
    exact BitVec.eq_of_toNat_eq ((usdcDecimals_inj h).trans (u256_toNat fee).symm)

theorem hexWord_iff {v w : B256} : hexWord v = hexWord w ↔ v = w := ⟨hexWord_inj, fun h => h ▸ rfl⟩

theorem forwardedLeg_iff (hlt : burn.items.destDomain < FIRST_REMOTE_DOMAIN)
    (hfee : config.cctpForwarding.maxFee = fee) :
    verifyForwardedLeg C intent hook burn config.cctpForwarding = .ok () ↔
      ∃ call, CctpLeg C config (PrepareBatch.fromBurn C burn fee) intent hook call := by
  simp only [verifyForwardedLeg, ensure_bind_ok, orThrow_bind_ok, ensure_ok]
  constructor
  · rintro ⟨hcontract, hrecipient, hcaller, hdomain, htoken, call, hdecode, hencode, hamount, hdest, hmint, hburn,
      hnocaller, hmax, hfinality, hmarker⟩
    refine ⟨call, ?_⟩
    exact { native := hlt, contract := hcontract, recipient := hrecipient, caller := hcaller, domain := hdomain,
            token := htoken, decoded := hdecode, canonical := hencode, amount := hamount, destination := hdest,
            mintRecipient := hexWord_iff.2 hmint, burnToken := Address.intoWord_inj (hburn.trans htoken),
            anyCaller := hnocaller, fee := u256_eq_iff.1 (hfee ▸ hmax), finality := hfinality, marker := hmarker }
  · rintro ⟨call, h⟩
    exact ⟨h.contract, h.recipient, h.caller, h.domain, h.token, call, h.decoded, h.canonical, h.amount, h.destination,
      hexWord_iff.1 h.mintRecipient, by rw [h.burnToken, h.token], h.anyCaller, by rw [hfee]; exact u256_eq_iff.2 h.fee,
      h.finality, h.marker⟩

theorem redepositLeg_iff (hle : FIRST_REMOTE_DOMAIN ≤ burn.items.destDomain) :
    verifyRedepositLeg C intent hook burn config.cctpForwarding.forwarder fee = .ok () ↔
      ∃ call, RedepositLeg C config (PrepareBatch.fromBurn C burn fee) intent hook call := by
  rw [verifyRedepositLeg_iff]
  constructor
  · rintro ⟨ethereumToken, wallet, minter, token, call, hdeploy, htoken, hspec, hdecode, hencode, hcall⟩
    obtain ⟨hcontract, hrecipient, hcaller, hdest, hwallet, hminter⟩ := hspec
    obtain ⟨hvalue, hdomain, hto, rfl, hmax, hhook⟩ := hcall
    refine ⟨call, ?_⟩
    exact { remote := hle, contract := hcontract, recipient := hrecipient, caller := hcaller,
            deployment := ⟨ethereumToken, wallet, minter, hdeploy, htoken, hwallet, hminter⟩, token := hdest,
            decoded := hdecode, canonical := hencode, value := hvalue, destination := hdomain,
            remoteRecipient := hexWord_iff.2 hto, fee := u256_eq_iff.1 hmax, hookData := hhook }
  · rintro ⟨call, h⟩
    obtain ⟨ethereumToken, wallet, minter, hdeploy, htoken, hwallet, hminter⟩ := h.deployment
    exact ⟨ethereumToken, wallet, minter, call.localToken, call, hdeploy, htoken,
      ⟨h.contract, h.recipient, h.caller, h.token, hwallet, hminter⟩, h.decoded, h.canonical, h.value, h.destination,
      hexWord_iff.1 h.remoteRecipient, rfl, u256_eq_iff.2 h.fee, h.hookData⟩

theorem forwarded_eq_false : hook.forwarded = false ↔ hook.forwardingContract = 0 ∧ hook.forwardingCalldata = [] := by
  simp [HookData.forwarded]

/-- The route checks accept a reply on one of the routes, and give the cost of its second leg. -/
theorem verifyRoute_iff (hfee : config.forwardingMaxFee burn.items.destDomain = some fee) {secondary : U256} :
    verifyRoute C intent hook burn config fee = .ok secondary ↔
      ∃ second, RouteTaken C config (PrepareBatch.fromBurn C burn fee) intent hook second ∧
        secondary.toNat = second.getD 0 ∧
        ((hook.forwarded = true ∨ FIRST_REMOTE_DOMAIN ≤ burn.items.destDomain) ↔ second.isSome = true) := by
  have hcost : ∀ {x : U256}, usdcDecimals x.toNat = usdcDecimals fee.toNat → x.toNat = (u256 fee).toNat := fun h =>
    congrArg BitVec.toNat (u256_eq_iff.2 h)
  unfold verifyRoute
  by_cases hle : FIRST_REMOTE_DOMAIN ≤ burn.items.destDomain
  · rw [if_pos hle]
    simp only [bind_ok, pure_ok]
    constructor
    · rintro ⟨_, hleg, rfl⟩
      obtain ⟨call, h⟩ := (redepositLeg_iff hle).1 hleg
      exact ⟨_, .redeposit h, (hcost h.fee).symm, by simp [hle]⟩
    · rintro ⟨second, hroute, hsecondary, hsome⟩
      cases hroute with
      | direct h => exact absurd hle (UInt32.not_le.2 h.native)
      | cctp h => exact absurd hle (UInt32.not_le.2 h.native)
      | redeposit h =>
        exact ⟨(), (redepositLeg_iff hle).2 ⟨_, h⟩, BitVec.eq_of_toNat_eq ((hcost h.fee).symm.trans hsecondary.symm)⟩
  · have hlt := UInt32.not_le.1 hle
    have hmax := (forwardingMaxFee_native hlt hfee).symm
    rw [if_neg hle]
    by_cases hfwd : hook.forwarded = true
    · rw [if_pos hfwd]
      simp only [bind_ok, pure_ok]
      constructor
      · rintro ⟨_, hleg, rfl⟩
        obtain ⟨call, h⟩ := (forwardedLeg_iff hlt hmax).1 hleg
        exact ⟨_, .cctp h, (hcost h.fee).symm, by simp [hfwd]⟩
      · rintro ⟨second, hroute, hsecondary, hsome⟩
        cases hroute with
        | direct h => cases hfwd.symm.trans (forwarded_eq_false.2 ⟨h.contract, h.calldata⟩)
        | cctp h =>
          exact ⟨(), (forwardedLeg_iff hlt hmax).2 ⟨_, h⟩, BitVec.eq_of_toNat_eq ((hcost h.fee).symm.trans hsecondary.symm)⟩
        | redeposit h => exact absurd h.remote hle
    · rw [if_neg hfwd]
      simp only [ensure_bind_ok, pure_ok]
      obtain ⟨hcontract, hcalldata⟩ := forwarded_eq_false.1 (Bool.eq_false_iff.2 hfwd)
      constructor
      · rintro ⟨hdomain, hrecipient, hcaller, rfl⟩
        exact ⟨none, .direct ⟨hlt, hcontract, hcalldata, hdomain, hexWord_iff.2 hrecipient, hcaller⟩, rfl,
          by simp [hfwd, hle]⟩
      · rintro ⟨second, hroute, hsecondary, hsome⟩
        cases hroute with
        | direct h =>
          exact ⟨h.domain, hexWord_iff.1 h.recipient, h.caller, BitVec.eq_of_toNat_eq hsecondary.symm⟩
        | cctp h => exact absurd (h.contract.symm.trans hcontract) config.cctp_messenger
        | redeposit h => exact absurd h.remote hle

theorem spec_hash_ok {encoded : Bytes} (h : intent.encode = .ok encoded) : ∃ hash, intent.spec.hash C = .ok hash := by
  rw [Eip712.BurnIntent.encode, bind_ok] at h
  obtain ⟨bytes, hbytes, -⟩ := h
  exact ⟨C.keccak256 bytes, bind_ok.2 ⟨bytes, hbytes, rfl⟩⟩

/-- `verify` accepts what passes its checks. -/
theorem verify_of_accepts {reply : UnverifiedPrepareResponse} {batch : UnverifiedPrepareBatch} {raw : Wire.BurnIntent}
    {secondary : U256} (h : Accepts C reply burn config batch raw intent hook fee secondary) :
    ∃ v, verify C reply burn config = .ok v := by
  obtain ⟨encoded, hsupplied, hencoded⟩ := h.encoded
  obtain ⟨hash, hhash⟩ := spec_hash_ok (C := C) hencoded
  have hpay : ¬ ((hook.forwarded = true ∨ FIRST_REMOTE_DOMAIN ≤ burn.items.destDomain) ∧
      intent.spec.value ≤ secondary) := fun hboth => absurd hboth.2 (BitVec.not_le.2 (h.payout hboth.1))
  refine ⟨⟨burn.noteId, raw, C.signingHash intent, hash⟩, ?_⟩
  simp only [verify, orThrow_bind_ok]
  refine ⟨_, h.sole, bind_ok.2 ⟨_, h.parsed, ?_⟩⟩
  simp only [ensure_bind_ok, orThrow_bind_ok]
  refine ⟨h.salt, fee, h.supported, bind_ok.2 ⟨_, h.route, ?_⟩⟩
  simp only [ensure_bind_ok, parseField, orThrow_bind_ok]
  refine ⟨h.remoteDomain, h.remoteDepositor, h.remoteToken, h.amount, h.fee, h.signer, h.sourceToken, h.sourceDomain,
    encoded, hsupplied, bind_ok.2 ⟨encoded, hencoded, ?_⟩⟩
  simp only [ensure_bind_ok, orThrow_bind_ok]
  refine ⟨trivial, _, h.digest, rfl, ?_⟩
  rw [if_neg hpay]
  exact bind_ok.2 ⟨hash, hhash, rfl⟩

theorem soleIntent_iff {reply : UnverifiedPrepareResponse} {batch : UnverifiedPrepareBatch} {raw : Wire.BurnIntent} :
    soleIntent reply = some (batch, raw) ↔ reply.batches = [batch] ∧ batch.burnIntents = [raw] := by
  constructor
  · intro h
    unfold soleIntent at h
    split at h
    · rename_i b hb
      split at h
      · rename_i r hr
        cases h
        exact ⟨hb, hr⟩
      · cases h
    · cases h
  · rintro ⟨hb, hr⟩
    simp only [soleIntent, hb, hr]

/-- The sum of two amounts is the burned amount. -/
theorem checkedAdd_iff {value maxFee : U256} {amount : UInt64} :
    checkedAddU256 value maxFee = some (u256 amount) ↔ value.toNat + maxFee.toNat = amount.toNat := by
  constructor
  · intro h
    rw [checkedAddU256_eq_some h, u256_toNat]
  · intro h
    have hfits : ¬ value.uaddOverflow maxFee = true := by
      have hlt : amount.toNat < UInt64.size := amount.toNat_lt_size
      simp only [BitVec.uaddOverflow, ge_iff_le, decide_eq_true_eq, not_le]
      rw [h]
      exact hlt.trans (by decide)
    rw [checkedAddU256, if_neg hfits]
    exact congrArg some (BitVec.eq_of_toNat_eq (by rw [toNat_add_of_not_overflow hfits, h, u256_toNat]))

/-- The ceiling on the fee, as numbers. -/
theorem fee_iff {maxFee secondary : U256} {amount : UInt64} :
    saturatingAddU256 maxFee secondary ≤ feeCeiling config (u256 amount) ↔
      maxFee.toNat + secondary.toNat ≤
        config.maxWithdrawalFee.toNat + amount.toNat * config.maxWithdrawalFeeBps.toNat / 10000 := by
  have hbound : (feeCeiling config (u256 amount)).toNat < U256.MAX.toNat := by
    rw [feeCeiling_toNat]
    exact (ceiling_lt config amount).2
  rw [← feeCeiling_toNat]
  constructor
  · intro h
    exact saturatingAddU256_le h hbound
  · intro h
    have hfits : ¬ maxFee.uaddOverflow secondary = true := by
      simp only [BitVec.uaddOverflow, ge_iff_le, decide_eq_true_eq, not_le]
      exact (h.trans_lt hbound).trans U256.MAX.isLt
    rw [saturatingAddU256, if_neg hfits]
    exact BitVec.le_def.2 (by rw [toNat_add_of_not_overflow hfits]; exact h)

/-- The checks of `verify` are that the reply answers the request, and is paid out of Circle's wallet on Arc. -/
theorem accepts_iff {reply : UnverifiedPrepareResponse} {batch : UnverifiedPrepareBatch} {raw : Wire.BurnIntent}
    (hfee : config.forwardingMaxFee burn.items.destDomain = some fee) :
    (∃ secondary, Accepts C reply burn config batch raw intent hook fee secondary) ↔
      FromArc intent ∧ ∃ second, Prepared C config (PrepareBatch.fromBurn C burn fee) reply batch raw intent hook second := by
  constructor
  · rintro ⟨secondary, h⟩
    obtain ⟨second, hroute, hsecondary, hsome⟩ := (verifyRoute_iff hfee).1 h.route
    have hsum := checkedAdd_iff.1 h.amount.2
    obtain ⟨hbatches, hintents⟩ := soleIntent_iff.1 h.sole
    obtain ⟨encoded, hsupplied, hencoded⟩ := h.encoded
    refine ⟨⟨h.signer, h.sourceToken, h.sourceDomain⟩, second, ?_⟩
    exact { batches := hbatches, intents := hintents, parsed := h.parsed, salt := h.salt ▸ rfl,
            remoteDomain := h.remoteDomain, remoteDepositor := hexWord_iff.2 h.remoteDepositor,
            remoteToken := h.remoteToken, split := congrArg usdcDecimals hsum,
            positive := Nat.pos_of_ne_zero fun h0 => h.amount.1 (BitVec.eq_of_toNat_eq (by simpa using h0)),
            route := hroute, fee := by rw [hsum, ← hsecondary]; exact fee_iff.1 h.fee,
            payout := fun cost hcost => by
              have hlt := h.payout (hsome.2 (by rw [hcost]; rfl))
              rw [hcost] at hsecondary
              exact lt_of_eq_of_lt hsecondary.symm (BitVec.lt_def.1 hlt),
            encoded := ⟨encoded, hencoded, hsupplied⟩, digest := h.digest }
  · rintro ⟨harc, second, h⟩
    have hsum : intent.spec.value.toNat + intent.maxFee.toNat = burn.amount.toNat := usdcDecimals_inj h.split
    -- The second leg costs what the request asked for, so it fits a word.
    obtain ⟨secondary, hsecondary⟩ : ∃ secondary : U256, secondary.toNat = second.getD 0 := by
      cases h.route with
      | direct _ => exact ⟨0, rfl⟩
      | cctp _ => exact ⟨_, rfl⟩
      | redeposit _ => exact ⟨_, rfl⟩
    have hsome : (hook.forwarded = true ∨ FIRST_REMOTE_DOMAIN ≤ burn.items.destDomain) ↔ second.isSome = true := by
      cases h.route with
      | direct hleg =>
        have hno := forwarded_eq_false.2 ⟨hleg.contract, hleg.calldata⟩
        have hlt : ¬ FIRST_REMOTE_DOMAIN ≤ burn.items.destDomain := UInt32.not_le.2 hleg.native
        simp [hno, hlt]
      | cctp hleg =>
        have hyes : hook.forwarded = true := by
          rw [← Bool.not_eq_false, forwarded_eq_false]
          exact fun hzero => config.cctp_messenger (hleg.contract.symm.trans hzero.1)
        simp [hyes]
      | redeposit hleg =>
        have hle : FIRST_REMOTE_DOMAIN ≤ burn.items.destDomain := hleg.remote
        simp [hle]
    obtain ⟨encoded, hencoded, hsupplied⟩ := h.encoded
    refine ⟨secondary, ?_⟩
    exact { sole := soleIntent_iff.2 ⟨h.batches, h.intents⟩, parsed := h.parsed,
            salt := (hexWord_inj (w := burn.noteId.word) h.salt).symm, supported := hfee,
            route := (verifyRoute_iff hfee).2 ⟨second, h.route, hsecondary, hsome⟩, remoteDomain := h.remoteDomain,
            remoteDepositor := hexWord_inj h.remoteDepositor, remoteToken := h.remoteToken,
            amount := ⟨fun h0 => by have := h.positive; rw [h0] at this; exact absurd this (by decide),
              checkedAdd_iff.2 hsum⟩,
            fee := fee_iff.2 (by rw [hsecondary, ← hsum]; exact h.fee), signer := harc.signer, sourceToken := harc.token,
            sourceDomain := harc.domain, encoded := ⟨encoded, hsupplied, hencoded⟩, digest := h.digest,
            payout := fun hsecond => by
              obtain ⟨cost, hcost⟩ := Option.isSome_iff_exists.1 (hsome.1 hsecond)
              refine BitVec.lt_def.2 ?_
              rw [hsecondary, hcost]
              exact h.payout cost hcost }

end

structure PrepareAgrees (C : Crates) (config : Config) (burn : DiscoveredBurn) : Prop where
  /-- `verify` accepts exactly the replies that answer the request and are paid out of Circle's wallet on Arc. -/
  accepted : ∀ reply, (∃ v, verify C reply burn config = .ok v) ↔ ∃ fee batch raw intent hook second,
    config.forwardingMaxFee burn.items.destDomain = some fee ∧ FromArc intent ∧
      Prepared C config (PrepareBatch.fromBurn C burn fee) reply batch raw intent hook second
  /-- The fee of the second leg in an accepted reply is the one that was asked for. -/
  sameFee : ∀ reply v, verify C reply burn config = .ok v → ∀ fee batch raw intent hook cost,
    config.forwardingMaxFee burn.items.destDomain = some fee →
      Prepared C config (PrepareBatch.fromBurn C burn fee) reply batch raw intent hook (some cost) → cost = fee.toNat
  /-- A withdrawal asks Circle with that fee, and checks the reply with `verify`. -/
  asked : ∀ fee, config.forwardingMaxFee burn.items.destDomain = some fee → ∃ next,
    withdraw C config burn = prepareWithdrawal config burn fee >>= fun prepared =>
      attempt SubmitError.verification (verify C prepared burn config) >>= next

/-- **Prepare and verify agree**, for every burn and every configuration. -/
theorem prepare_agrees (C : Crates) (config : Config) (burn : DiscoveredBurn) : PrepareAgrees C config burn := by
  constructor
  · intro reply
    constructor
    · rintro ⟨v, hv⟩
      obtain ⟨batch, raw, intent, hook, fee, secondary, hash, haccepts, -, -⟩ := verify_ok hv
      obtain ⟨harc, second, hprepared⟩ := (accepts_iff haccepts.supported).1 ⟨secondary, haccepts⟩
      exact ⟨fee, batch, raw, intent, hook, second, haccepts.supported, harc, hprepared⟩
    · rintro ⟨fee, batch, raw, intent, hook, second, hfee, harc, hprepared⟩
      obtain ⟨secondary, haccepts⟩ := (accepts_iff hfee).2 ⟨harc, second, hprepared⟩
      exact verify_of_accepts haccepts
  · intro reply v _ fee batch raw intent hook cost hfee hprepared
    cases hprepared.route with
    | cctp hleg => exact usdcDecimals_inj hleg.fee
    | redeposit hleg => exact usdcDecimals_inj hleg.fee
  · intro fee hfee
    unfold withdraw
    rw [hfee]
    exact ⟨_, rfl⟩

namespace Sample

/-- The captured intent with another source domain, and its canonical bytes. -/
def strayRaw : Wire.BurnIntent := { intent with spec := { intent.spec with sourceDomain := 6 } }

def strayHook : HookData :=
  { remoteDomain := 10007, remoteToken := 0xbb405fd9fe431bd1135a292de098cb00,
    remoteDepositor := 0xba0000000000ca110000dd000000ef00, forwardingContract := 0, forwardingCalldata := [] }

def strayIntent : Eip712.BurnIntent :=
  { maxBlockHeight := 64509248, maxFee := 11099,
    spec := {
      version := 1, sourceDomain := 6, destinationDomain := 6,
      sourceContract := 0x77777d7eba4688bdef3e311b846f25870a19b9,
      destinationContract := 0x22222abe238cc2c7bb1f21003f0a260052475b,
      sourceToken := 0x3600000000000000000000000000000000000000,
      destinationToken := 0x036cbd53842c5426634e7929541ec2318f3dcf7e,
      sourceDepositor := 0xcc2cbf0357b5a64b0c7f0dcbb49d309f3abb96d2,
      destinationRecipient := 0x1111111111111111111111111111111111111111,
      sourceSigner := 0xcc2cbf0357b5a64b0c7f0dcbb49d309f3abb96d2,
      destinationCaller := 0, value := 988901,
      salt := 0x0807060504030201181716151413121128272625242322213837363534333231,
      hookData := strayHook.encode.toOption.getD [] } }

def strayEncoded : String :=
  "0x070afbc20000000000000000000000000000000000000000000000000000000003d85540000000000000000000000000000000" ++
  "0000000000000000000000000000002b5b000001c4ca85def7000000010000000600000006000000000000000000000000007777" ++
  "7d7eba4688bdef3e311b846f25870a19b90000000000000000000000000022222abe238cc2c7bb1f21003f0a260052475b000000" ++
  "0000000000000000003600000000000000000000000000000000000000000000000000000000000000036cbd53842c5426634e79" ++
  "29541ec2318f3dcf7e000000000000000000000000cc2cbf0357b5a64b0c7f0dcbb49d309f3abb96d20000000000000000000000" ++
  "001111111111111111111111111111111111111111000000000000000000000000cc2cbf0357b5a64b0c7f0dcbb49d309f3abb96" ++
  "d2000000000000000000000000000000000000000000000000000000000000000000000000000000000000000000000000000000" ++
  "000000000000000000000f16e50807060504030201181716151413121128272625242322213837363534333231000000706b20f6" ++
  "2a000000010000271700000000000000000000000000000000bb405fd9fe431bd1135a292de098cb000000000000000000000000" ++
  "0000000000ba0000000000ca110000dd000000ef0000000000000000000000000000000000000000000000000000000000000000" ++
  "0000000000"

def strayBatch : UnverifiedPrepareBatch := { batch with burnIntents := [strayRaw], encoded := strayEncoded }

def strayReply : UnverifiedPrepareResponse := { batches := [strayBatch] }

end Sample

/-- A reply that answers the request in all of its fields but is paid out on another chain than Arc is refused. -/
theorem stray_source_refused :
    Sample.config.forwardingMaxFee Sample.burn.items.destDomain = some 100 ∧
      Prepared Sample.crates Sample.config (PrepareBatch.fromBurn Sample.crates Sample.burn 100) Sample.strayReply
        Sample.strayBatch Sample.strayRaw Sample.strayIntent Sample.strayHook none ∧
      verify Sample.crates Sample.strayReply Sample.burn Sample.config = .error .wrongSourceDomain := by
  refine ⟨by decide +kernel, ?_, by decide +kernel⟩
  exact { batches := rfl, intents := rfl, parsed := by decide +kernel, salt := by decide +kernel, remoteDomain := rfl,
          remoteDepositor := by decide +kernel, remoteToken := by decide +kernel, split := by decide +kernel,
          positive := by decide, route := .direct ⟨by decide, rfl, rfl, rfl, by decide +kernel, rfl⟩,
          fee := by decide +kernel, payout := by simp,
          encoded := ⟨Sample.strayIntent.encode.toOption.getD [], by decide +kernel, by decide +kernel⟩,
          digest := by decide +kernel }

end LightAttester
