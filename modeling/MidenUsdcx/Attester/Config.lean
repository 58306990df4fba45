import MidenUsdcx.Attester.Types
import MidenUsdcx.Lib.Checked
/-!
# Configuration (`config.rs`)

`Config` keeps what `Config::try_from` checks as fields, so a configuration the attester would refuse
cannot be built. Settings the modelled code does not read (KMS, the node, timeouts, the poll interval,
the store's path, the signing keys) are left out.
-/
namespace LightAttester
open Checked

def FIRST_REMOTE_DOMAIN : UInt32 := 10000
def STACKS_DOMAIN : UInt32 := 10003
def CARDANO_DOMAIN : UInt32 := 10004
def MOVEMENT_DOMAIN : UInt32 := 10005

/-- `xreserve_deployment` (`verify.rs:447`): USDC on Ethereum, the GatewayWallet and the GatewayMinter
that go with the xReserve at this address, for the mainnet and the testnet deployment. -/
def xreserveDeployment (xreserve : Address) : Option (Address × Address × Address) :=
  if xreserve = 0x8888888199b2df864bf678259607d6d5ebb4e3ce then
    some (0xa0b86991c6218b36c1d19d4a2e9eb0ce3606eb48, 0x77777777dcc4d5a8b6e418fd04d8997ef11000ee,
      0x2222222d7164433c4c09b0b0d809a9b52c04c205)
  else if xreserve = 0x008888878f94c0d87defdf0b07f46b93c1934442 then
    some (0x1c7d4b196cb0c7b01d743fbc6116a902379c7238, 0x0077777d7eba4688bdef3e311b846f25870a19b9,
      0x0022222abe238cc2c7bb1f21003f0a260052475b)
  else none

/-- What a forwarded withdrawal is checked against (`config.rs:228`). -/
structure CctpForwarding where
  maxFee : UInt64
  forwarder : Address
  tokenMessenger : Address
deriving DecidableEq, Repr

/-- How limit rejections are recognised and their retries spaced out (`config.rs:239`). -/
structure WithdrawalLimit where
  messagePrefix : String
  retryInterval : Nat
deriving DecidableEq, Repr

/-- `SystemTime::duration_since(UNIX_EPOCH)`. -/
def sinceEpoch (now : Int) : Option Nat := if now < 0 then none else some now.toNat

/-- `Duration::checked_add`: the sum, if its whole seconds fit in a `u64`. -/
def checkedAdd (a b : Nat) : Option Nat :=
  if asSecs (a + b) < UInt64.size then some (a + b) else none

/-- `as_secs() + u64::from(subsec_nanos() != 0)`: the whole seconds of a duration, rounded up. -/
def secsCeil (d : Nat) : Nat := asSecs d + if d % nanosPerSec ≠ 0 then 1 else 0

/-- `WithdrawalLimit::retry_at` (`config.rs:250`): the Unix second, rounded up, at which a burn
rejected at `now` may be tried again. -/
def WithdrawalLimit.retryAt (policy : WithdrawalLimit) (now : Int) : Except String Nat := do
  let since ← orThrow (sinceEpoch now) "system clock is before the Unix epoch"
  let deadline ← orThrow (checkedAdd since policy.retryInterval) "withdrawal retry deadline overflow"
  ensure (secsCeil deadline < UInt64.size) "withdrawal retry deadline overflow"
  ensure (secsCeil deadline ≤ I64.MAX) "withdrawal retry deadline exceeds the store's range"
  pure (secsCeil deadline)

theorem secsCeil_bounds (d : Nat) :
    d ≤ secsCeil d * nanosPerSec ∧ secsCeil d * nanosPerSec < d + nanosPerSec := by
  simp only [secsCeil, asSecs, nanosPerSec]
  split <;> omega

theorem sinceEpoch_eq_some {now : Int} {d : Nat} (h : sinceEpoch now = some d) : now = (d : Int) := by
  unfold sinceEpoch at h
  split at h
  · cases h
  · rename_i hn
    cases h
    exact (Int.toNat_of_nonneg (not_lt.1 hn)).symm

theorem checkedAdd_eq_some {a b d : Nat} (h : checkedAdd a b = some d) : d = a + b := by
  unfold checkedAdd at h
  split at h
  · exact (Option.some.inj h).symm
  · cases h

/-- What a deadline is: the clock is past the epoch, and it is the ceiling of `now + interval`. -/
theorem retryAt_ok {policy : WithdrawalLimit} {now : Int} {r : Nat} (h : policy.retryAt now = .ok r) :
    ∃ d : Nat, now = d ∧ sinceEpoch now = some d ∧ r = secsCeil (d + policy.retryInterval) ∧ r ≤ I64.MAX := by
  simp only [WithdrawalLimit.retryAt, orThrow_bind_ok, ensure_bind_ok, pure_ok] at h
  obtain ⟨d, hd, deadline, hdl, -, hr, rfl⟩ := h
  obtain rfl := checkedAdd_eq_some hdl
  exact ⟨d, sinceEpoch_eq_some hd, hd, rfl, hr⟩

/-- A missing deadline is never a wrapped number: the clock is before the epoch, or the ceiling does
not fit the store's range. -/
theorem retryAt_error {policy : WithdrawalLimit} {now : Int} {e : String}
    (h : policy.retryAt now = .error e) :
    now < 0 ∨ ∃ d : Nat, now = d ∧ I64.MAX < secsCeil (d + policy.retryInterval) := by
  by_cases hn : now < 0
  · exact Or.inl hn
  · obtain ⟨d, hd⟩ := Int.eq_ofNat_of_zero_le (not_lt.1 hn)
    refine Or.inr ⟨d, hd, ?_⟩
    by_contra hlt
    have hsince : sinceEpoch now = some d := by
      have : now.toNat = d := by rw [hd]; rfl
      simp [sinceEpoch, hn, this]
    have hceil : secsCeil (d + policy.retryInterval) ≤ I64.MAX := not_lt.1 hlt
    have hsmall : secsCeil (d + policy.retryInterval) < UInt64.size := hceil.trans_lt (by decide)
    have hadd : checkedAdd d policy.retryInterval = some (d + policy.retryInterval) := by
      have : asSecs (d + policy.retryInterval) ≤ secsCeil (d + policy.retryInterval) :=
        Nat.le_add_right _ _
      unfold checkedAdd
      rw [if_pos (this.trans_lt hsmall)]
    have hok : policy.retryAt now = .ok (secsCeil (d + policy.retryInterval)) := by
      simp only [WithdrawalLimit.retryAt, orThrow_bind_ok, ensure_bind_ok, pure_ok]
      exact ⟨d, hsince, _, hadd, hsmall, hceil, rfl⟩
    rw [hok] at h
    cases h

/-- The settings of the command line that `Config` is built from (`config.rs:33-175`). -/
structure Cli where
  circleUrl : Url
  faucetAccountId : AccountId
  maxWithdrawalFee : UInt64
  maxWithdrawalFeeBps : UInt64
  cctpForwardingMaxFee : UInt64
  cctpForwarderAddress : Address
  cctpTokenMessengerAddress : Address
  xreserveDepositMaxFee : Option UInt64
  withdrawalLimitMessagePrefix : Option String
  withdrawalLimitRetryInterval : Option Nat
  faucetDeploymentBlock : BlockNumber
  trustedAnchorBlock : BlockNumber
  trustedAnchorCommitment : B256
  minimumFinalityDepthBlocks : Nat

/-- A configuration `Config::try_from` accepts (`config.rs:266`). -/
structure Config where
  faucetAccountId : AccountId
  circleApiBaseUrl : Url
  maxWithdrawalFee : UInt64
  maxWithdrawalFeeBps : UInt64
  cctpForwarding : CctpForwarding
  xreserveDepositMaxFee : Option UInt64
  withdrawalLimit : Option WithdrawalLimit
  trustedAnchor : TrustedAnchor
  minimumFinalityDepthBlocks : Nat
  cctp_fee : cctpForwarding.maxFee ≠ 0
  cctp_forwarder : cctpForwarding.forwarder ≠ 0
  cctp_messenger : cctpForwarding.tokenMessenger ≠ 0
  cctp_distinct : cctpForwarding.forwarder ≠ cctpForwarding.tokenMessenger
  redeposit_known : xreserveDepositMaxFee = none ∨ (xreserveDeployment cctpForwarding.forwarder).isSome
  depth_pos : minimumFinalityDepthBlocks ≠ 0
  limit_set : ∀ p, withdrawalLimit = some p → isBlank p.messagePrefix = false ∧ p.retryInterval ≠ 0
  circle_https : circleApiBaseUrl.scheme = "https" ∧ circleApiBaseUrl.host.isSome

/-- `message_prefix.zip(retry_interval)`, checked (`config.rs:292-310`). -/
def withdrawalLimitOf (cli : Cli) : Except String (Option WithdrawalLimit) :=
  match cli.withdrawalLimitMessagePrefix, cli.withdrawalLimitRetryInterval with
  | some p, some i => do
    ensure (isBlank p = false) "withdrawal limit message prefix must not be blank"
    ensure (i ≠ 0) "withdrawal limit retry interval must be greater than zero"
    pure (some ⟨p, i⟩)
  | _, _ => pure none

theorem withdrawalLimitOf_ok {cli : Cli} {l : Option WithdrawalLimit} (h : withdrawalLimitOf cli = .ok l) :
    ∀ p, l = some p → isBlank p.messagePrefix = false ∧ p.retryInterval ≠ 0 := by
  intro p hp
  unfold withdrawalLimitOf at h
  split at h
  · simp only [ensure_bind_ok, pure_ok] at h
    obtain ⟨h1, h2, rfl⟩ := h
    cases hp
    exact ⟨h1, h2⟩
  · simp only [pure_ok] at h
    subst h
    cases hp

/-- `Config::try_from` (`config.rs:287`), with the messages of its checks in order. -/
def Config.tryFrom (cli : Cli) : Except String Config :=
  match hl : withdrawalLimitOf cli with
  | .error e => .error e
  | .ok limit =>
    if h1 : cli.cctpForwardingMaxFee = 0 then .error "cctp forwarding max fee must be above zero"
    else if h2 : cli.cctpForwarderAddress = 0 then .error "cctp forwarder address must not be zero"
    else if h3 : cli.cctpTokenMessengerAddress = 0 then .error "cctp token messenger address must not be zero"
    else if h4 : cli.cctpForwarderAddress = cli.cctpTokenMessengerAddress then
      .error "cctp forwarder and token messenger addresses must differ"
    else if h5 : ¬(cli.xreserveDepositMaxFee = none ∨ (xreserveDeployment cli.cctpForwarderAddress).isSome) then
      .error "xreserve deposit max fee requires a known xreserve deployment as cctp forwarder address"
    else if h6 : cli.minimumFinalityDepthBlocks = 0 then .error "minimum finality depth must be greater than zero"
    else if cli.faucetDeploymentBlock < cli.trustedAnchorBlock then
      .error "trusted anchor must not be after the faucet deployment block"
    else if h7 : ¬(cli.circleUrl.scheme = "https" ∧ cli.circleUrl.host.isSome) then
      .error "Circle API base URL must be an absolute HTTPS URL"
    else .ok {
      faucetAccountId := cli.faucetAccountId
      circleApiBaseUrl := cli.circleUrl
      maxWithdrawalFee := cli.maxWithdrawalFee
      maxWithdrawalFeeBps := cli.maxWithdrawalFeeBps
      cctpForwarding := ⟨cli.cctpForwardingMaxFee, cli.cctpForwarderAddress, cli.cctpTokenMessengerAddress⟩
      xreserveDepositMaxFee := cli.xreserveDepositMaxFee
      withdrawalLimit := limit
      trustedAnchor := ⟨cli.trustedAnchorBlock, cli.trustedAnchorCommitment⟩
      minimumFinalityDepthBlocks := cli.minimumFinalityDepthBlocks
      cctp_fee := h1
      cctp_forwarder := h2
      cctp_messenger := h3
      cctp_distinct := h4
      redeposit_known := not_not.1 h5
      depth_pos := h6
      limit_set := withdrawalLimitOf_ok hl
      circle_https := not_not.1 h7 }

/-- `Config::forwarding_max_fee` (`config.rs:460`): remote destinations need explicit support,
native-USDC routes keep their CCTP cap. -/
def Config.forwardingMaxFee (config : Config) (destination : UInt32) : Option UInt64 :=
  if destination = STACKS_DOMAIN ∨ destination = CARDANO_DOMAIN ∨ destination = MOVEMENT_DOMAIN then
    config.xreserveDepositMaxFee
  else if FIRST_REMOTE_DOMAIN ≤ destination then none
  else some config.cctpForwarding.maxFee

end LightAttester
