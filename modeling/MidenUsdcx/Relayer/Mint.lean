import MidenUsdcx.Relayer.Circle
/-!
# What the relayer keeps, in memory and on disk (`mint.rs`, `unminted.rs`, `store.rs`, `config.rs`)

| here | there |
| --- | --- |
| `Minter`, `buildNote` | `mint.rs:103-180` |
| `Unminted` | `unminted.rs:18-59` |
| `State`, `ScanProgress` | `store.rs:33-58` |
| `Config` | `config.rs:17-95`, without what only the node and the polling use |

The state file is one `State` or nothing: `set_state` renames a whole new file over it, so it is never torn.
-/
namespace DepositRelayer
open Checked
open LightAttester (Bytes B256 Url AccountId)

/-! ## Configuration -/

structure Config where
  pageSize : PageSize
  /-- Nanoseconds. -/
  requestTimeout : Nat
  remoteDomain : UInt32
  proverUrl : Option Url
  proverTimeout : Nat
  faucetAccountId : AccountId
  relayerAccountId : AccountId
  attesterPublicKey : Bytes

/-- `effective_page_size` (`config.rs:80`). -/
def Config.effectivePageSize (config : Config) : PageSize :=
  config.pageSize.min (if config.proverUrl.isSome then .remoteProvingMax else .localProvingMax)

/-- `validate_prover` (`config.rs:88`). -/
def Config.validateProver (config : Config) : Except String Unit := do
  match config.proverUrl with
  | some url =>
    ensure ((url.scheme = "http" ∨ url.scheme = "https") ∧ url.host.isSome) "prover URL must be an HTTP(S) endpoint"
  | none => pure ()
  ensure (config.proverTimeout ≠ 0) "prover timeout must be greater than zero"

/-! ## Progress -/

/-- How far an unfinished scan got (`store.rs:48`). -/
structure ScanProgress where
  /-- The head of the feed when the scan started: the watermark once it finishes. -/
  head : MessageHash
  /-- The cursor of the page the scan resumes at; every page above it is minted. -/
  resume : CircleCursor
deriving DecidableEq, Repr

/-- Everything the relayer carries from one poll to the next (`store.rs:33`). -/
structure State where
  watermark : Option MessageHash := none
  scan : Option ScanProgress := none
deriving DecidableEq, Repr

/-! ## Building notes -/

structure Minter where
  mintAccount : AccountId
  usdcxFaucet : AccountId
  attester : Bytes
  remoteDomain : UInt32
  rng : RandomCoin

/-- `Minter::from_config` (`mint.rs:115`), with the entropy drawn for the generator. -/
def Minter.fromConfig (config : Config) (seed : RandomCoin) : Minter where
  mintAccount := config.relayerAccountId
  usdcxFaucet := config.faucetAccountId
  attester := config.attesterPublicKey
  remoteDomain := config.remoteDomain
  rng := seed

/-- `build_note` (`mint.rs:163`). A serial number is drawn once the payload is known to be an intent. -/
def Minter.buildNote (C : Crates) (minter : Minter) (a : Attestation) : Except String XUsdcMintNote × Minter :=
  match C.depositIntent a.payload with
  | none => (.error "the payload is not a deposit intent", minter)
  | some intent =>
    let (serial, rng) := C.drawSerial minter.rng
    let note := C.buildMintNote {
      sender := minter.mintAccount, target := minter.usdcxFaucet, remoteDomain := minter.remoteDomain,
      depositIntent := intent, signature := a.signature, attester := minter.attester, serialNumber := serial }
    (orThrow note "building the mint note", { minter with rng := rng })

/-- One entry of the page (`mint.rs:140-147`). -/
def Minter.buildEntry (C : Crates) (minter : Minter) : Entry → Except String XUsdcMintNote × Minter
  | .attestation a => minter.buildNote C a
  | .undecodable position _ reason => (.error s!"entry number {position} of the page does not decode: {reason}", minter)

/-- What one page's attestations became (`mint.rs:91`). -/
structure BuiltNotes where
  notes : List XUsdcMintNote
  skipped : List (Option MessageHash)

/-! ## Deposits on chain and not minted yet -/

/-- Oldest first, each with the time it landed. -/
structure Unminted where
  deposits : List (DepositNonce × Nat) := []

namespace Unminted

def nonces (u : Unminted) : List DepositNonce := u.deposits.map (·.1)

/-- `submitted` (`unminted.rs:30`): a deposit already tracked keeps the time it first landed. -/
def submitted (u : Unminted) (at_ : Nat) : List DepositNonce → Unminted
  | [] => u
  | nonce :: rest =>
    if nonce ∈ u.nonces then u.submitted at_ rest else submitted ⟨u.deposits ++ [(nonce, at_)]⟩ at_ rest

/-- `retain` (`unminted.rs:44`). -/
def retain (u : Unminted) (unminted : List DepositNonce) : Unminted :=
  ⟨u.deposits.filter fun d => decide (d.1 ∈ unminted)⟩

end Unminted

/-- The parts of `Relayer` that change while it runs (`lib.rs:50`). -/
structure Relayer where
  config : Config
  pageSize : PageSize
  minter : Minter
  unminted : Unminted

/-- `limit_to_local_proving` (`circle.rs:297`). -/
def Relayer.limitToLocalProving (self : Relayer) : Relayer :=
  { self with pageSize := self.pageSize.min .localProvingMax }

end DepositRelayer
