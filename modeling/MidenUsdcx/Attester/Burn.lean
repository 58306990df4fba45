import MidenUsdcx.Attester.Crates
import MidenUsdcx.Lib.Checked
/-!
# Burn notes (`burn.rs`)
-/
namespace LightAttester
open Checked

/-- A public note the faucet can consume as a burn (`burn.rs:21`). -/
structure BurnCandidate where
  note : Note
  creationBlock : BlockNumber
  items : BurnItems
  amount : UInt64
deriving DecidableEq

/-- A candidate and the block whose faucet transaction consumed it (`burn.rs:108`). -/
structure DiscoveredBurn where
  note : Note
  creationBlock : BlockNumber
  consumptionBlock : BlockNumber
  items : BurnItems
  amount : UInt64
deriving DecidableEq

namespace BurnCandidate

def noteId (c : BurnCandidate) : NoteId := c.note.id

def nullifier (c : BurnCandidate) : Nullifier := c.note.nullifier

def intoDiscovered (c : BurnCandidate) (consumptionBlock : BlockNumber) : DiscoveredBurn :=
  { note := c.note, creationBlock := c.creationBlock, consumptionBlock := consumptionBlock,
    items := c.items, amount := c.amount }

/-- `let [asset] = burn.assets().as_slice()`. -/
def soleAsset (note : Note) : Option Asset :=
  match note.assets with
  | [asset] => some asset
  | _ => none

/-- `BurnCandidate::new` (`burn.rs:29-81`), with `InvalidBurnCandidate`'s reason as the error. -/
def new (C : Crates) (note : Note) (creationBlock : BlockNumber) (faucetAccountId : AccountId) :
    Except String BurnCandidate := do
  ensure (note.scriptRoot = C.burnScriptRoot) "script root is not the burn script"
  ensure (note.attachments.length = 2) "expected exactly two attachments"
  let routing ← orThrow (note.attachments.find? fun a => a.scheme == C.networkTargetScheme)
    "routing attachment is missing"
  let withdrawal ← orThrow (note.attachments.find? fun a => a.scheme == C.withdrawalScheme)
    "withdrawal attachment is missing"
  let target ← orThrow (C.decodeTarget routing) "routing attachment is malformed"
  ensure (target = faucetAccountId) "routing target is not the faucet"
  let items ← orThrow (C.decodeItems withdrawal) "withdrawal attachment is malformed"
  let asset ← orThrow (soleAsset note) "expected exactly one asset"
  ensure (asset.isFungible ∧ asset.faucetId = faucetAccountId ∧ note.storage = asset.elements)
    "asset or storage is not one fungible amount of the faucet's token"
  pure { note := note, creationBlock := creationBlock, items := items, amount := asset.amount }

/-- A candidate is the note it was read from, at the block it was read at. -/
theorem new_ok {C : Crates} {note : Note} {block : BlockNumber} {faucet : AccountId} {c : BurnCandidate}
    (h : new C note block faucet = .ok c) : c.note = note ∧ c.creationBlock = block := by
  simp only [new, ensure_bind_ok, orThrow_bind_ok, pure_ok] at h
  obtain ⟨_, _, _, _, _, _, _, _, _, _, _, _, _, _, rfl⟩ := h
  exact ⟨rfl, rfl⟩

/-- Whether a note is a burn does not depend on the block it is read at. -/
theorem new_block (C : Crates) (note : Note) (faucet : AccountId) (b b' : BlockNumber) :
    new C note b' faucet = (new C note b faucet).map fun c => { c with creationBlock := b' } := by
  simp only [new, map_bind, map_pure]

theorem new_isOk_block (C : Crates) (note : Note) (faucet : AccountId) (b b' : BlockNumber) :
    (new C note b' faucet).isOk = (new C note b faucet).isOk := by
  rw [new_block C note faucet b b']
  cases new C note b faucet <;> rfl

end BurnCandidate

namespace DiscoveredBurn

def noteId (b : DiscoveredBurn) : NoteId := b.note.id

def nullifier (b : DiscoveredBurn) : Nullifier := b.note.nullifier

/-- `DiscoveredBurn::new` (`burn.rs:117`). -/
def new (C : Crates) (note : Note) (creationBlock consumptionBlock : BlockNumber)
    (faucetAccountId : AccountId) : Except String DiscoveredBurn :=
  (BurnCandidate.new C note creationBlock faucetAccountId).map (·.intoDiscovered consumptionBlock)

end DiscoveredBurn

end LightAttester
