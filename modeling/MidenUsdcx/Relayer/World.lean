import MidenUsdcx.Relayer.Mint
import MidenUsdcx.Lib.Prog
/-!
# The feed, and what the relayer calls

The feed is a sequence of JSON elements by age: `entry 0` is the oldest, and what exists at a time is a
first part of it, so that growing at the head moves nothing. A cursor names the entry a page ended at
(`circle.rs:30-33`), and the page after it holds older ones. `Serves` is all that is assumed of a page:
it holds the next older entries, and its `next` link is there exactly when older ones remain. How many
there are is left to Circle.

Every call takes one choice of the environment (`Env`): how many entries arrived, what Circle, the node
or the disk answer, whether a shutdown was requested. The choices may end at any call: that is a crash.
The log, newest first, is there for statements about whole runs; nothing in the program reads it.
-/
namespace DepositRelayer
open Interact
open LightAttester (Json)

/-! ## The feed -/

/-- The message hash of an element, when it can be read. -/
def hashOf (C : Crates) (value : Json) : Option MessageHash := (Entry.decode C 1 value).messageHash

structure Feed (C : Crates) where
  entry : Nat → Json
  /-- The position of the entry a token was built from. -/
  names : CircleCursor → Nat
  unique : ∀ p q h, hashOf C (entry p) = some h → hashOf C (entry q) = some h → p = q

namespace Feed
variable {C : Crates} (F : Feed C)

def hashAt (p : Nat) : Option MessageHash := hashOf C (F.entry p)

/-- The position above which a request's entries start being too new for it. -/
def top (length : Nat) : Option CircleCursor → Nat
  | none => length
  | some cursor => F.names cursor

/-- The `count` entries below `top`, newest first, decoded in their places. -/
def slice (top count : Nat) : List Entry :=
  (List.range count).map fun i => Entry.decode C (i + 1) (F.entry (top - 1 - i))

/-- The page is what the feed has below `top`. -/
def Serves (top : Nat) (page : Page) : Prop :=
  page.entries.length ≤ top ∧ page.entries = F.slice top page.entries.length ∧
    match page.next with
    | none => page.entries.length = top
    | some cursor => page.entries.length < top ∧ F.names cursor = top - page.entries.length

instance (top : Nat) (page : Page) : Decidable (F.Serves top page) := by
  unfold Serves
  cases page.next <;> exact inferInstance

/-- A reply that reads as a page is the feed's page; one that does not is any failure. -/
def Truthful (size : PageSize) (top : Nat) (reply : HttpReply) : Bool :=
  match readPage C size reply with
  | .ok page => decide (F.Serves top page)
  | .error _ => true

end Feed

/-! ## Calls -/

/-- What the log keeps. -/
inductive Act where
  /-- A process begins. -/
  | started
  /-- An entry of the page below `top` is reported as skipped (`mint.rs:155`). -/
  | skipped (top : Nat) (entry : Entry)
  /-- `retain_unminted` was asked about these deposits, and kept those. -/
  | checked (asked unminted : List DepositNonce)
  /-- `submit_notes` returned `Ok`. -/
  | submitted (notes : List XUsdcMintNote)
  /-- `set_state` returned `Ok`. -/
  | saved (state : State)
  /-- `set_state` failed; the new file may have been renamed into place all the same. -/
  | saveFailed (state : State) (landed : Bool)

inductive Call where
  | start
  | self
  | update (self : Relayer)
  | isCancelled
  | fetch (cursor : Option CircleCursor) (size : PageSize)
  | skip (entry : Entry) (reason : String)
  | retainUnminted (nonces : List DepositNonce)
  | submitNotes (notes : List XUsdcMintNote)
  | now
  | state
  | setState (state : State)

def Call.Answer : Call → Type
  | .start | .update _ | .skip _ _ => Unit
  | .self => Relayer
  | .isCancelled => Bool
  | .fetch _ _ => HttpReply
  | .retainUnminted _ => Except Failure (List DepositNonce)
  | .submitNotes _ => Except Failure Unit
  | .now => Nat
  | .state => Except Failure State
  | .setState _ => Except Failure Unit

def calls : Sig := { Op := Call, Ans := Call.Answer }

/-- One choice of the environment; a call looks only at its own part of it. -/
structure Env where
  arrivals : Nat := 0
  cancelled : Bool := false
  reply : HttpReply := .failed
  failure : Option Failure := none
  /-- The deposits in the faucet's used-nonce map. -/
  minted : List DepositNonce := []
  now : Nat := 0
  /-- Whether a failed write reached the file. -/
  landed : Bool := false

structure World where
  /-- How many entries the feed has. -/
  length : Nat
  /-- Where the last page served starts. -/
  served : Nat
  file : Option State
  self : Option Relayer
  log : List Act

namespace World

/-- No state file, nothing done. -/
def begin : World := { length := 0, served := 0, file := none, self := none, log := [] }

/-- `Store::state` (`store.rs:80`), when the file can be read: an empty state on a first run. -/
def state (w : World) : State := w.file.getD {}

def record (w : World) (a : Act) : World := { w with log := a :: w.log }

def arrive (w : World) (n : Nat) : World := { w with length := w.length + n }

end World

/-- The relayer of a process that has not started one. -/
def Relayer.absent : Relayer where
  config := {
    pageSize := .localProvingMax, requestTimeout := 1, remoteDomain := 0, proverUrl := none, proverTimeout := 1,
    faucetAccountId := ⟨0⟩, relayerAccountId := ⟨0⟩, attesterPublicKey := [] }
  pageSize := .localProvingMax
  minter := {
    mintAccount := ⟨0⟩, usdcxFaucet := ⟨0⟩, attester := [], remoteDomain := 0, rng := ⟨[]⟩ }
  unminted := {}

/-- The answer to one call, in the world the environment's arrivals have already reached. -/
def answer {C : Crates} (F : Feed C) (o : Call) (e : Env) (w : World) : o.Answer × World :=
  match o with
  | .start => ((), { w with self := none }.record .started)
  | .self => (w.self.getD .absent, w)
  | .update self => ((), { w with self := some self })
  | .isCancelled => (e.cancelled, w)
  | .fetch cursor size =>
    let top := F.top w.length cursor
    if F.Truthful size top e.reply then (e.reply, { w with served := top }) else (.failed, w)
  | .skip entry _ => ((), w.record (.skipped w.served entry))
  | .retainUnminted nonces =>
    match e.failure with
    | some failure => (.error failure, w)
    | none =>
      -- `NodeClient` reads each nonce's entry in turn and keeps the empty ones, in their order.
      let unminted := nonces.filter fun n => decide (n ∉ e.minted)
      (.ok unminted, w.record (.checked nonces unminted))
  | .submitNotes notes =>
    match e.failure with
    | some failure => (.error failure, w)
    | none => (.ok (), w.record (.submitted notes))
  | .now => (e.now, w)
  | .state => (match e.failure with
    | some failure => .error failure
    | none => .ok w.state, w)
  | .setState s =>
    match e.failure with
    | some failure =>
      (.error failure, { w with file := if e.landed then some s else w.file }.record (.saveFailed s e.landed))
    | none => (.ok (), { w with file := some s }.record (.saved s))

def handler {C : Crates} (F : Feed C) : Handler calls Env World where
  step o e w := answer F o e (w.arrive e.arrivals)

end DepositRelayer
