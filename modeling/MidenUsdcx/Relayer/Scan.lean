import MidenUsdcx.Relayer.World
/-!
# The relay loop (`lib.rs`)

| here | there |
| --- | --- |
| `Position`, `PageOutcome`, `ScanOutcome` | `lib.rs:69-125` |
| `buildNotes` | `mint.rs:132-161` |
| `processPage`, `finishPage`, `runPage` | `lib.rs:244-450` |
| `scan`, `runUntil`, `new` | `lib.rs:164-240`, `470-488` |
| `Lifetime` | one process, which may end anywhere |

What only reaches the trace (span fields, log lines, the age of the oldest unminted deposit) is left out.
-/
namespace DepositRelayer
open Checked Interact

abbrev Task (ρ α : Type) := ExceptT ρ (Prog calls) α

/-- One call. -/
def call {ρ : Type} (o : Call) : Task ρ o.Answer := ExceptT.lift (Prog.perform (S := calls) o)

/-- `?` on a call's answer. -/
def attempt {ρ α : Type} : Except ρ α → Task ρ α
  | .ok a => pure a
  | .error e => throw e

/-- `Store::state` (`store.rs:80`). -/
def loadState : Task Failure State := do
  let answer : Except Failure State ← call .state
  attempt answer

/-- `Store::set_state` (`store.rs:107`). -/
def saveState (s : State) : Task Failure Unit := do
  let answer : Except Failure Unit ← call (.setState s)
  attempt answer

/-- `MidenClient::retain_unminted` (`miden.rs:104`). -/
def retainUnminted (nonces : List DepositNonce) : Task Failure (List DepositNonce) := do
  let answer : Except Failure (List DepositNonce) ← call (.retainUnminted nonces)
  attempt answer

/-- `MidenClient::submit_notes` (`miden.rs:115`). -/
def submitNotes (notes : List XUsdcMintNote) : Task Failure Unit := do
  let answer : Except Failure Unit ← call (.submitNotes notes)
  attempt answer

/-- What one page left for the scan to do next, once that page is on chain. -/
structure PageOutcome where
  /-- The newest entry of the page with a readable message hash. -/
  newest : Option MessageHash
  next : Option CircleCursor

/-- Where a scan stands between two of its pages. -/
structure Position where
  watermark : Option MessageHash
  head : Option MessageHash
  resume : Option CircleCursor

namespace Position

def fromState (s : State) : Position where
  watermark := s.watermark
  head := s.scan.map (·.head)
  resume := s.scan.map (·.resume)

/-- The progress this position saves: none before a readable message hash was met. -/
def state (p : Position) : State where
  watermark := p.watermark
  scan := p.head.bind fun head => p.resume.map fun resume => ⟨head, resume⟩

end Position

inductive ScanOutcome where
  | complete
  | stopped
deriving DecidableEq, Repr

section
variable (C : Crates)

/-- `build_notes` (`mint.rs:132`). -/
def buildNotes : List Entry → Task Failure BuiltNotes
  | [] => pure ⟨[], []⟩
  | entry :: rest => do
    let self : Relayer ← call .self
    let made := self.minter.buildEntry C entry
    call (.update { self with minter := made.2 })
    match made.1 with
    | .ok note => do
      let built ← buildNotes rest
      pure { built with notes := note :: built.notes }
    | .error reason => do
      call (.skip entry reason)
      let built ← buildNotes rest
      pure { built with skipped := entry.messageHash :: built.skipped }

/-- `fetch_page` (`circle.rs:318`). -/
def fetchPage (cursor : Option CircleCursor) (size : PageSize) : Task Failure Page := do
  let reply : HttpReply ← call (.fetch cursor size)
  attempt (readPage C size reply)

/-- The entry whose readable message hash is the watermark (`lib.rs:387`). -/
def isWatermark (watermark : Option MessageHash) (entry : Entry) : Bool :=
  match entry.messageHash with
  | some hash => decide (some hash = watermark)
  | none => false

/-- The first entry of the page that is the watermark. -/
def reached (watermark : Option MessageHash) (page : Page) : Option Nat := page.entries.findIdx? (isWatermark watermark)

/-- The entries above the watermark. -/
def fresh (watermark : Option MessageHash) (page : Page) : List Entry :=
  page.entries.take ((reached watermark page).getD page.entries.length)

/-- The submission of what is left of a page (`lib.rs:432-446`); the first two branches only log. -/
def submitPage (fresh : List Entry) (built : Nat) (notes : List XUsdcMintNote) : Task Failure Unit :=
  if built = 0 ∧ fresh ≠ [] then pure ()
  else if notes = [] ∧ built > 0 then pure ()
  else if notes ≠ [] then do
    submitNotes notes
    let now : Nat ← call .now
    let self : Relayer ← call .self
    call (.update { self with unminted := self.unminted.submitted now (notes.map (·.nonce)) })
  else pure ()

/-- `process_page` (`lib.rs:357`). -/
def processPage (resume : Option CircleCursor) (watermark : Option MessageHash) : Task Failure PageOutcome := do
  let self : Relayer ← call .self
  let page ← fetchPage C resume self.pageSize
  let built ← buildNotes C (fresh watermark page)
  let self : Relayer ← call .self
  let unminted ← retainUnminted (built.notes.map (·.nonce) ++ self.unminted.nonces)
  call (.update { self with unminted := self.unminted.retain unminted })
  submitPage (fresh watermark page) built.notes.length (built.notes.filter fun note => decide (note.nonce ∈ unminted))
  pure {
    newest := page.entries.findSome? Entry.messageHash
    -- Reaching the watermark ends the scan even though the feed continues below it.
    next := if (reached watermark page).isSome then none else page.next }

/-- Where the scan goes on from, and what is saved for it (`lib.rs:305-326`). -/
def advance (position : Position) (outcome : PageOutcome) : Option Position × State :=
  let head := position.head.or outcome.newest
  match outcome.next with
  | some resume =>
    let next : Position := ⟨position.watermark, head, some resume⟩
    (some next, next.state)
  | none => (none, ⟨head.or position.watermark, none⟩)

/-- A caught-up poll leaves the state as it was, which is not written again (`lib.rs:328`). -/
def saveChange (old new : State) : Task Failure Unit := if new ≠ old then saveState new else pure ()

/-- `finish_page` (`lib.rs:297`). -/
def finishPage (position : Position) : Task Failure (Option Position) := do
  let outcome ← processPage C position.resume position.watermark
  let next := advance position outcome
  saveChange position.state next.2
  pure next.1

/-- An expired submission makes later pages smaller (`lib.rs:283-290`). -/
def limitAfter (failure : Failure) : Task Failure Unit :=
  if isExpiredSubmission failure.error then do
    let self : Relayer ← call .self
    call (.update self.limitToLocalProving)
  else pure ()

/-- `run_page` (`lib.rs:273`). -/
def runPage (position : Position) : Task Failure (Option Position) := do
  let result ← ExceptT.lift (finishPage C position).run
  match result with
  | .ok next => pure next
  | .error failure => do
    limitAfter failure
    throw failure

/-- The loop of `scan` (`lib.rs:228-240`), shut down after at most this many pages. -/
def scanFrom : Nat → Position → Task Failure ScanOutcome
  | 0, _ => pure .stopped
  | pages + 1, position => do
    let stop : Bool ← call .isCancelled
    if stop then pure .stopped
    else do
      let next ← runPage C position
      let stop : Bool ← call .isCancelled
      if stop then pure .stopped
      else match next with
        | none => pure .complete
        | some position => scanFrom pages position

/-- `scan` (`lib.rs:219`). -/
def scan (pages : Nat) : Task Failure ScanOutcome := do
  let state ← loadState
  scanFrom C pages (.fromState state)

/-- `run_until` (`lib.rs:470`), with the most pages each scan takes: a failed scan is followed by another one. -/
def runUntil : List Nat → Task Failure Unit
  | [] => pure ()
  | pages :: rest => do
    let outcome ← ExceptT.lift (scan C pages).run
    match outcome with
    | .ok .stopped => pure ()
    | _ => runUntil rest

/-- A check of the configuration at startup. -/
def require (check : Except String Unit) : Task Failure Unit :=
  attempt (check.mapError fun text => ⟨.actionable "startup", { text := text }⟩)

/-- `Relayer::new` (`lib.rs:172`): the progress is read and saved as it is. -/
def new (config : Config) (seed : RandomCoin) : Task Failure Unit := do
  require config.validateProver
  let state ← loadState
  saveState state
  require (ensure (config.requestTimeout ≠ 0) "request timeout must be greater than zero")
  call (.update {
    config := config, pageSize := config.effectivePageSize, minter := .fromConfig config seed, unminted := {} })

/-- One process. -/
def serve (config : Config) (seed : RandomCoin) (scans : List Nat) : Task Failure Unit := do
  call .start
  new config seed
  runUntil C scans

end

/-! ## Runs -/

/-- One process with the environment it meets. A process that finds no more choices has crashed. -/
structure Lifetime where
  config : Config
  seed : RandomCoin
  scans : List Nat
  env : List Env

def Lifetime.run {C : Crates} (F : Feed C) (w : World) (l : Lifetime) : World :=
  (Prog.run (handler F) (serve C l.config l.seed l.scans).run l.env w).2.2

/-- The processes of a run, one after the other, from nothing. -/
def runAll {C : Crates} (F : Feed C) (lifetimes : List Lifetime) : World := lifetimes.foldl (Lifetime.run F) .begin

end DepositRelayer
