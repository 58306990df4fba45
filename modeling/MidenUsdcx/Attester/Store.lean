import MidenUsdcx.Attester.Submission
import MidenUsdcx.Lib.Table
import Mathlib.Data.Prod.Lex
/-!
# The store (`store.rs`)

The SQLite file as a value, one field for each table of the current layout (`migrations/`), and every
statement sequence of `store.rs` as a function on it. A method that opens a transaction is a function
`Store → Except StoreError Store`: an error rolls back, so it leaves the store it was given.

| here | there |
| --- | --- |
| `Store.burns`, `Store.submissions`, `Store.events`, `Store.state` | `burns`, `submissions`, `submission_events`, `attester_state` |
| `EventRow` at index `i` of `events` | the history row with `seq = i + 1` |
| `none` in a column | `NULL` |
| `StoreError.invalid`, `.conflict` | `INVALID`, `CONFLICT` |
| `StoreError.io` | `classify_error`: SQLite failed, a constraint other than a key included |

Notes, headers, IDs and URLs stand in the rows as values: the codecs are taken to read back what they
wrote. `recorded_at` is read by nothing and left out.
-/
namespace LightAttester
open Checked Keyed

inductive BurnHoldReason where
  | prepareRejected
  | tooSmallToForward
deriving DecidableEq, Repr

/-- Why a release was refused (`ReleaseError`, `store.rs:109`, its own store failures apart). -/
inductive ReleaseRefusal where
  | invalid
  | conflict
  | notHeld (noteId : NoteId)
  | circleCheck
deriving DecidableEq, Repr

/-- The `anyhow` errors of the store and of the steps that report as it does. -/
inductive StoreError where
  | invalid
  | conflict
  | io
  | cannotUpgrade
  | anchorDiffers
  | message (text : String)
  | release (refusal : ReleaseRefusal)
deriving DecidableEq, Repr

structure BurnRow where
  note : Note
  creationBlock : BlockNumber
  consumptionBlock : Option BlockNumber
  holdReason : Option BurnHoldReason
  limitRetryAt : Option Nat
deriving DecidableEq, Repr

namespace BurnRow

def noteId (b : BurnRow) : NoteId := b.note.id

def nullifier (b : BurnRow) : Nullifier := b.note.nullifier

/-- `ORDER BY creation_block, note_id`: the order burns are withdrawn in. -/
def place (b : BurnRow) : Lex (Nat × NoteId) := toLex (b.creationBlock, b.noteId)

end BurnRow

inductive EventKind where
  | authorized
  | outcome
  | burnHeld
  | burnReleased
  | operatorRelease
  | withdrawalLimit
deriving DecidableEq, Repr

structure EventRow where
  noteId : NoteId
  kind : EventKind
  status : Option SubmissionStatus
  withdrawalId : Option String
  body : Option Bytes
  transferSpecHash : Option B256
  httpStatus : Option Nat
  response : Option Bytes
  error : Option String
  endpoint : Option Url
  holdReason : Option HoldReason
  burnHoldReason : Option BurnHoldReason
  circleStatus : Option String
deriving DecidableEq, Repr

/-- A row with these columns and `NULL` in the rest. -/
def EventRow.bare (noteId : NoteId) (kind : EventKind) (httpStatus : Option Nat) (response : Option Bytes)
    (burnHoldReason : Option BurnHoldReason) : EventRow :=
  { noteId := noteId, kind := kind, status := none, withdrawalId := none, body := none, transferSpecHash := none,
    httpStatus := httpStatus, response := response, error := none, endpoint := none, holdReason := none,
    burnHoldReason := burnHoldReason, circleStatus := none }

structure AttesterState where
  faucetAccountId : AccountId
  anchor : TrustedAnchor
  checkpoint : Option BlockHeader
deriving DecidableEq, Repr

structure Store where
  version : Nat
  state : Option AttesterState
  burns : Table NoteId BurnRow BurnRow.noteId
  submissions : Table NoteId SavedSubmission SavedSubmission.noteId
  events : List EventRow

/-- `LimitWait` (`store.rs:205`). -/
structure LimitWait where
  noteId : NoteId
  creationBlock : BlockNumber
  retryAt : Nat
deriving DecidableEq, Repr

/-- `ReleaseSelection` (`store.rs:97`). -/
structure ReleaseSelection where
  noteId : NoteId
  expectedEventSeq : Int
  circleNotAccepted : Bool
deriving DecidableEq, Repr

def STORE_VERSION : Nat := 4

/-! ## Checks on a record (`store.rs:1259-1297`) -/

/-- `validate_submission_outcome`. -/
def outcomeOk (outcome : SavedSubmission) : Bool :=
  decide (outcome.status = .held) == outcome.holdReason.isSome &&
    outcome.withdrawalId.all isWellFormedId &&
    (match outcome.status with
      | .submitted | .finalized | .expired | .failed => outcome.withdrawalId.isSome
      | .submitting | .held => true) &&
    outcome.lastHttpStatus.all fun code => decide (100 ≤ code ∧ code ≤ 999)

/-- `validate_submission`. -/
def submissionOk (C : Crates) (record : SavedSubmission) : Bool :=
  record.endpoint.scheme == "https" && record.endpoint.host.isSome && record.endpoint.path == "/v1/withdraw" &&
    validateSavedRequest C record && outcomeOk record

/-- `circle_status` (`store.rs:1010`): Circle's own word for the status in a reply. -/
def circleStatus (C : Crates) (response : Option Bytes) : Option String := do
  let reply ← C.parseJson (← response)
  (← ((reply.item 0).getD reply).get "status").asStr

namespace Store

/-- A file without tables: what `user_version` 0 stands for. -/
def blank : Store := { version := 0, state := none, burns := .empty, submissions := .empty, events := [] }

def burn (s : Store) (n : NoteId) : Option BurnRow := s.burns.get? n

def row (s : Store) (n : NoteId) : Option SavedSubmission := s.submissions.get? n

def putBurn (s : Store) (b : BurnRow) : Store := { s with burns := s.burns.put b }

def putRow (s : Store) (r : SavedSubmission) : Store := { s with submissions := s.submissions.put r }

def dropRow (s : Store) (n : NoteId) : Store := { s with submissions := s.submissions.erase n }

def addEvent (s : Store) (e : EventRow) : Store := { s with events := s.events ++ [e] }

/-- The burns in the order they are withdrawn in. -/
def queue (s : Store) (p : BurnRow → Bool) : List BurnRow :=
  (s.burns.rows.filter p).insertionSort fun a b => a.place ≤ b.place

/-! ## Reads -/

/-- `checkpoint` (`store.rs:280`). -/
def checkpoint (s : Store) : Except StoreError (Option BlockHeader) := do
  let state ← orThrow s.state .io
  pure state.checkpoint

/-- `note_known` (`store.rs:289`). -/
def noteKnown (s : Store) (n : NoteId) : Bool := (s.burn n).isSome

/-- A candidate read back from its row (`store.rs:1360-1369`). -/
def decodeCandidate (C : Crates) (faucet : AccountId) (b : BurnRow) : Except StoreError BurnCandidate :=
  orThrow (BurnCandidate.new C b.note b.creationBlock faucet).toOption .invalid

/-- `load_candidates` (`store.rs:1337`), with the filter as a predicate. -/
def loadCandidates (C : Crates) (s : Store) (faucet : AccountId) (p : BurnRow → Bool) :
    Except StoreError (List BurnCandidate) :=
  (s.queue fun b => b.consumptionBlock.isNone && p b).mapM (decodeCandidate C faucet)

/-- `candidate_by_nullifier` (`store.rs:297`). -/
def candidateByNullifier (C : Crates) (s : Store) (faucet : AccountId) (nullifier : Nullifier) :
    Except StoreError (Option BurnCandidate) := do
  let candidates ← s.loadCandidates C faucet fun b => b.nullifier == nullifier
  pure candidates.getLast?

/-- Whether `load_burns` leaves the burn out until its submission is over (`store.rs:1383-1387`). -/
def isFresh (s : Store) (b : BurnRow) : Bool :=
  b.holdReason.isNone && (s.row b.noteId).all fun r => decide (r.status = .expired)

def decodeBurn (C : Crates) (faucet : AccountId) (b : BurnRow) : Except StoreError DiscoveredBurn := do
  let consumptionBlock ← orThrow b.consumptionBlock .invalid
  orThrow (DiscoveredBurn.new C b.note b.creationBlock consumptionBlock faucet).toOption .invalid

/-- `load_burns` (`store.rs:1373`). -/
def loadBurns (C : Crates) (s : Store) (faucet : AccountId) (includeSubmitted : Bool) :
    Except StoreError (List DiscoveredBurn) :=
  (s.queue fun b => b.consumptionBlock.isSome && (includeSubmitted || s.isFresh b)).mapM (decodeBurn C faucet)

/-- `burns_ready_for_withdrawal` (`store.rs:846`). -/
def burnsReadyForWithdrawal (C : Crates) (s : Store) (faucet : AccountId) (proofLagBlock : BlockNumber)
    (minimumDepthBlocks : Nat) : Except StoreError (List DiscoveredBurn) := do
  match ← s.checkpoint with
  | none => pure []
  | some checkpoint =>
    -- `checked_sub`
    if checkpoint.blockNum < minimumDepthBlocks then pure []
    else do
      let burns ← s.loadBurns C faucet false
      pure (burns.filter fun b =>
        decide (b.consumptionBlock ≤ min proofLagBlock (checkpoint.blockNum - minimumDepthBlocks)))

/-- Whether the burn exists and is consumed (`store.rs:1244-1250`). -/
def isConsumed (s : Store) (n : NoteId) : Bool := (s.burn n).any fun b => b.consumptionBlock.isSome

/-- `select_submissions` (`store.rs:1205`). -/
def selectSubmissions (C : Crates) (s : Store) (noteId : Option NoteId) (status : Option SubmissionStatus) :
    Except StoreError (List SavedSubmission) := do
  let rows := s.submissions.rows.filter fun r =>
    noteId.all (fun n => r.noteId == n) && status.all fun st => r.status == st
  ensure (∀ r ∈ rows, submissionOk C r = true ∧ s.isConsumed r.noteId = true) .invalid
  pure rows

/-- `submission` (`store.rs:634`). -/
def submission (C : Crates) (s : Store) (n : NoteId) : Except StoreError (Option SavedSubmission) := do
  let rows ← s.selectSubmissions C (some n) none
  pure rows.getLast?

/-- `submissions_to_recover` (`store.rs:639`). -/
def submissionsToRecover (C : Crates) (s : Store) : Except StoreError (List SavedSubmission) :=
  s.selectSubmissions C none (some .submitting)

/-- `submissions_to_poll` (`store.rs:644`). -/
def submissionsToPoll (C : Crates) (s : Store) : Except StoreError (List SavedSubmission) :=
  s.selectSubmissions C none (some .submitted)

/-- `burn_creation_block` (`store.rs:701`). -/
def burnCreationBlock (s : Store) (n : NoteId) : Except StoreError BlockNumber := do
  let b ← orThrow (s.burn n) .io
  pure b.creationBlock

/-- `first_limit_wait` (`store.rs:715`): the waiting burn every later burn queues behind. -/
def firstLimitWait (s : Store) : Option LimitWait := do
  let b ← (s.queue fun b => b.limitRetryAt.isSome).head?
  let retryAt ← b.limitRetryAt
  pure { noteId := b.noteId, creationBlock := b.creationBlock, retryAt := retryAt }

/-- `MAX(seq)` over the note's history. -/
def revision (s : Store) (n : NoteId) : Option Nat :=
  (s.events.zipIdx.filter fun e => e.1.noteId == n).getLast?.map fun e => e.2 + 1

/-- The latest `OUTCOME` since the latest `AUTHORIZED` of the note, over its history newest first. -/
def latestOutcome (n : NoteId) : List EventRow → Option EventRow
  | [] => none
  | e :: rest =>
    if e.noteId = n ∧ e.kind = .outcome then some e
    else if e.noteId = n ∧ e.kind = .authorized then none
    else latestOutcome n rest

/-- `repeats_latest_outcome` (`store.rs:1068`). -/
def repeatsLatestOutcome (s : Store) (outcome : SavedSubmission) (circleStatus : Option String) : Bool :=
  (latestOutcome outcome.noteId s.events.reverse).any fun e =>
    e.status == some outcome.status && e.withdrawalId == outcome.withdrawalId &&
      e.httpStatus == outcome.lastHttpStatus && e.error == outcome.lastError && e.circleStatus == circleStatus

/-! ## Writes -/

/-- The history row of a burn as it stands (`record_event`, `store.rs:1020`). Only a new authorization
keeps the request itself. -/
def eventOf (b : BurnRow) (r : Option SavedSubmission) (kind : EventKind) (circleStatus : Option String) : EventRow :=
  { noteId := b.noteId, kind := kind, status := r.map (·.status), withdrawalId := r.bind (·.withdrawalId),
    body := if kind = .authorized then r.map (·.body) else none,
    transferSpecHash := r.map (·.transferSpecHash), httpStatus := r.bind (·.lastHttpStatus),
    response := r.bind (·.lastResponse), error := r.bind (·.lastError),
    endpoint := if kind = .authorized then r.map (·.endpoint) else none,
    holdReason := r.bind (·.holdReason), burnHoldReason := b.holdReason, circleStatus := circleStatus }

def recordEvent (s : Store) (n : NoteId) (kind : EventKind) (circleStatus : Option String) :
    Except StoreError Store := do
  let b ← orThrow (s.burn n) .conflict
  pure (s.addEvent (eventOf b (s.row n) kind circleStatus))

/-- The row an insert of the five columns of `save_submission` leaves. -/
def authorizedRow (record : SavedSubmission) : SavedSubmission :=
  { record with status := .submitting, withdrawalId := none, holdReason := none, lastHttpStatus := none,
                lastResponse := none, lastError := none }

/-- `WHERE submissions.status = 'EXPIRED' AND submissions.withdrawal_id IS NOT NULL`, or no row. -/
def replaceable (s : Store) (n : NoteId) : Bool :=
  (s.row n).all fun r => decide (r.status = .expired) && r.withdrawalId.isSome

/-- `save_submission` (`store.rs:303`). -/
def saveSubmission (C : Crates) (s : Store) (record : SavedSubmission) : Except StoreError Store := do
  ensure (submissionOk C record = true) .invalid
  ensure (s.replaceable record.noteId = true) .conflict
  (s.putRow (authorizedRow record)).recordEvent record.noteId .authorized none

/-- Whether the note's submission is a hold a release may delete (`store.rs:434-440`). -/
def releasableRow (s : Store) (n : NoteId) : Bool :=
  (s.row n).any fun r =>
    decide (r.status = .held) && decide (r.holdReason = some .httpRejected) && r.withdrawalId.isNone

/-- `release_hold` (`store.rs:410`), with how many burns and withdrawals it released. -/
def releaseHold (s : Store) (n : NoteId) (circleNotAccepted : Bool) : Except StoreError (Store × Nat × Nat) :=
  match (s.burn n).filter fun b => b.holdReason.isSome with
  | some b => do
    let s ← s.recordEvent n .burnReleased none
    pure (s.putBurn { b with holdReason := none }, 1, 0)
  | none => do
    ensure (s.releasableRow n = true) (.release (.notHeld n))
    ensure (circleNotAccepted = true) (.release .circleCheck)
    let s ← s.recordEvent n .operatorRelease none
    pure (s.dropRow n, 0, 1)

/-- `BTreeSet` of the named notes, in order. -/
def noteSet (notes : List NoteId) : List NoteId := notes.foldl (fun set n => Keyed.putRow id n set) []

/-- The loop of `release_holds` (`store.rs:340-345`). -/
def releaseEach (s : Store) (burns withdrawals : Nat) : List NoteId → Except StoreError (Store × Nat × Nat)
  | [] => pure (s, burns, withdrawals)
  | n :: rest => do
    let (s, burn, withdrawal) ← s.releaseHold n true
    s.releaseEach (burns + burn) (withdrawals + withdrawal) rest

/-- `release_holds` (`store.rs:336`): all of the named holds or none. -/
def releaseHolds (s : Store) (notes : List NoteId) : Except StoreError (Store × Nat × Nat) :=
  s.releaseEach 0 0 (noteSet notes)

/-- `release_checked` (`store.rs:356`): only at the revision the operator saw. -/
def releaseChecked (s : Store) (selection : ReleaseSelection) : Except StoreError (Store × Nat × Nat) := do
  ensure (0 < selection.expectedEventSeq) (.release .invalid)
  match s.revision selection.noteId with
  | none =>
    if ((s.burn selection.noteId).any fun b => b.holdReason.isSome) ∨
        ((s.row selection.noteId).any fun r => decide (r.status = .held)) then throw .invalid
    else throw (.release (.notHeld selection.noteId))
  | some revision => do
    ensure ((revision : Int) = selection.expectedEventSeq) (.release .conflict)
    s.releaseHold selection.noteId selection.circleNotAccepted

/-- `hold_burn` (`store.rs:597`). -/
def holdBurn (s : Store) (n : NoteId) (reason : BurnHoldReason) (response : Option (Nat × Bytes)) :
    Except StoreError Store := do
  let b ← orThrow (s.burn n) .conflict
  pure ((s.putBurn { b with holdReason := some reason, limitRetryAt := none }).addEvent
    (.bare n .burnHeld (response.map (·.1)) (response.map (·.2)) (some reason)))

/-- The row an outcome update leaves: the request's columns stay (`store.rs:657-670`). -/
def withOutcome (r outcome : SavedSubmission) : SavedSubmission :=
  { r with status := outcome.status, withdrawalId := outcome.withdrawalId, holdReason := outcome.holdReason,
           lastHttpStatus := outcome.lastHttpStatus, lastResponse := outcome.lastResponse,
           lastError := outcome.lastError }

/-- The statuses that end a limit wait (`store.rs:682-688`). -/
def endsWait : SubmissionStatus → Bool
  | .submitted | .finalized | .failed | .held => true
  | .submitting | .expired => false

/-- `UPDATE burns SET withdrawal_limit_retry_at = NULL WHERE note_id = ?1`. -/
def clearWait (s : Store) (n : NoteId) : Store :=
  match s.burn n with
  | some b => s.putBurn { b with limitRetryAt := none }
  | none => s

/-- `update_submission_outcome` (`store.rs:651`). -/
def updateSubmissionOutcome (C : Crates) (s : Store) (outcome : SavedSubmission) : Except StoreError Store := do
  ensure (outcomeOk outcome = true) .invalid
  let r ← orThrow (s.row outcome.noteId) .conflict
  let s := s.putRow (withOutcome r outcome)
  let status := circleStatus C outcome.lastResponse
  let s ← if s.repeatsLatestOutcome outcome status then pure s else s.recordEvent outcome.noteId .outcome status
  pure (if endsWait outcome.status then s.clearWait outcome.noteId else s)

/-- `advance_limit_retry` (`store.rs:741`). -/
def advanceLimitRetry (s : Store) (n : NoteId) (retryAt : Nat) : Except StoreError Store := do
  let b ← orThrow ((s.burn n).filter fun b => b.limitRetryAt.isSome) .conflict
  pure (s.putBurn { b with limitRetryAt := some retryAt })

/-- `WHERE note_id = ?1 AND status = 'SUBMITTING' AND withdrawal_id IS NULL AND endpoint = ?3 AND
body = ?4 AND transfer_spec_hash = ?5` (`store.rs:789-791`). -/
def sameRequest (s : Store) (n : NoteId) (saved : SavedSubmission) : Option SavedSubmission :=
  (s.row n).filter fun r => decide (r.status = .submitting) && r.withdrawalId.isNone &&
    decide (r.endpoint = saved.endpoint) && decide (r.body = saved.body) &&
    decide (r.transferSpecHash = saved.transferSpecHash)

/-- What a rejected resend keeps (`store.rs:800-802`). -/
def limitedRow (r : SavedSubmission) (response : Bytes) : SavedSubmission :=
  { r with lastHttpStatus := some 400, lastResponse := some response, lastError := some "Circle withdrawal limit" }

/-- `record_limit_rejection` (`store.rs:764`). Only a first attempt's rejection proves that its
authorization was never accepted. -/
def recordLimitRejection (s : Store) (n : NoteId) (retryAt : Nat) (response : Bytes)
    (submission : Option (SavedSubmission × SubmissionAttempt)) : Except StoreError Store := do
  let b ← orThrow ((s.burn n).filter fun b => b.consumptionBlock.isSome && b.holdReason.isNone) .conflict
  let s := s.putBurn { b with limitRetryAt := some retryAt }
  let s ← match submission with
    | none => pure s
    | some (saved, attempt) => do
      ensure (saved.noteId = n) .conflict
      let r ← orThrow (s.sameRequest n saved) .conflict
      match attempt with
        | .first => pure (s.dropRow n)
        | .recovery => pure (s.putRow (limitedRow r response))
  pure (s.addEvent (.bare n .withdrawalLimit (some 400) (some response) none))

/-- `insert_candidate` (`store.rs:1417`): the keys of the table are the note and its nullifier. -/
def insertCandidate (s : Store) (c : BurnCandidate) : Except StoreError Store := do
  ensure (s.burn c.noteId = none ∧ ∀ b ∈ s.burns.rows, b.nullifier ≠ c.nullifier) .conflict
  pure (s.putBurn { note := c.note, creationBlock := c.creationBlock, consumptionBlock := none, holdReason := none,
                    limitRetryAt := none })

/-- `insert_burn` (`store.rs:1438`): promotes the saved candidate, or inserts. A row's `CHECK` wants the
consumption after the creation. -/
def insertBurn (s : Store) (d : DiscoveredBurn) : Except StoreError Store :=
  match (s.burn d.noteId).filter fun b => b.consumptionBlock.isNone with
  | some b => do
    ensure (b.creationBlock < d.consumptionBlock) .io
    pure (s.putBurn { b with consumptionBlock := some d.consumptionBlock })
  | none => do
    ensure (s.burn d.noteId = none ∧ ∀ b ∈ s.burns.rows, b.nullifier ≠ d.nullifier) .conflict
    ensure (d.creationBlock < d.consumptionBlock) .io
    pure (s.putBurn { note := d.note, creationBlock := d.creationBlock, consumptionBlock := some d.consumptionBlock,
                      holdReason := none, limitRetryAt := none })

/-- `validate_discovery_records` (`store.rs:1313`). -/
def discoveryOk (candidates : List BurnCandidate) (burns : List DiscoveredBurn) (block : BlockNumber) : Bool :=
  (candidates.all fun c => decide (c.creationBlock ≤ block)) &&
    burns.all fun d => decide (d.creationBlock < d.consumptionBlock ∧ d.consumptionBlock ≤ block)

/-- `save_scan_progress` (`store.rs:909`): one block's evidence and its header, as one unit. -/
def saveScanProgress (s : Store) (candidates : List BurnCandidate) (burns : List DiscoveredBurn)
    (checkpoint : BlockHeader) : Except StoreError Store := do
  ensure (discoveryOk candidates burns checkpoint.blockNum = true) .conflict
  let s ← candidates.foldlM insertCandidate s
  let s ← burns.foldlM insertBurn s
  let state ← orThrow s.state .invalid
  pure { s with state := some { state with checkpoint := some checkpoint } }

/-! ## Opening -/

/-- `initialize_store` (`store.rs:956`), on a file without tables. -/
def created (faucet : AccountId) (anchor : TrustedAnchor) : Store :=
  { version := STORE_VERSION, state := some { faucetAccountId := faucet, anchor := anchor, checkpoint := none },
    burns := .empty, submissions := .empty, events := [] }

/-- The `CHECK` constraints of the layout, which `quick_check` runs on every row. -/
def checksOk (s : Store) : Bool :=
  s.burns.rows.all fun b => b.consumptionBlock.all fun c => decide (b.creationBlock < c)

/-- A waiting burn `validate_store` accepts (`store.rs:1105-1117`). -/
def waitOk (s : Store) (b : BurnRow) : Bool :=
  b.limitRetryAt.isNone || (b.consumptionBlock.isSome && b.holdReason.isNone &&
    (s.row b.noteId).all fun r => decide (r.status = .submitting ∨ r.status = .expired))

/-- `validate_store` (`store.rs:1098`). -/
def validateStore (C : Crates) (s : Store) (faucet : AccountId) (anchor : TrustedAnchor) : Except StoreError Unit := do
  ensure (s.checksOk = true) .invalid
  ensure (s.burns.rows.all s.waitOk = true) .invalid
  ensure (∀ r ∈ s.submissions.rows, r.withdrawalId.all isWellFormedId = true) .invalid
  let state ← orThrow s.state .invalid
  ensure (state.faucetAccountId = faucet) .invalid
  ensure (state.anchor = anchor) .anchorDiffers
  let _ ← s.loadCandidates C faucet fun _ => true
  let _ ← s.loadBurns C faucet true
  ensure (state.checkpoint.all (fun h => decide (anchor.blockNum ≤ h.blockNum)) = true) .invalid

/-- `open_existing` (`store.rs:983`). A file this attester wrote has the current version or, before its
first transaction, none. -/
def openExisting (C : Crates) (s : Store) (faucet : AccountId) (anchor : TrustedAnchor) : Except StoreError Unit := do
  ensure (s.version = STORE_VERSION) .cannotUpgrade
  s.validateStore C faucet anchor

end Store

/-! ## Transactions -/

/-- The transactions of the store, as the attester calls them. -/
inductive Write where
  | create (faucet : AccountId) (anchor : TrustedAnchor)
  | scan (candidates : List BurnCandidate) (burns : List DiscoveredBurn) (checkpoint : BlockHeader)
  | save (record : SavedSubmission)
  | outcome (record : SavedSubmission)
  | hold (noteId : NoteId) (reason : BurnHoldReason) (response : Option (Nat × Bytes))
  | advance (noteId : NoteId) (retryAt : Nat)
  | limit (noteId : NoteId) (retryAt : Nat) (response : Bytes)
      (submission : Option (SavedSubmission × SubmissionAttempt))
  | release (selection : ReleaseSelection)
  | releaseAll (notes : List NoteId)

/-- What a transaction commits, or why it rolls back. -/
def Write.apply (C : Crates) (s : Store) : Write → Except StoreError Store
  | .create faucet anchor => .ok (.created faucet anchor)
  | .scan candidates burns checkpoint => s.saveScanProgress candidates burns checkpoint
  | .save record => s.saveSubmission C record
  | .outcome record => s.updateSubmissionOutcome C record
  | .hold noteId reason response => s.holdBurn noteId reason response
  | .advance noteId retryAt => s.advanceLimitRetry noteId retryAt
  | .limit noteId retryAt response submission => s.recordLimitRejection noteId retryAt response submission
  | .release selection => (s.releaseChecked selection).map (·.1)
  | .releaseAll notes => (s.releaseHolds notes).map (·.1)

end LightAttester
