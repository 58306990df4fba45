import MidenUsdcx.Attester.World
/-!
# The attester's cycle (`attester.rs`, `submission.rs`)

| here | there |
| --- | --- |
| `sendSavedRequest`, `advanceSubmission`, `advanceSubmissions`, `submitSignedWithdrawal` | `submission.rs:128-279` |
| `limitAllows`, `waitForWithdrawalLimit`, `withdraw`, `attemptWithdrawal`, `submitWithdrawals` | `attester.rs:541-690` |
| `findBurnsInBlock`, `saveBlock`, `discoverBurns` | `attester.rs:459-526`, `823-869` |
| `adminCheckpoint`, `handleAdmin`, `cycle`, `run`, `start` | `attester.rs:92-400` |
| `Lifetime` | one process: `xusdc-attester`, or its offline `release-holds` |

`rate_limited` is a `&mut bool` of the cycle's frame there and a cell of the world here. What only
writes telemetry (`record_progress`, `logged_mismatches`, the log lines) is left out.
-/
namespace LightAttester
open Checked Interact

/-- `SubmitError` (`submission.rs:20`). -/
inductive SubmitError where
  | invalidRequest (error : CircleError)
  | store (error : StoreError)
  | encoding
  | prepare (error : CircleError)
  | verification (error : VerifyError)
  | signing

/-- A failure that stops the rest of the cycle (`submission.rs:40`). -/
def SubmitError.isFatal : SubmitError → Bool
  | .store _ => true
  | _ => false

/-- `DiscoverError` (`attester.rs:30`). -/
inductive DiscoverError where
  | chain (error : ChainError)
  | chainDiverged
  | store (error : StoreError)

abbrev Task (ρ α : Type) := ExceptT ρ (Prog calls) α

/-- One call. -/
def call {ρ : Type} (o : Call) : Task ρ o.Answer := ExceptT.lift (Prog.perform (S := calls) o)

/-- `?` on a call's answer. -/
def attempt {ρ ε α : Type} (f : ε → ρ) : Except ε α → Task ρ α
  | .ok a => pure a
  | .error e => throw (f e)

/-- A read of the store: SQLite may fail, and the rows may be refused. -/
def query {ρ α : Type} (f : StoreError → ρ) (read : Store → Except StoreError α) : Task ρ α := do
  let answer : Except StoreError Store ← call .query
  let s ← attempt f answer
  attempt f (read s)

def write {ρ : Type} (f : StoreError → ρ) (w : Write) : Task ρ Unit := do
  let answer : Except StoreError Unit ← call (.write w)
  attempt f answer

/-! ## Sending one saved request -/

section
variable (C : Crates) (config : Config)

/-- What a request came to, kept in the saved request (`submission.rs:251-278`). A 429 sets `rate_limited`
before anything is written. -/
def keepReply (saved : SavedSubmission) :
    Except CircleError RawResponse → Task SubmitError (SavedSubmission × Except FailureClass RawResponse)
  | .ok response => pure (saved.answered response, .ok response)
  | .error (.rateLimited (some body)) => do
    call (.setRateLimited true)
    pure (saved.answered ⟨.tooManyRequests, body⟩, .ok ⟨.tooManyRequests, body⟩)
  | .error (.rateLimited none) => do
    call (.setRateLimited true)
    pure (saved.unanswered ((CircleError.rateLimited none).text C), .error (CircleError.rateLimited none).failure)
  | .error e => pure (saved.unanswered (e.text C), .error e.failure)

/-- `send_saved_request` (`submission.rs:223`). -/
def sendSavedRequest (saved : SavedSubmission) :
    Task SubmitError (SavedSubmission × Except FailureClass RawResponse) :=
  match saved.withdrawalId with
  | some id => match statusRequest saved id with
    | .error e => keepReply C saved (.error e)
    | .ok request => do
      let result : Except CircleError RawResponse ← call (.get saved.noteId request)
      keepReply C saved result
  | none => do
    let result : Except CircleError RawResponse ← call (.post saved.noteId (submissionRequest saved))
    keepReply C saved result

/-- `wait_for_withdrawal_limit` (`attester.rs:594`). -/
def waitForWithdrawalLimit (n : NoteId) (status : StatusCode) (body : Bytes)
    (submission : Option (SavedSubmission × SubmissionAttempt)) : Task SubmitError Bool :=
  match config.withdrawalLimit.filter fun policy => isWithdrawalLimit C status body policy.messagePrefix with
  | none => pure false
  | some policy => do
    let now : Int ← call .now
    let retryAt ← attempt (fun m => SubmitError.store (.message m)) (policy.retryAt now)
    write .store (.limit n retryAt body submission)
    pure true

/-- The last step of `advance_submission` (`submission.rs:216-220`). -/
def finishSubmission (saved : SavedSubmission) (response : Except FailureClass RawResponse) : Task SubmitError Unit :=
  match response with
  | .ok response => write .store (.outcome (saved.readResponse C response).1)
  | .error _ => write .store (.outcome saved)

/-- The 409 path (`submission.rs:200-215`): the ID is saved before it is checked with GET. -/
def settleConflict (saved : SavedSubmission) : Task SubmitError Unit :=
  match saved.readConflict C with
  | (saved, some _) => write .store (.outcome saved)
  | (saved, none) => do
    write .store (.outcome saved)
    let (saved, response) ← sendSavedRequest C saved
    finishSubmission C saved response

/-- A reply to a POST whose ID is still unknown (`submission.rs:185-205`). -/
def settlePost (saved : SavedSubmission) (reply : RawResponse) (attempt : SubmissionAttempt) :
    Task SubmitError Unit := do
  if ← waitForWithdrawalLimit C config saved.noteId reply.status reply.body (some (saved, attempt)) then pure ()
  else if reply.status = .conflict then settleConflict C saved
  else finishSubmission C saved (.ok reply)

/-- What follows an answer (`submission.rs:185-220`). -/
def settleReply (attempt : SubmissionAttempt) (saved : SavedSubmission) (response : Except FailureClass RawResponse) :
    Task SubmitError Unit :=
  match saved.withdrawalId, response with
  | none, .ok reply => settlePost C config saved reply attempt
  | _, _ => finishSubmission C saved response

/-- `advance_submission` (`submission.rs:178`). -/
def advanceSubmission (saved : SavedSubmission) (attempt : SubmissionAttempt) : Task SubmitError Unit := do
  let limited : Bool ← call .rateLimited
  if limited then pure ()
  else do
    let (saved, response) ← sendSavedRequest C saved
    settleReply C config attempt saved response

/-! ## Withdrawing a burn -/

/-- `limit_allows` (`attester.rs:541`). -/
def limitAllows (n : NoteId) : Task StoreError Bool := do
  match ← query id fun s => .ok s.firstLimitWait with
  | none => pure true
  | some wait =>
    if wait.noteId ≠ n then do
      let block ← query id fun s => s.burnCreationBlock n
      pure (decide (toLex (block, n) < toLex (wait.creationBlock, wait.noteId)))
    else do
      let now : Int ← call .now
      let since ← attempt StoreError.message (orThrow (sinceEpoch now) "system clock is before the Unix epoch")
      if asSecs since < wait.retryAt then pure false
      else do
        let policy ← attempt StoreError.message
          (orThrow config.withdrawalLimit "withdrawal limit settings are missing")
        let retryAt ← attempt StoreError.message (policy.retryAt now)
        write id (.advance n retryAt)
        pure true

/-- `submit_signed_withdrawal` (`submission.rs:128`). The replaced submission is read for the log. -/
def submitSignedWithdrawal (verified : VerifiedWithdrawal) (signatures : Signature × Signature) :
    Task SubmitError Unit := do
  let endpoint ← attempt SubmitError.invalidRequest (submissionEndpoint config.circleApiBaseUrl)
  let saved ← attempt (fun _ : Unit => SubmitError.encoding)
    (orThrow (signedSubmission C verified signatures endpoint) ())
  let _ ← query .store fun s => s.submission C saved.noteId
  write .store (.save saved)
  advanceSubmission C config saved .first

/-- One signer's answer (`verify.rs:174-178`). -/
def signDigest (n : NoteId) (digest : B256) : Task SubmitError Signature := do
  let answer : Option Signature ← call (.sign n digest)
  attempt (fun _ : Unit => SubmitError.signing) (orThrow answer ())

/-- `prepare_withdrawal` (`circle.rs:269`), with `inspect_err` (`attester.rs:678`). -/
def prepareWithdrawal (burn : DiscoveredBurn) (fee : UInt64) : Task SubmitError UnverifiedPrepareResponse := do
  let _ ← attempt SubmitError.prepare
    (orThrow (config.circleApiBaseUrl.join "/v1/prepare-withdrawal") CircleError.invalidUrl)
  let reply : Except CircleError UnverifiedPrepareResponse ← call (.prepare burn fee)
  match reply with
  | .ok prepared => pure prepared
  | .error e =>
    if e.isRateLimited then do
      call (.setRateLimited true)
      throw (SubmitError.prepare e)
    else throw (SubmitError.prepare e)

/-- `withdraw` (`attester.rs:664`). -/
def withdraw (burn : DiscoveredBurn) : Task SubmitError Unit := do
  let fee ← attempt SubmitError.verification
    (orThrow (config.forwardingMaxFee burn.items.destDomain) VerifyError.unsupportedDestination)
  let prepared ← prepareWithdrawal config burn fee
  let verified ← attempt SubmitError.verification (verify C prepared burn config)
  let first ← signDigest verified.noteId verified.digest
  let second ← signDigest verified.noteId verified.digest
  submitSignedWithdrawal C config verified (first, second)

/-- `burn_hold` (`attester.rs:778`). -/
def burnHold : SubmitError → Option (BurnHoldReason × Option (Nat × Bytes))
  | .prepare (.unexpectedPrepareStatus status body) =>
    if status = .badRequest then some (.prepareRejected, some (status.code, body)) else none
  | .verification .tooSmallToForward => some (.tooSmallToForward, none)
  | _ => none

/-- The hold a failure before submission calls for, and the failure (`attester.rs:643-660`). -/
def holdAndThrow (n : NoteId) (error : SubmitError) : Task SubmitError Unit :=
  match burnHold error with
  | some (reason, response) => do
    write .store (.hold n reason response)
    throw error
  | none => throw error

/-- What follows a failed withdrawal (`attester.rs:632-660`). -/
def settleFailure (n : NoteId) (error : SubmitError) : Task SubmitError Unit :=
  match error with
  | .store e => throw (.store e)
  | .prepare (.unexpectedPrepareStatus status body) => do
    if ← waitForWithdrawalLimit C config n status body none then pure ()
    else holdAndThrow n (.prepare (.unexpectedPrepareStatus status body))
  | error => holdAndThrow n error

/-- `attempt_withdrawal` (`attester.rs:622`). -/
def attemptWithdrawal (burn : DiscoveredBurn) : Task SubmitError Unit := do
  call (.mark (.withdraw burn.noteId))
  tryCatch (withdraw C config burn) (settleFailure C config burn.noteId)

end

/-! ## Admin commands -/

/-- `ADMIN_COMMANDS_PER_CHECKPOINT` (`attester.rs:66`). -/
def ADMIN_COMMANDS_PER_CHECKPOINT : Nat := 8

/-- `handle_admin` (`attester.rs:226`). The answer goes to the listener; a listing only reads. -/
def handleAdmin {ρ : Type} (command : Command) : Task ρ Unit :=
  if command.abandoned then pure ()
  else match command.operation with
    | .list _ => pure ()
    | .release selection => do
      let _ : Except StoreError Unit ← call (.write (.release selection))
      pure ()

def handleEach {ρ : Type} : List Command → Task ρ Unit
  | [] => pure ()
  | command :: rest => do
    handleAdmin command
    handleEach rest

/-- `admin_checkpoint` (`attester.rs:198`). -/
def adminCheckpoint {ρ : Type} : Task ρ Unit := do
  let queued : List Command ← call .inbox
  handleEach (queued.take ADMIN_COMMANDS_PER_CHECKPOINT)

section
variable (C : Crates) (config : Config)

/-! ## The phases of a cycle -/

/-- `advance_submissions` (`submission.rs:155`). -/
def advanceSubmissions : List SavedSubmission → Task SubmitError Unit
  | [] => pure ()
  | saved :: rest => do
    adminCheckpoint
    let limited : Bool ← call .rateLimited
    if limited then pure ()
    else do
      let admitted ← if saved.withdrawalId.isNone then
          (limitAllows config saved.noteId).adapt SubmitError.store
        else pure true
      if admitted then do
        call (.mark (.withdraw saved.noteId))
        advanceSubmission C config saved .recovery
        advanceSubmissions rest
      else advanceSubmissions rest

/-- `submit_withdrawals` (`attester.rs:571`), with the first error that did not stop it. -/
def submitWithdrawals (firstError : Option SubmitError) : List DiscoveredBurn → Task SubmitError (Option SubmitError)
  | [] => pure firstError
  | burn :: rest => do
    adminCheckpoint
    let limited : Bool ← call .rateLimited
    if limited then pure firstError
    else do
      if ← (limitAllows config burn.noteId).adapt SubmitError.store then do
        match ← ExceptT.lift (attemptWithdrawal C config burn).run with
        | .ok () => submitWithdrawals firstError rest
        | .error error =>
          if error.isFatal then throw error
          else submitWithdrawals (firstError <|> some error) rest
      else pure firstError

/-- The notes a block publishes that are burns not yet known (`attester.rs:833-848`). -/
def newCandidates (faucet : AccountId) (s : Store) (block : SignedBlock) : List BurnCandidate :=
  block.outputNoteBatches.flatten.filterMap fun output => match output with
    | .isPrivate => none
    | .isPublic note => match BurnCandidate.new C note block.header.blockNum faucet with
      | .error _ => none
      | .ok candidate => if s.noteKnown candidate.noteId then none else some candidate

/-- The candidates consumed by these inputs (`attester.rs:860-865`). -/
def consumedBy (faucet : AccountId) (s : Store) (block : BlockNumber) :
    List Nullifier → Except StoreError (List DiscoveredBurn)
  | [] => pure []
  | nullifier :: rest => do
    let candidate ← s.candidateByNullifier C faucet nullifier
    let burns ← consumedBy faucet s block rest
    pure (match candidate with
      | some c => c.intoDiscovered block :: burns
      | none => burns)

/-- `find_burns_in_block` (`attester.rs:823`). -/
def findBurnsInBlock (faucet : AccountId) (s : Store) (block : SignedBlock) :
    Except StoreError (List BurnCandidate × List DiscoveredBurn) := do
  let inputs := (block.transactions.filter fun t => t.accountId == faucet).flatMap (·.inputNullifiers)
  let burns ← consumedBy C faucet s block.header.blockNum inputs
  pure (newCandidates C faucet s block, burns)

/-- `save_block` (`attester.rs:503`). -/
def saveBlock (block : SignedBlock) : Task DiscoverError Unit := do
  let (candidates, burns) ← query .store fun s => findBurnsInBlock C config.faucetAccountId s block
  write .store (.scan candidates burns block.header)

/-- `fetch_and_verify_block` (`attester.rs:513`). -/
def fetchAndVerifyBlock (blockNum : BlockNumber) (parent : BlockHeader) : Task DiscoverError SignedBlock := do
  let answer : Except ChainError SignedBlock ← call (.blockByNumber blockNum)
  let block ← attempt DiscoverError.chain answer
  if block.header.blockNum ≠ blockNum ∨ C.validate block (some parent) = false then throw .chainDiverged
  else pure block

/-- `check_checkpoint` (`attester.rs:808`). -/
def checkCheckpoint (checkpoint : BlockHeader) : Task DiscoverError Unit := do
  let answer : Except ChainError SignedBlock ← call (.blockByNumber checkpoint.blockNum)
  let block ← attempt DiscoverError.chain answer
  if block.header.commitment ≠ checkpoint.commitment then throw .chainDiverged else pure ()

/-- The loop of `discover_burns` (`attester.rs:488-496`). -/
def scanBlocks (parent : BlockHeader) : List BlockNumber → Task DiscoverError Unit
  | [] => pure ()
  | blockNum :: rest => do
    adminCheckpoint
    let block ← fetchAndVerifyBlock C blockNum parent
    saveBlock C config block
    scanBlocks block.header rest

/-- `Attester::checkpoint` (`attester.rs:451`). -/
def currentCheckpoint (s : Store) : Except StoreError BlockHeader := do
  let checkpoint ← s.checkpoint
  orThrow checkpoint .invalid

/-- `discover_burns` (`attester.rs:459`). -/
def discoverBurns : Task DiscoverError BlockNumber := do
  let checkpoint ← query .store currentCheckpoint
  let answer : Except ChainError ScanLimits ← call .scanLimits
  let limits ← attempt DiscoverError.chain answer
  let tip := limits.latestCommittedBlock
  if tip < checkpoint.blockNum then
    -- A node short of the pinned anchor has merely not caught up yet.
    if checkpoint.blockNum = config.trustedAnchor.blockNum then pure limits.proofLagBlock
    else throw .chainDiverged
  else if tip = checkpoint.blockNum then do
    checkCheckpoint checkpoint
    pure limits.proofLagBlock
  else do
    scanBlocks C config checkpoint (List.range' (checkpoint.blockNum + 1) (tip - checkpoint.blockNum))
    pure limits.proofLagBlock

/-- `discovery_outcome` (`attester.rs:724`): a failed chain read leaves the cycle without new burns. -/
def discoveryOutcome : Except DiscoverError BlockNumber → Task DiscoverError (Option BlockNumber)
  | .ok lag => do
    call (.mark (.discovered lag))
    pure (some lag)
  | .error (.chain _) => pure none
  | .error e => throw e

/-- The work lists (`attester.rs:379-383`). -/
def snapshot (lag : Option BlockNumber) : Task DiscoverError Work := do
  let recover ← query .store fun s => s.submissionsToRecover C
  let poll ← query .store fun s => s.submissionsToPoll C
  let ready ← match lag with
    | some lag => query .store fun s =>
        s.burnsReadyForWithdrawal C config.faucetAccountId lag config.minimumFinalityDepthBlocks
    | none => pure []
  let work := { recover := recover, ready := ready, poll := poll }
  call (.mark (.snapshot work))
  pure work

/-- What stops a cycle without being discovery's is the store's (`attester.rs:371`). -/
def SubmitError.asStore : SubmitError → DiscoverError
  | .store e => .store e
  | _ => .store .invalid

/-- `cycle` (`attester.rs:372`). -/
def cycle : Task DiscoverError Unit := do
  call (.mark (.cycle config))
  call (.setRateLimited false)
  let discovered ← ExceptT.lift (discoverBurns C config).run
  let lag ← discoveryOutcome discovered
  let work ← snapshot C config lag
  (advanceSubmissions C config work.recover).adapt SubmitError.asStore
  let _ ← (submitWithdrawals C config none work.ready).adapt SubmitError.asStore
  (advanceSubmissions C config work.poll).adapt SubmitError.asStore

/-- `run` (`attester.rs:293`), shut down after at most this many cycles: only a diverged chain ends it
before (`finish_cycle`, `attester.rs:739`). The commands of the pause follow each cycle. -/
def run : Nat → Task Unit Unit
  | 0 => pure ()
  | cycles + 1 => do
    adminCheckpoint
    match ← ExceptT.lift (cycle C config).run with
    | .error .chainDiverged => pure ()
    | _ => do
      let commands : List Command ← call .inbox
      handleEach commands
      run cycles

/-! ## Startup -/

/-- `Store::open_or_create` (`store.rs:231`). -/
def openOrCreate : Task StoreError Unit := do
  let answer : Except StoreError Bool ← call .fileExists
  let exist ← attempt id answer
  let opened : Except StoreError Unit ← call (.openFile true)
  attempt id opened
  if exist then query id fun s => s.openExisting C config.faucetAccountId config.trustedAnchor
  else write id (.create config.faucetAccountId config.trustedAnchor)

/-- The pinned anchor (`attester.rs:117-131`): the requested block, with the pinned commitment, and
consistent on its own. -/
def fetchAnchor : Task String SignedBlock := do
  let answer : Except ChainError SignedBlock ← call (.blockByNumber config.trustedAnchor.blockNum)
  let block ← attempt (fun _ => "failed to load the configured trusted anchor") answer
  if block.header.blockNum ≠ config.trustedAnchor.blockNum ∨
      block.header.commitment ≠ config.trustedAnchor.commitment ∨ C.validate block none = false then
    throw "configured trusted anchor is not the requested, self-consistent pinned block"
  else pure block

/-- `Attester::start` (`attester.rs:92`). -/
def start : Task String Unit := do
  let answer : Except ChainError Bool ← call (.accountExists config.faucetAccountId)
  let exist ← attempt (fun _ => "failed to check the configured faucet account") answer
  attempt id (ensure (exist = true) "configured faucet account does not exist")
  let block ← fetchAnchor C config
  let expected : Bool ← call .checkSigners
  attempt id (ensure (expected = true) "loaded signing public keys do not match configuration")
  let reachable : Bool ← call .checkCircle
  attempt id (ensure (reachable = true) "failed to connect to the Circle API")
  (openOrCreate C config).adapt fun _ => "failed to open attester store"
  let wait ← query (fun _ => "failed to open attester store") fun s => .ok s.firstLimitWait
  attempt id (ensure (config.withdrawalLimit.isSome = true ∨ wait = none)
    "store has withdrawals waiting for Circle's withdrawal limit")
  let checkpoint ← query (fun _ => "failed to load the attester's checkpoint") Store.checkpoint
  match checkpoint with
  | some checkpoint => (checkCheckpoint checkpoint).adapt fun _ =>
      "failed to check the saved checkpoint against the Miden node"
  | none => (saveBlock C config block).adapt fun _ => "failed to save the trusted anchor as the first checkpoint"

/-- One process of the service. -/
def serve (cycles : Nat) : Task String Unit := do
  start C config
  (run C config cycles).adapt fun _ => ""

/-- `release_holds` on an existing store (`attester.rs:703`), with no service running. -/
def releaseOffline (faucet : AccountId) (anchor : TrustedAnchor) (notes : List NoteId) : Task StoreError Unit := do
  let opened : Except StoreError Unit ← call (.openFile false)
  attempt id opened
  query id fun s => s.openExisting C faucet anchor
  write id (.releaseAll notes)

end

/-! ## Runs -/

/-- One process over the store, with the environment it meets. A process that finds no more choices
has crashed. -/
inductive Lifetime where
  | serve (config : Config) (cycles : Nat) (env : List Env)
  | releaseHolds (faucet : AccountId) (anchor : TrustedAnchor) (notes : List NoteId) (env : List Env)

def Lifetime.run (C : Crates) (w : World) : Lifetime → World
  | .serve config cycles env => (Prog.run (handler C) (LightAttester.serve C config cycles).run env w).2.2
  | .releaseHolds faucet anchor notes env =>
    (Prog.run (handler C) (releaseOffline C faucet anchor notes).run env w).2.2

/-- The processes of a run, one after the other, from nothing. -/
def runAll (C : Crates) (lifetimes : List Lifetime) : World := lifetimes.foldl (Lifetime.run C) .start

end LightAttester
