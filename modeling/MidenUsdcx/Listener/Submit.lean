import MidenUsdcx.Listener.Ledger
import MidenUsdcx.Listener.Wire
import MidenUsdcx.Lib.Trace
/-!
# Submitting a withdrawal (`submit.rs`, `circle/retry.rs`, `withdrawal_api.rs:263-446`)

| here | there |
| --- | --- |
| `received` | `CircleClient::execute` (`client.rs:355`) |
| `isRetryable`, `withBackoff` | `retry.rs:67-158` |
| `decodeWithdrawCreated`, `pollStatusOnce`, `pollStatus` | `withdrawal_api.rs:323-433` |
| `attemptWithdraw`, `settleCreated`, `recoverConflict`, `settleFailure`, `submitWithdraw` | `submit.rs:231-548` |

The listener calls the ledger and Circle (`Call`). Each call takes one moment of the environment
(`Moment`): what other tasks and processes did to the ledger file since the last call, what the clock
shows, whether SQLite fails, what comes back over the wire. The JSON decoder is left arbitrary
(`Serde`); its results are values of the wire types.

Left out: the rate governor, the waits between attempts, and joining a path to a base URL that was
checked when the client was made.
-/
namespace WithdrawalListener
open Checked Interact Keyed

abbrev Bytes := List UInt8

/-- `serde_json::from_slice` at the response types. -/
structure Serde where
  prepared : Bytes → Option PrepareWithdrawalResponse
  statuses : Bytes → Option (List WithdrawalStatus)
  conflict : Bytes → Option WithdrawConflict
  status : Bytes → Option WithdrawalStatus

/-- `RetryPolicy` (`retry.rs:85`); a budget of none is raised to one. -/
structure RetryPolicy where
  maxAttempts : UInt32
  positive : 1 ≤ maxAttempts.toNat

/-- `PollPolicy` (`client.rs:53`), likewise. -/
structure PollPolicy where
  maxAttempts : UInt32
  positive : 1 ≤ maxAttempts.toNat

/-- `RetryPolicy::new` (`retry.rs:94`). -/
def RetryPolicy.new (maxAttempts : UInt32) : RetryPolicy :=
  if h : 1 ≤ maxAttempts.toNat then ⟨maxAttempts, h⟩ else ⟨1, by decide⟩

/-- `PollPolicy::new` (`client.rs:61`). -/
def PollPolicy.new (maxAttempts : UInt32) : PollPolicy :=
  if h : 1 ≤ maxAttempts.toNat then ⟨maxAttempts, h⟩ else ⟨1, by decide⟩

/-- What of `CircleClient` decides how an answer is taken. -/
structure CircleClient where
  maxResponseBytes : Nat
  retry : RetryPolicy
  poll : PollPolicy
  serde : Serde

/-- `ListenerError` (`error.rs:62`), as far as a request can end in it. -/
inductive ListenerError where
  | transport
  | responseTooLarge (limit actual : Nat)
  | http (status : UInt16)
  | withdrawalNotFound (withdrawalId : String)
  | malformedResponse (context : String)
  | pollExhausted (after : UInt32)
  | withdrawResponseCardinality (submitted returned : Nat)
  | withdrawalIdMismatch (requested returned : String)
deriving DecidableEq, Repr

/-! ## Calls -/

/-- What the transport brings back: no answer, a body cut off at the size limit, or a response. -/
inductive Reply where
  | failed
  | cutOff (actual : Nat)
  | response (status : UInt16) (body : Bytes)
deriving DecidableEq

/-- `RawResponse` (`transport.rs:30`). -/
structure RawResponse where
  status : UInt16
  body : Bytes

inductive Call where
  | claimBurns (keys : List BurnKey)
  /-- `SubmitLedger::transition`, under the name of its target. -/
  | record (target : SubmissionStatus) (key : BurnKey) (withdrawalId : Option String)
  | postPrepare (request : PrepareWithdrawalRequest)
  | postWithdraw (request : WithdrawRequest)
  | getWithdrawal (id : Uuid)

def Call.Answer : Call → Type
  | .claimBurns _ => Except LedgerError ClaimOutcome
  | .record _ _ _ => Except LedgerError SubmissionRecord
  | .postPrepare _ | .postWithdraw _ | .getWithdrawal _ => Reply

def calls : Sig := { Op := Call, Ans := Call.Answer }

/-- One moment of the environment; a call looks only at its own part of it. -/
structure Moment where
  /-- What others did to the ledger file since the last call. -/
  meanwhile : List Transaction
  now : UInt64
  fails : Bool
  reply : Reply

def Call.answer (m : Moment) (l : Ledger) : (o : Call) → o.Answer × Ledger
  | .claimBurns keys => WithdrawalListener.claimBurns l keys m.now m.fails
  | .record target key id => transition target l key id m.now m.fails
  | .postPrepare _ | .postWithdraw _ | .getWithdrawal _ => (m.reply, l)

def handler : Handler calls Moment Ledger where
  step o m l := Call.answer m (afterAll l m.meanwhile) o

abbrev Task (ρ α : Type) := ExceptT ρ (Prog calls) α

/-- One call. -/
def call {ρ : Type} (o : Call) : Task ρ o.Answer := ExceptT.lift (Prog.perform (S := calls) o)

/-- `?` on a result, with the conversion of its error. -/
def attempt {ρ ε α : Type} (f : ε → ρ) : Except ε α → Task ρ α
  | .ok a => pure a
  | .error e => throw (f e)

/-! ## The client -/

section
variable (circle : CircleClient)

/-- `CircleClient::execute` (`client.rs:355`). -/
def received : Reply → Except ListenerError RawResponse
  | .failed => .error .transport
  | .cutOff actual => .error (.responseTooLarge circle.maxResponseBytes actual)
  | .response status body =>
    if body.length ≤ circle.maxResponseBytes then .ok ⟨status, body⟩
    else .error (.responseTooLarge circle.maxResponseBytes body.length)

/-- `decode` (`withdrawal_api.rs:438`). -/
def decode {α : Type} (parse : Bytes → Option α) (body : Bytes) (context : String) : Except ListenerError α :=
  orThrow (parse body) (.malformedResponse context)

/-- `is_retryable` (`retry.rs:67`). -/
def isRetryable : ListenerError → Bool
  | .http status => 500 ≤ status && status ≤ 599
  | _ => false

/-- The loop of `with_backoff` with `left` attempts after this one (`retry.rs:143-157`). -/
def withBackoffFrom {α : Type} (op : Task ListenerError α) : Nat → Task ListenerError α
  | 0 => op
  | left + 1 => tryCatch op fun error =>
    if isRetryable error then withBackoffFrom op left else throw error

/-- `with_backoff` (`retry.rs:135`). -/
def withBackoff {α : Type} (op : Task ListenerError α) : Task ListenerError α :=
  withBackoffFrom op (circle.retry.maxAttempts.toNat - 1)

/-- `decode_withdraw_created` (`withdrawal_api.rs:323`). -/
def decodeWithdrawCreated (body : Bytes) (submitted : Nat) : Except ListenerError (List WithdrawalStatus) := do
  let statuses ← decode circle.serde.statuses body "withdraw"
  ensure (statuses.length = submitted) (.withdrawResponseCardinality submitted statuses.length)
  pure statuses

/-- What one GET of a withdrawal's status comes to (`withdrawal_api.rs:366-386`). -/
def statusOf (id : Uuid) (reply : Reply) : Except ListenerError WithdrawalStatus := do
  let response ← received circle reply
  if response.status = 200 then do
    let status ← decode circle.serde.status response.body "withdrawal-status"
    ensure (status.withdrawalId.asStr = id.asStr) (.withdrawalIdMismatch id.asStr status.withdrawalId.asStr)
    pure status
  else if response.status = 404 then .error (.withdrawalNotFound id.asStr)
  else .error (.http response.status)

/-- `poll_status_once` (`withdrawal_api.rs:357`). -/
def pollStatusOnce (id : Uuid) : Task ListenerError WithdrawalStatus := do
  let reply : Reply ← call (.getWithdrawal id)
  attempt (fun e => e) (statusOf circle id reply)

/-- The loop of `poll_status` (`withdrawal_api.rs:409-432`). -/
def pollStatusFrom (id : Uuid) : Nat → Task ListenerError WithdrawalStatus
  | 0 => throw (.pollExhausted circle.poll.maxAttempts)
  | left + 1 => do
    let status ← pollStatusOnce circle id
    if status.status.isRetryable || status.status == .finalized || status.status == .failed then pure status
    else pollStatusFrom id left

/-- `poll_status` (`withdrawal_api.rs:398`). -/
def pollStatus (id : Uuid) : Task ListenerError WithdrawalStatus :=
  pollStatusFrom circle id circle.poll.maxAttempts.toNat

/-! ## The submission -/

/-- `SubmitOutcome` (`submit.rs:92`). -/
inductive SubmitOutcome where
  | submitted (statuses : List WithdrawalStatus)
  | conflictRecovered (withdrawalId : Uuid) (status : WithdrawalStatus)
  | reconciliationRequired (burnTxId : String)
  | conflictEchoMismatch (submitted : List String) (echoed : String)
  | alreadySubmitted (burnTxId : String) (status : SubmissionStatus)
deriving DecidableEq

/-- `SubmitError` (`submit.rs:156`). -/
inductive SubmitError where
  | circle (error : ListenerError)
  | ledger (error : LedgerError)
  | duplicateBurnInRequest (burnTxId : String)
deriving DecidableEq

/-- `Attempt` (`submit.rs:284`). -/
inductive Attempt where
  | created (statuses : List WithdrawalStatus)
  | conflict (conflict : WithdrawConflict)

/-- What one POST comes to (`submit.rs:299-314`). -/
def attemptOf (request : WithdrawRequest) (reply : Reply) : Except ListenerError Attempt := do
  let response ← received circle reply
  if response.status = 201 then
    .created <$> decodeWithdrawCreated circle response.body request.batches.length
  else if response.status = 409 then
    .conflict <$> decode circle.serde.conflict response.body "withdraw-conflict"
  else .error (.http response.status)

/-- `attempt_withdraw` (`submit.rs:295`): the one place that posts a withdrawal. -/
def attemptWithdraw (request : WithdrawRequest) : Task ListenerError Attempt := do
  let reply : Reply ← call (.postWithdraw request)
  attempt (fun e => e) (attemptOf circle request reply)

/-- `record_submission` .. `record_failure` by the status they record, with `?`. -/
def recordAs (target : SubmissionStatus) (key : BurnKey) (withdrawalId : Option String) : Task SubmitError Unit := do
  let answer : Except LedgerError SubmissionRecord ← call (.record target key withdrawalId)
  let _ ← attempt .ledger answer
  pure ()

/-- `position_of` (`submit.rs:539`). -/
def positionOf (burns : List String) (echoed : String) : Option Nat :=
  burns.findIdx? fun burn => eqIgnoreAsciiCase burn echoed

/-- `echoes_one_of` (`submit.rs:546`). -/
def echoesOneOf (burns : List String) (echoed : String) : Bool := (positionOf burns echoed).isSome

/-- `mark_all_reconciliation` (`submit.rs:489`). -/
def markAllReconciliation (keys : List BurnKey) : Task SubmitError Unit :=
  keys.forM fun key => recordAs .reconciliationRequired key none

/-- `block_others` (`submit.rs:520`). -/
def blockOthers (keys : List BurnKey) (index : Nat) : Task SubmitError Unit :=
  keys.zipIdx.forM fun (key, i) => if i = index then pure () else recordAs .reconciliationRequired key none

/-- `keys[at]`, the burn a conflict is about, then every other burn (`submit.rs:448-457`, `509-518`). The index is
one of `positionOf`, so it is in range. -/
def settleNamed (target : SubmissionStatus) (keys : List BurnKey) (index : Nat) (withdrawalId : Uuid) :
    Task SubmitError Unit := do
  keys[index]?.forM fun key => recordAs target key (some withdrawalId.asStr)
  blockOthers keys index

/-- `block_binding_id_to` (`submit.rs:509`). -/
def blockBindingIdTo := settleNamed .reconciliationRequired

/-- The status each burn is paired with, or the first burn with none (`submit.rs:344-359`). -/
def pairUp (burns : List String) (statuses : List WithdrawalStatus) : Except String (List WithdrawalStatus) :=
  burns.mapM fun burn => orThrow (statuses.find? fun s => eqIgnoreAsciiCase s.burnTxId.asStr burn) burn

/-- `settle_created` (`submit.rs:326`). -/
def settleCreated (keys : List BurnKey) (burns : List String) (statuses : List WithdrawalStatus) :
    Task SubmitError SubmitOutcome :=
  match statuses.find? fun status => !echoesOneOf burns status.burnTxId.asStr with
  | some status => do
    markAllReconciliation keys
    pure (.conflictEchoMismatch burns status.burnTxId.asStr)
  | none => match pairUp burns statuses with
    | .error burn => do
      markAllReconciliation keys
      pure (.conflictEchoMismatch burns burn)
    | .ok paired => do
      (keys.zip paired).forM fun pair => recordAs .submitted pair.1 (some pair.2.withdrawalId.asStr)
      pure (.submitted statuses)

/-- What the polled status means for the burn a conflict named (`submit.rs:421-462`). -/
def settleRecovered (keys : List BurnKey) (burns : List String) (index : Nat) (burn : String) (withdrawalId : Uuid) :
    Except ListenerError WithdrawalStatus → Task SubmitError SubmitOutcome
  | .error error => do
    blockBindingIdTo keys index withdrawalId
    throw (.circle error)
  | .ok status =>
    if eqIgnoreAsciiCase status.burnTxId.asStr burn then do
      settleNamed (if status.status = .finalized then .finalized else .reconciliationRequired) keys index withdrawalId
      pure (.conflictRecovered withdrawalId status)
    else do
      blockBindingIdTo keys index withdrawalId
      pure (.conflictEchoMismatch burns status.burnTxId.asStr)

/-- `recover_conflict` (`submit.rs:383`). -/
def recoverConflict (keys : List BurnKey) (burns : List String) (conflict : WithdrawConflict) :
    Task SubmitError SubmitOutcome :=
  match positionOf burns conflict.burnTxId.asStr with
  | none => do
    markAllReconciliation keys
    pure (.conflictEchoMismatch burns conflict.burnTxId.asStr)
  | some index => match conflict.withdrawalId with
    | none => do
      markAllReconciliation keys
      pure (.reconciliationRequired conflict.burnTxId.asStr)
    | some withdrawalId => do
      let polled ← ExceptT.lift (pollStatus circle withdrawalId).run
      settleRecovered keys burns index (burns.getD index "") withdrawalId polled

/-- `settle_failure` (`submit.rs:471`): only a 400 frees the burns. -/
def settleFailure (keys : List BurnKey) (error : ListenerError) : Task SubmitError Unit :=
  if error = .http 400 then keys.forM fun key => recordAs .failed key none else markAllReconciliation keys

/-- What follows the POST (`submit.rs:267-278`). -/
def settleAttempt (keys : List BurnKey) (burns : List String) :
    Except ListenerError Attempt → Task SubmitError SubmitOutcome
  | .ok (.created statuses) => settleCreated keys burns statuses
  | .ok (.conflict conflict) => recoverConflict circle keys burns conflict
  | .error error => do
    settleFailure keys error
    throw (.circle error)

/-- The first burn that an earlier batch names too (`submit.rs:245-253`). -/
def repeatedBurn (burns : List String) : Option String :=
  (burns.zipIdx.find? fun (burn, i) => ((burns.take i).map BurnKey.new).contains (.new burn)).map (·.1)

/-- Everything after the claim (`submit.rs:256-279`). -/
def submitClaimed (request : WithdrawRequest) (keys : List BurnKey) (burns : List String) :
    ClaimOutcome → Task SubmitError SubmitOutcome
  | .alreadySeen record => pure (.alreadySubmitted record.burnKey.text record.status)
  | .claimed _ => do
    let done ← ExceptT.lift (withBackoff circle (attemptWithdraw circle request)).run
    settleAttempt circle keys burns done

def WithdrawRequest.burns (request : WithdrawRequest) : List String := request.batches.map (·.burnTxId)

def WithdrawRequest.keys (request : WithdrawRequest) : List BurnKey := request.burns.map BurnKey.new

/-- `submit_withdraw` (`submit.rs:231`). -/
def submitWithdraw (request : WithdrawRequest) : Task SubmitError SubmitOutcome :=
  match repeatedBurn request.burns with
  | some burn => throw (.duplicateBurnInRequest burn)
  | none => do
    let answer : Except LedgerError ClaimOutcome ← call (.claimBurns request.keys)
    let outcome ← attempt .ledger answer
    submitClaimed circle request request.keys request.burns outcome

end

end WithdrawalListener
