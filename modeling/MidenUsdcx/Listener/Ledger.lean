import MidenUsdcx.Lib.Checked
import MidenUsdcx.Lib.Table
import Mathlib.Data.String.Basic
/-!
# The submit ledger (`idempotency/record.rs`, `idempotency/store.rs`)

| here | there |
| --- | --- |
| `BurnKey`, `SubmissionStatus`, `SubmissionRecord`, `ClaimOutcome` | `record.rs:22-180` |
| `rowToRecord`, `readRecord`, `applyTransition` | `store.rs:401-474` |
| `claimEach`, `claimBurns` | `SubmitLedger::claim_burns` (`store.rs:176-225`) |
| `transition`, `recordSubmission` .. `recordFailure` | `store.rs:242-329` |
| `commit` | `SubmitLedger::write` (`store.rs:335-354`) |

`Ledger` is the table `submitted_burn`. Its columns are what `STRICT` lets a foreign writer leave: any
text for the status, any text or none for the ID, any 64-bit timestamp. A row is *readable* when
`rowToRecord` takes it.

A transaction is one step: `fails` is SQLite refusing one of its statements or the commit, which rolls
everything back, and `now` is the clock. Opening the file (`open_with_clock`) is left out.
-/
namespace WithdrawalListener
open Checked Keyed

/-! ## Records -/

/-- A burn's identity: its `burnTxId` in lower case (`record.rs:22`). -/
structure BurnKey where
  text : String
  lower : text.toLower = text
deriving DecidableEq

theorem char_toLower_idem (c : Char) : c.toLower.toLower = c.toLower := by
  unfold Char.toLower
  split
  · rename_i h
    rw [dif_neg]
    rintro ⟨-, hle⟩
    -- An upper-case letter plus 32 is past the upper-case letters.
    have hup := UInt32.le_iff_toNat_le.1 h.2
    have hlow := UInt32.le_iff_toNat_le.1 h.1
    have hle' := UInt32.le_iff_toNat_le.1 hle
    simp only [UInt32.toNat_add, UInt32.toNat_sub] at hle'
    have hA : 'A'.val.toNat = 65 := rfl
    have hZ : 'Z'.val.toNat = 90 := rfl
    have ha : 'a'.val.toNat = 97 := rfl
    omega
  · rfl

theorem toLower_idem (s : String) : s.toLower.toLower = s.toLower := by
  unfold String.toLower
  rw [String.map_map]
  congr 1
  funext c
  exact char_toLower_idem c

/-- `BurnKey::new` (`record.rs:26`): `to_ascii_lowercase`. -/
def BurnKey.new (burnTxId : String) : BurnKey := ⟨burnTxId.toLower, toLower_idem burnTxId⟩

@[simp] theorem BurnKey.new_text (key : BurnKey) : BurnKey.new key.text = key := by
  cases key with
  | mk text lower => simp only [BurnKey.new, lower]

/-- `SubmissionStatus` (`record.rs:47`). -/
inductive SubmissionStatus where
  | pending
  | submitted
  | finalized
  | reconciliationRequired
  | failed
deriving DecidableEq, Repr

namespace SubmissionStatus

/-- `as_token` (`record.rs:78`). -/
def asToken : SubmissionStatus → String
  | .pending => "pending"
  | .submitted => "submitted"
  | .finalized => "finalized"
  | .reconciliationRequired => "reconciliation_required"
  | .failed => "failed"

/-- `parse` (`record.rs:91`). -/
def parse (token : String) : Option SubmissionStatus :=
  if token = "pending" then some .pending
  else if token = "submitted" then some .submitted
  else if token = "finalized" then some .finalized
  else if token = "reconciliation_required" then some .reconciliationRequired
  else if token = "failed" then some .failed
  else none

/-- `blocks_resubmission` (`record.rs:106`). -/
def blocksResubmission : SubmissionStatus → Bool
  | .failed => false
  | _ => true

/-- `can_transition_to` (`record.rs:119`). -/
def canTransitionTo : SubmissionStatus → SubmissionStatus → Bool
  | .pending, .submitted | .pending, .reconciliationRequired | .pending, .failed | .pending, .finalized => true
  | .submitted, .finalized | .submitted, .reconciliationRequired => true
  | .failed, .pending => true
  | _, _ => false

@[simp] theorem parse_asToken (status : SubmissionStatus) : parse status.asToken = some status := by
  cases status <;> decide

end SubmissionStatus

/-- `SubmissionRecord` (`record.rs:140`). -/
structure SubmissionRecord where
  burnKey : BurnKey
  withdrawalId : Option String
  status : SubmissionStatus
  timestamp : UInt64
deriving DecidableEq

/-- `ClaimOutcome` (`record.rs:170`). -/
inductive ClaimOutcome where
  | claimed (records : List SubmissionRecord)
  | alreadySeen (record : SubmissionRecord)

/-- `LedgerError` (`idempotency/error.rs`), without what only opening the file reports. -/
inductive LedgerError where
  | store
  | corruptLedgerRecord (detail : String)
  | unknownBurn (burnTxId : String)
  | illegalStatusTransition (source target : SubmissionStatus)
deriving DecidableEq, Repr

/-- `ClaimAborted` (`store.rs:372`): an already-seen burn travels as an error, to roll back. -/
inductive ClaimAborted where
  | alreadySeen (record : SubmissionRecord)
  | ledger (error : LedgerError)

/-! ## Rows -/

/-- A TEXT value; SQLite does not check that it is UTF-8. -/
inductive Text where
  | utf8 (text : String)
  | invalid
deriving DecidableEq

/-- `row.get::<_, String>`. -/
def Text.get : Text → Except LedgerError String
  | .utf8 text => .ok text
  | .invalid => .error .store

/-- A row of `submitted_burn` (`store.rs:45`). -/
structure Row where
  burnKey : String
  withdrawalId : Option Text
  status : Text
  timestamp : Int64
deriving DecidableEq

abbrev Ledger := Table String Row (·.burnKey)

/-- `to_sql_seconds` (`store.rs:479`). -/
def toSqlSeconds (seconds : UInt64) : Except LedgerError Int64 :=
  if seconds.toNat ≤ Int64.maxValue.toNatClampNeg then .ok seconds.toInt64
  else .error (.corruptLedgerRecord ("timestamp " ++ toString seconds ++ " does not fit an i64"))

/-- `from_sql_seconds` (`store.rs:483`). -/
def fromSqlSeconds (seconds : Int64) : Except LedgerError UInt64 :=
  if seconds < 0 then .error (.corruptLedgerRecord ("timestamp " ++ toString seconds ++ " is negative"))
  else .ok seconds.toUInt64

/-- `row_to_record` (`store.rs:457`). -/
def rowToRecord (row : Row) : Except LedgerError SubmissionRecord := do
  let withdrawalId ← row.withdrawalId.mapM Text.get
  let token ← row.status.get
  let status ← orThrow (SubmissionStatus.parse token)
    (.corruptLedgerRecord ("`" ++ token ++ "` is not a submission status"))
  let timestamp ← fromSqlSeconds row.timestamp
  pure { burnKey := .new row.burnKey, withdrawalId := withdrawalId, status := status, timestamp := timestamp }

/-- `read_record` (`store.rs:438`): a row that cannot be read is an error, not an absent row. -/
def readRecord (l : Ledger) (key : BurnKey) : Except LedgerError (Option SubmissionRecord) :=
  match l.get? key.text with
  | none => .ok none
  | some row => (rowToRecord row).map some

/-- SQLite's `length` of a text: the characters before the first NUL. -/
def sqlLength (text : String) : Nat := (text.toList.takeWhile (· != '\x00')).length

/-- The INSERT of a fresh claim (`store.rs:202-212`), under `CHECK (length(burn_key) > 0)`. -/
def insertPending (l : Ledger) (key : BurnKey) (now : UInt64) : Except LedgerError (SubmissionRecord × Ledger) := do
  let seconds ← toSqlSeconds now
  ensure (0 < sqlLength key.text) LedgerError.store
  let record : SubmissionRecord := { burnKey := key, withdrawalId := none, status := .pending, timestamp := now }
  pure (record, l.put { burnKey := key.text, withdrawalId := none, status := .utf8 record.status.asToken,
                        timestamp := seconds })

/-- The UPDATE of a row (`store.rs:416-426`). -/
def updateRow (l : Ledger) (record : SubmissionRecord) (seconds : Int64) : Ledger :=
  match l.get? record.burnKey.text with
  | none => l
  | some row => l.put { row with withdrawalId := record.withdrawalId.map .utf8,
                                 status := .utf8 record.status.asToken, timestamp := seconds }

/-- `apply_transition` (`store.rs:392`): an ID is set when the step carries one and else left alone. -/
def applyTransition (l : Ledger) (current : SubmissionRecord) (target : SubmissionStatus)
    (withdrawalId : Option String) (now : UInt64) : Except LedgerError (SubmissionRecord × Ledger) := do
  ensure (current.status.canTransitionTo target = true) (.illegalStatusTransition current.status target)
  let updated := { current with withdrawalId := withdrawalId <|> current.withdrawalId, status := target,
                                timestamp := now }
  let seconds ← toSqlSeconds updated.timestamp
  pure (updated, updateRow l updated seconds)

/-! ## Transactions -/

/-- `SubmitLedger::write` (`store.rs:335`): what `f` returns commits, and any error leaves the ledger as it was. -/
def commit {ε α : Type} (l : Ledger) (refused : ε) (fails : Bool) (f : Ledger → Except ε (α × Ledger)) :
    Except ε α × Ledger :=
  if fails then (.error refused, l)
  else match f l with
    | .ok (a, l') => (.ok a, l')
    | .error e => (.error e, l)

/-- One key of a claim (`store.rs:182-215`). -/
def claimOne (now : UInt64) (l : Ledger) (key : BurnKey) : Except ClaimAborted (SubmissionRecord × Ledger) := do
  match ← (readRecord l key).mapError ClaimAborted.ledger with
  | some existing =>
    if existing.status.blocksResubmission then throw (.alreadySeen existing)
    else (applyTransition l existing .pending none now).mapError .ledger
  | none => (insertPending l key now).mapError .ledger

/-- The loop of `claim_burns` (`store.rs:181`). -/
def claimEach (now : UInt64) : List BurnKey → Ledger → Except ClaimAborted (List SubmissionRecord × Ledger)
  | [], l => pure ([], l)
  | key :: rest, l => do
    let (record, l) ← claimOne now l key
    let (records, l) ← claimEach now rest l
    pure (record :: records, l)

/-- The conversion after `claim_burns`' transaction (`store.rs:219-224`). -/
def claimAnswer : Except ClaimAborted (List SubmissionRecord) → Except LedgerError ClaimOutcome
  | .ok records => .ok (.claimed records)
  | .error (.alreadySeen record) => .ok (.alreadySeen record)
  | .error (.ledger e) => .error e

/-- `claim_burns` (`store.rs:176`). -/
def claimBurns (l : Ledger) (keys : List BurnKey) (now : UInt64) (fails : Bool) :
    Except LedgerError ClaimOutcome × Ledger :=
  let done := commit l (.ledger .store) fails (claimEach now keys)
  (claimAnswer done.1, done.2)

/-- `transition` (`store.rs:308`). -/
def transition (target : SubmissionStatus) (l : Ledger) (key : BurnKey) (withdrawalId : Option String) (now : UInt64)
    (fails : Bool) : Except LedgerError SubmissionRecord × Ledger :=
  commit l .store fails fun l => do
    let current ← readRecord l key
    let current ← orThrow current (.unknownBurn key.text)
    applyTransition l current target withdrawalId now

/-- `record_submission` (`store.rs:242`). -/
def recordSubmission := transition .submitted

/-- `record_finalized` (`store.rs:255`). -/
def recordFinalized := transition .finalized

/-- `record_reconciliation_required` (`store.rs:269`). -/
def recordReconciliationRequired := transition .reconciliationRequired

/-- `record_failure` (`store.rs:294`). -/
def recordFailure (l : Ledger) (key : BurnKey) := transition .failed l key none

/-- `SubmitLedger::record` (`store.rs:236`): a read. -/
def record (l : Ledger) (key : BurnKey) : Except LedgerError (Option SubmissionRecord) := readRecord l key

/-! ## Runs -/

inductive Op where
  | claimBurns (keys : List BurnKey)
  | recordSubmission (key : BurnKey) (withdrawalId : Option String)
  | recordFinalized (key : BurnKey) (withdrawalId : Option String)
  | recordReconciliationRequired (key : BurnKey) (withdrawalId : Option String)
  | recordFailure (key : BurnKey)

/-- The burns a call names. -/
def Op.keys : Op → List BurnKey
  | .claimBurns keys => keys
  | .recordSubmission key _ | .recordFinalized key _ | .recordReconciliationRequired key _ | .recordFailure key => [key]

inductive Answer where
  | claim (answer : Except LedgerError ClaimOutcome)
  | record (answer : Except LedgerError SubmissionRecord)

/-- One transaction of one task or process. -/
structure Transaction where
  op : Op
  now : UInt64
  fails : Bool

def Ledger.step (l : Ledger) (t : Transaction) : Answer × Ledger :=
  match t.op with
  | .claimBurns keys => let done := WithdrawalListener.claimBurns l keys t.now t.fails
    (.claim done.1, done.2)
  | .recordSubmission key id => let done := WithdrawalListener.recordSubmission l key id t.now t.fails
    (.record done.1, done.2)
  | .recordFinalized key id => let done := WithdrawalListener.recordFinalized l key id t.now t.fails
    (.record done.1, done.2)
  | .recordReconciliationRequired key id =>
    let done := WithdrawalListener.recordReconciliationRequired l key id t.now t.fails
    (.record done.1, done.2)
  | .recordFailure key => let done := WithdrawalListener.recordFailure l key t.now t.fails
    (.record done.1, done.2)

/-- A transaction that happened: what was asked and answered, and the ledger on both sides of it. -/
structure Happened where
  op : Op
  answer : Answer
  before : Ledger
  after : Ledger

def happening (l : Ledger) (t : Transaction) : Happened := ⟨t.op, (l.step t).1, l, (l.step t).2⟩

/-- The transactions of all tasks and processes in the order they were serialised. Any interleaving is one. -/
def history : Ledger → List Transaction → List Happened
  | _, [] => []
  | l, t :: ts => happening l t :: history (l.step t).2 ts

def afterAll (l : Ledger) (ts : List Transaction) : Ledger := ts.foldl (fun l t => (l.step t).2) l

end WithdrawalListener
