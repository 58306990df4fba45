import MidenUsdcx.Attester.Store
import MidenUsdcx.Lib.Sql
/-!
# The layouts of the store (`migrations/`, `store.rs:120-130`, `983-1016`, `1095-1200`)

The file as SQLite has it, before a row is read as a burn or a submission.

| here | there |
| --- | --- |
| `initial` .. `withdrawalLimitRetry`, `MIGRATIONS` | the four files of `migrations/`, statement by statement |
| `upgrade`, `openFile` | `upgrade`, `open_existing` (`store.rs:983-1008`) |
| `validateFile` | `validate_store` (`store.rs:1098`) |
| `Codec` | `decode_canonical` and `decode_header` at the types of the columns |

Left out: the lock, and the text of `quick_check`'s finding.
-/
namespace LightAttester
open Checked Sql

/-! ## The migrations -/

def u32 (name : String) : Expr := .between (.column name) (.literal (.integer 0)) (.literal (.integer 4294967295))

/-- `attester_state` (`0001_initial.sql:4`). -/
def attesterStateV1 : Layout where
  columns :=
    [(Column.key "singleton" .integer).checked (.eq (.column "singleton") (.literal (.integer 1))),
      .required "faucet_account_id" .blob,
      (Column.required "anchor_block" .integer).checked (u32 "anchor_block"),
      .required "anchor_commitment" .blob,
      (Column.required "scan_start" .integer).checked (u32 "scan_start"),
      (Column.required "next_block" .integer).checked (u32 "next_block"),
      .plain "authenticated_parent" .blob]
  checks := []

/-- `CHECK (consumption_block > creation_block AND consumption_block <= 4294967295)`. -/
def consumedLater : Expr :=
  .and (.gt (.column "consumption_block") (.column "creation_block"))
    (.le (.column "consumption_block") (.literal (.integer 4294967295)))

/-- The columns of `burns` that every version has. -/
def burnColumns : List Column :=
  [.key "note_id" .blob, { Column.required "nullifier" .blob with unique := true }, .required "note" .blob,
    (Column.required "creation_block" .integer).checked (u32 "creation_block"),
    (Column.plain "consumption_block" .integer).checked consumedLater]

def holdReasonColumn : Column :=
  (Column.plain "hold_reason" .integer).checked (.oneOf (.column "hold_reason") [.integer 1, .integer 2])

/-- `burns` (`0001_initial.sql:15`). -/
def burnsV1 : Layout where
  columns := burnColumns ++
    [.plain "burn_tx_id" .blob,
      (Column.required "status" .text).checked (.oneOf (.column "status") [.text "CANDIDATE", .text "DISCOVERED"]),
      holdReasonColumn]
  checks :=
    [.eq (.eq (.column "status") (.literal (.text "CANDIDATE"))) (.isNull (.column "consumption_block")),
      .eq (.isNull (.column "consumption_block")) (.isNull (.column "burn_tx_id"))]

/-- `submissions` (`0001_initial.sql:30`). -/
def submissionsLayout : Layout where
  columns :=
    [.key "note_id" .blob, .required "endpoint" .text, .required "body" .blob, .required "transfer_spec_hash" .blob,
      (Column.required "status" .text).checked (.oneOf (.column "status") [.text "SUBMITTING", .text "SUBMITTED",
        .text "FINALIZED", .text "EXPIRED", .text "FAILED", .text "HELD"]),
      .plain "withdrawal_id" .text,
      (Column.plain "hold_reason" .text).checked (.oneOf (.column "hold_reason") [.text "http_rejected"]),
      .plain "last_http_status" .integer, .plain "last_response" .blob, .plain "last_error" .text]
  checks := []

/-- `submission_events` (`0001_initial.sql:47`). -/
def eventsLayout : Layout where
  columns :=
    [.key "seq" .integer, { Column.required "note_id" .blob with references := some ("burns", "note_id") },
      .required "recorded_at" .integer, .required "kind" .text, .plain "status" .text, .plain "withdrawal_id" .text,
      .plain "body" .blob, .plain "transfer_spec_hash" .blob, .plain "http_status" .integer, .plain "response" .blob,
      .plain "error" .text, .plain "endpoint" .text, .plain "hold_reason" .text, .plain "burn_hold_reason" .integer,
      .plain "circle_status" .text]
  checks := []

/-- `0001_initial.sql`. -/
def initial : List Stmt :=
  [.createTable "attester_state" attesterStateV1, .createTable "burns" burnsV1,
    .createTable "submissions" submissionsLayout, .createTable "submission_events" eventsLayout,
    .createIndex "submission_events_by_note" "submission_events",
    .createTrigger "submission_events_keep_rows" "submission_events",
    .createTrigger "submission_events_keep_history" "submission_events"]

/-- `0002_scan_from_the_anchor.sql`. -/
def scanFromTheAnchor : List Stmt :=
  [.dropColumn "attester_state" "scan_start", .dropColumn "attester_state" "next_block",
    .renameColumn "attester_state" "authenticated_parent" "checkpoint"]

/-- The columns the rebuilt table keeps (`0003_drop_unused_burn_columns.sql:10`). -/
def keptColumns : List String :=
  ["note_id", "nullifier", "note", "creation_block", "consumption_block", "hold_reason"]

/-- `burns` from version 3 on (`0003_drop_unused_burn_columns.sql:16`). -/
def burnsV3 : Layout := ⟨burnColumns ++ [holdReasonColumn], []⟩

/-- `0003_drop_unused_burn_columns.sql`. -/
def dropUnusedBurnColumns : List Stmt :=
  [.deferForeignKeys, .createTableAs "burns_rows" "burns" keptColumns, .dropTable "burns", .createTable "burns" burnsV3,
    .insertSelect "burns" "burns_rows" keptColumns, .dropTable "burns_rows"]

def limitRetryColumn : Column :=
  (Column.plain "withdrawal_limit_retry_at" .integer).checked
    (.or (.isNull (.column "withdrawal_limit_retry_at"))
      (.le (.literal (.integer 0)) (.column "withdrawal_limit_retry_at")))

/-- `0004_withdrawal_limit_retry.sql`. -/
def withdrawalLimitRetry : List Stmt :=
  [.addColumn "burns" limitRetryColumn, .createIndex "burns_waiting_for_limit" "burns"]

/-- `MIGRATIONS` (`store.rs:120`). -/
def MIGRATIONS : List (List Stmt) := [initial, scanFromTheAnchor, dropUnusedBurnColumns, withdrawalLimitRetry]

/-! ## Upgrading -/

/-- `classify_error`. -/
def classifyError (_ : Sql.Error) : StoreError := .io

/-- `upgrade` (`store.rs:1003`), for an attester with these migrations: their number is its version. -/
def upgrade (migrations : List (List Stmt)) (version : Nat) (s : Session) : Except StoreError Session := do
  let s ← ((migrations.drop version).foldlM (fun s batch => execBatch batch s) s).mapError classifyError
  let s ← s.call.mapError classifyError
  pure { s with db.version := migrations.length }

/-- `open_existing`'s match on the version (`store.rs:991-1000`). -/
def bringCurrent (migrations : List (List Stmt)) (s : Session) : Except StoreError Session :=
  if s.db.version = migrations.length then pure s
  else if s.db.version = 0 then throw .cannotUpgrade
  else if migrations.length < s.db.version then
    throw (.message s!"attester store version {s.db.version} is newer than this attester's {migrations.length}")
  else upgrade migrations s.db.version s

/-- The transaction of `open_existing` (`store.rs:983`), for an attester with these migrations and this check. -/
def openSession (migrations : List (List Stmt)) (validate : Db → Except StoreError Unit) (s : Session) :
    Except StoreError Db := do
  let s ← s.call.mapError classifyError
  let s ← bringCurrent migrations s
  let s ← s.call.mapError classifyError
  validate s.db
  s.commit.mapError classifyError

/-- A transaction on a file: an error rolls it back. -/
def transaction (body : Session → Except StoreError Db) (db : Db) (faults : List Bool) : Except StoreError Unit × Db :=
  match body ⟨db, false, 0, faults⟩ with
  | .ok db' => (.ok (), db')
  | .error e => (.error e, db)

/-! ## Checking -/

/-- What the columns' bytes decode to. -/
structure Codec where
  accountId : Bytes → Option AccountId
  word : Bytes → Option B256
  noteId : Bytes → Option NoteId
  nullifier : Bytes → Option Nullifier
  note : Bytes → Option Note
  header : Bytes → Option BlockHeader

/-- `row.get::<_, Vec<u8>>`. -/
def blobOf : Value → Except StoreError Bytes
  | .blob bytes => .ok bytes
  | _ => .error .io

/-- `row.get::<_, i64>` and `decode_block_number` (`store.rs:1500`). -/
def blockOf : Value → Except StoreError BlockNumber
  | .integer n => do
    ensure (0 ≤ n ∧ n ≤ 4294967295) .invalid
    pure n.toNat
  | _ => .error .io

section
variable (C : Crates) (K : Codec)

/-- `decode_note` (`store.rs:1477`). -/
def decodeNote (r : Row) : Except StoreError Note := do
  let noteBytes ← blobOf (r "note")
  let idBytes ← blobOf (r "note_id")
  let nullifierBytes ← blobOf (r "nullifier")
  let note ← orThrow (K.note noteBytes) .invalid
  let noteId ← orThrow (K.noteId idBytes) .invalid
  let nullifier ← orThrow (K.nullifier nullifierBytes) .invalid
  ensure (note.id = noteId ∧ note.nullifier = nullifier) .invalid
  pure note

/-- A row of `load_candidates` or `load_burns` (`store.rs:1337-1413`). -/
def checkBurn (faucet : AccountId) (r : Row) : Except StoreError Unit := do
  let note ← decodeNote K r
  let creationBlock ← blockOf (r "creation_block")
  if r "consumption_block" = .null then
    let _ ← orThrow (BurnCandidate.new C note creationBlock faucet).toOption .invalid
  else
    let consumptionBlock ← blockOf (r "consumption_block")
    let _ ← orThrow (DiscoveredBurn.new C note creationBlock consumptionBlock faucet).toOption .invalid

/-- `load_checkpoint` (`store.rs:1299`), from the column that holds it. -/
def decodeCheckpoint (column : String) (r : Row) : Except StoreError (Option BlockHeader) :=
  match r column with
  | .null => .ok none
  | v => do
    let bytes ← blobOf v
    let header ← orThrow (K.header bytes) .invalid
    pure (some header)

def checkId (r : Row) : Except StoreError Unit :=
  match r "withdrawal_id" with
  | .null => .ok ()
  | .text id => ensure (isWellFormedId id = true) .invalid
  | _ => .error .io

/-- What `validate_store` asks of the rows (`store.rs:1119-1170`), with the checkpoint in this column. Candidates are
read before burns. -/
def checkRows (column : String) (db : Db) (faucet : AccountId) (anchor : TrustedAnchor) : Except StoreError Unit := do
  (db.rows "submissions").forM checkId
  let state ← sole (db.rows "attester_state") fun _ => .invalid
  let stored ← orThrow (K.accountId (← blobOf (state "faucet_account_id"))) .invalid
  ensure (stored = faucet) .invalid
  let block ← blockOf (state "anchor_block")
  let commitment ← orThrow (K.word (← blobOf (state "anchor_commitment"))) .invalid
  ensure ((⟨block, commitment⟩ : TrustedAnchor) = anchor) .anchorDiffers
  let checkpoint ← decodeCheckpoint K column state
  ((db.rows "burns").filter fun r => r "consumption_block" = .null).forM (checkBurn C K faucet)
  ((db.rows "burns").filter fun r => r "consumption_block" ≠ .null).forM (checkBurn C K faucet)
  ensure (checkpoint.all (fun h => decide (anchor.blockNum ≤ h.blockNum)) = true) .invalid

/-- Preparing a `SELECT` of these columns. -/
def probe (db : Db) (name : String) (columns : List String) : Except StoreError Unit := do
  let t ← orThrow (db.table? name) .io
  ensure (columns ⊆ t.layout.names) .io

/-- `validate_store_format` (`store.rs:1173`): `quick_check`, then that every column is there. -/
def checkFormat (db : Db) : Except StoreError Unit := do
  ensure (∀ entry ∈ db.tables, ∀ r ∈ entry.2.rows, entry.2.layout.rowOk r = true) .invalid
  probe db "attester_state" ["singleton", "faucet_account_id", "anchor_block", "anchor_commitment", "checkpoint"]
  probe db "burns" (keptColumns ++ ["withdrawal_limit_retry_at"])
  probe db "submissions" submissionsLayout.names
  probe db "submission_events" eventsLayout.names

/-- A waiting burn that no hold and no submission keeps from being tried (`store.rs:1105-1117`). -/
def waitFits (db : Db) (r : Row) : Bool :=
  r "withdrawal_limit_retry_at" == .null ||
    (r "consumption_block" != .null && r "hold_reason" == .null &&
      (db.rows "submissions").all fun row => row "note_id" != r "note_id" ||
        row "status" == .text "SUBMITTING" || row "status" == .text "EXPIRED")

/-- `validate_store` (`store.rs:1098`). -/
def validateFile (db : Db) (faucet : AccountId) (anchor : TrustedAnchor) : Except StoreError Unit := do
  checkFormat db
  ensure ((db.rows "burns").all (waitFits db) = true) .invalid
  checkRows C K "checkpoint" db faucet anchor

/-- `open_existing` (`store.rs:983`) on a file. -/
def openFile (faucet : AccountId) (anchor : TrustedAnchor) : Db → List Bool → Except StoreError Unit × Db :=
  transaction (openSession MIGRATIONS fun db => validateFile C K db faucet anchor)

end

end LightAttester
