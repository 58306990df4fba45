import MidenUsdcx.Lib.Poll
import MidenUsdcx.Relayer.Circle
/-!
# Submitting a page of notes, and the wait for its transaction (`miden.rs:363-502`)

| here | there |
| --- | --- |
| `clientClass`, `retrySync`, `inclusion` | `client_class`, `retry_sync`, `inclusion` (`miden.rs:434-502`) |
| `Observation` | the answers of one turn: `sync_state`, `get_transactions`, `get_sync_height` |
| `turn`, `waitForInclusion` | the loop of `submit_notes` (`miden.rs:363-424`) |
| `Attempt.submit`, `submitNotes` | the whole of `submit_notes` (`miden.rs:336`) |

The client's transaction IDs and the causes of a discard are only ever displayed, so they are parameters. The loop runs
over the observations made so far and has no result while it waits.

`Ends` is what ends the wait, in terms of what was seen: no counter and no loop. `inclusion_wait_exact` says the wait ends
there and nowhere else.
-/
namespace DepositRelayer
namespace NodeClient
open Checked Poll
open LightAttester (FailureClass)

/-! ## What the client answers -/

abbrev BlockNumber := UInt32

/-- A `ClientError`, and whether it is an `RpcError`, which is all `client_class` asks. -/
structure NodeError where
  error : ClientError
  isRpc : Bool
  request_isRpc : error ≠ .other → isRpc = true

inductive TransactionStatus (Cause : Type) where
  | pending
  | committed (blockNumber : BlockNumber)
  | discarded (cause : Cause)

/-- A tracked transaction, without the parts the wait does not read. -/
structure TransactionRecord (Cause : Type) where
  status : TransactionStatus Cause
  expirationBlock : BlockNumber

/-- What one turn of the wait is answered, if it asks. -/
structure Observation (Cause : Type) where
  synced : Except NodeError Unit
  transactions : Except NodeError (List (TransactionRecord Cause))
  syncHeight : Except NodeError BlockNumber

variable {TransactionId Cause : Type} [ToString TransactionId]

/-! ## Failures -/

/-- `client_class` (`miden.rs:434`). -/
def clientClass (e : NodeError) (kind : String) : FailureClass :=
  if e.isRpc then .transient kind else .actionable kind

/-- `Failure::context`: the class and the client error below it stay. -/
def context (f : Failure) (text : String) : Failure := { f with error := { f.error with text := text } }

/-- A client error classified with `client_class`, under its context. -/
def syncFailure (e : NodeError) (text : String) : Failure :=
  ⟨clientClass e "node_sync", { text := text, client := some e.error }⟩

def storeFailure (text : String) (client : Option ClientError) : Failure :=
  ⟨.actionable "client_store", { text := text, client := client }⟩

/-! ## The wait -/

def failedSyncsBeforeGivingUp : Nat := 3

/-- `retry_sync` (`miden.rs:457`), the failed sync included in the count. -/
def retrySync (failure : Failure) (failedSyncs : Nat) : Bool :=
  match failure.failureClass with
  | .transient _ => decide (failedSyncs < failedSyncsBeforeGivingUp)
  | _ => false

inductive Inclusion where
  | included (block : BlockNumber)
  | waiting
deriving DecidableEq, Repr

/-- `inclusion` (`miden.rs:481`). -/
def inclusion [ToString Cause] (status : TransactionStatus Cause) (chainTip expirationBlock : BlockNumber) :
    Except Failure Inclusion :=
  match status with
  | .committed blockNumber => .ok (.included blockNumber)
  | .discarded cause => .error (.transient "transaction_discarded" s!"the node discarded it: {cause}")
  | .pending =>
    if expirationBlock ≤ chainTip then
      .error (.transient "transaction_expired"
        s!"it expired at block {expirationBlock.toNat} and the chain is at {chainTip.toNat}")
    else .ok .waiting

/-- The record asked for: the last of those answered (`miden.rs:392-402`). -/
def readRecord (transaction : TransactionId) (seen : Observation Cause) : Except Failure (TransactionRecord Cause) :=
  match seen.transactions with
  | .error e => .error (storeFailure "reading the mint transaction's status" (some e.error))
  | .ok records => match records.getLast? with
    | some record => .ok record
    | none => .error (storeFailure s!"the client stopped tracking the transaction {transaction}" none)

def readChainTip (seen : Observation Cause) : Except Failure BlockNumber :=
  match seen.syncHeight with
  | .error e => .error (storeFailure "reading how far the chain has been synced" (some e.error))
  | .ok chainTip => .ok chainTip

/-- A turn after its sync succeeded (`miden.rs:392-421`). -/
def readInclusion [ToString Cause] (transaction : TransactionId) (seen : Observation Cause) :
    Except Failure Inclusion := do
  let record ← readRecord transaction seen
  let chainTip ← readChainTip seen
  match inclusion record.status chainTip record.expirationBlock with
  | .ok answer => .ok answer
  | .error failure => .error (context failure s!"the mint transaction {transaction} never landed")

/-- One turn of the loop (`miden.rs:364-423`): another count of failed syncs, or what `submit_notes` returns. -/
def turn [ToString Cause] (transaction : TransactionId) (failedSyncs : Nat) (seen : Observation Cause) :
    Nat ⊕ Except Failure TransactionId :=
  match seen.synced with
  | .error e =>
    let failure := syncFailure e "syncing while waiting for the mint transaction"
    if retrySync failure (failedSyncs + 1) then .inl (failedSyncs + 1) else .inr (.error failure)
  | .ok () =>
    match readInclusion transaction seen with
    | .error failure => .inr (.error failure)
    | .ok (.included _) => .inr (.ok transaction)
    | .ok .waiting => .inl 0

/-- The wait over what was seen so far; no result while it goes on. -/
def waitForInclusion [ToString Cause] (transaction : TransactionId) (seen : List (Observation Cause)) :
    Option (Except Failure TransactionId) :=
  poll (turn transaction) 0 seen

/-! ## The whole call -/

/-- What `submit_notes` is answered before it waits. -/
structure Attempt (TransactionId : Type) where
  /-- `TransactionRequestBuilder::build`. -/
  request : Except String Unit
  synced : Except NodeError Unit
  /-- `submit_new_transaction`. -/
  submitted : Except NodeError TransactionId

/-- Up to the submission (`miden.rs:338-361`). -/
def Attempt.submit (attempt : Attempt TransactionId) : Except Failure TransactionId :=
  match attempt.request with
  | .error _ => .error ⟨.actionable "transaction_request", { text := "building the mint transaction" }⟩
  | .ok () => match attempt.synced with
    | .error e => .error (syncFailure e "syncing before the mint transaction")
    | .ok () => match attempt.submitted with
      | .error e => .error ⟨clientClass e "transaction_submit",
          { text := "submitting the mint transaction", client := some e.error }⟩
      | .ok transaction => .ok transaction

/-- `submit_notes` (`miden.rs:336`). -/
def submitNotes [ToString Cause] (attempt : Attempt TransactionId) (seen : List (Observation Cause)) :
    Option (Except Failure TransactionId) :=
  match attempt.submit with
  | .error failure => some (.error failure)
  | .ok transaction => waitForInclusion transaction seen

/-! ## What ends the wait -/

namespace Observation

/-- The sync failed. -/
def failed (seen : Observation Cause) : Bool := !seen.synced.isOk

/-- The sync succeeded, and the store reads `record` at `chainTip`. -/
structure Reads (seen : Observation Cause) (record : TransactionRecord Cause) (chainTip : BlockNumber) : Prop where
  synced : seen.synced = .ok ()
  record : ∃ older, seen.transactions = .ok (older ++ [record])
  chainTip : seen.syncHeight = .ok chainTip

/-- The sync succeeded, and the client's store does not read. -/
inductive Unreadable (transaction : TransactionId) (seen : Observation Cause) : Failure → Prop
  | status (e : NodeError) (hsync : seen.synced = .ok ()) (h : seen.transactions = .error e) :
      Unreadable transaction seen (storeFailure "reading the mint transaction's status" (some e.error))
  | untracked (hsync : seen.synced = .ok ()) (h : seen.transactions = .ok []) :
      Unreadable transaction seen (storeFailure s!"the client stopped tracking the transaction {transaction}" none)
  | chainTip (e : NodeError) (records : List (TransactionRecord Cause)) (hsync : seen.synced = .ok ())
      (hsome : records ≠ []) (h : seen.transactions = .ok records) (hheight : seen.syncHeight = .error e) :
      Unreadable transaction seen (storeFailure "reading how far the chain has been synced" (some e.error))

end Observation

/-- What was seen before, what is seen now, and what the wait then ends with. -/
inductive Ends (transaction : TransactionId) (before : List (Observation Cause)) (now : Observation Cause) :
    Except Failure TransactionId → Prop
  | committed (record : TransactionRecord Cause) (chainTip block : BlockNumber) (h : now.Reads record chainTip)
      (hstatus : record.status = .committed block) : Ends transaction before now (.ok transaction)
  /-- The failed sync is not one to try again. -/
  | syncRefused (e : NodeError) (h : now.synced = .error e) (hclass : e.isRpc = false) :
      Ends transaction before now (.error (syncFailure e "syncing while waiting for the mint transaction"))
  /-- The two syncs before it failed too. -/
  | thirdFailedSync (e : NodeError) (h : now.synced = .error e) (older : List (Observation Cause))
      (first second : Observation Cause) (hbefore : before = older ++ [first, second]) (hfirst : first.failed = true)
      (hsecond : second.failed = true) :
      Ends transaction before now (.error (syncFailure e "syncing while waiting for the mint transaction"))
  | unreadable (failure : Failure) (h : now.Unreadable transaction failure) : Ends transaction before now (.error failure)
  | discarded (record : TransactionRecord Cause) (chainTip : BlockNumber) (cause : Cause)
      (h : now.Reads record chainTip) (hstatus : record.status = .discarded cause) :
      Ends transaction before now (.error (.transient "transaction_discarded"
        s!"the mint transaction {transaction} never landed"))
  | expired (record : TransactionRecord Cause) (chainTip : BlockNumber) (h : now.Reads record chainTip)
      (hstatus : record.status = .pending) (htip : record.expirationBlock ≤ chainTip) :
      Ends transaction before now (.error (.transient "transaction_expired"
        s!"the mint transaction {transaction} never landed"))

/-- A turn that says nothing final: a node that did not answer, or a transaction with blocks left to land in. -/
def Undecided (now : Observation Cause) : Prop :=
  (∃ e, now.synced = .error e ∧ e.isRpc = true) ∨
    ∃ record chainTip, now.Reads record chainTip ∧ record.status = .pending ∧ chainTip < record.expirationBlock

/-! ## One turn -/

section
variable {transaction : TransactionId} {before : List (Observation Cause)} {now : Observation Cause}

theorem failed_of_error {e : NodeError} (h : now.synced = .error e) : now.failed = true := by
  simp only [Observation.failed, h]
  rfl

theorem not_failed_of_ok (h : now.synced = .ok ()) : now.failed = false := by
  simp only [Observation.failed, h]
  rfl

theorem retrySync_syncFailure (e : NodeError) (text : String) (failedSyncs : Nat) :
    retrySync (syncFailure e text) failedSyncs = (e.isRpc && decide (failedSyncs < 3)) := by
  unfold retrySync syncFailure clientClass failedSyncsBeforeGivingUp
  cases e.isRpc <;> rfl

/-- A turn whose sync fails is about the sync alone. -/
theorem ends_of_failed {e : NodeError} (h : now.synced = .error e) (r : Except Failure TransactionId) :
    Ends transaction before now r ↔
      (e.isRpc = false ∨ 2 ≤ trailing Observation.failed before) ∧
        r = .error (syncFailure e "syncing while waiting for the mint transaction") := by
  rw [two_le_trailing]
  constructor
  · intro hends
    cases hends with
    | committed _ _ _ hreads => rw [hreads.synced] at h; cases h
    | discarded _ _ _ hreads => rw [hreads.synced] at h; cases h
    | expired _ _ hreads => rw [hreads.synced] at h; cases h
    | unreadable _ hstore =>
      cases hstore with
      | status _ hsync | untracked hsync | chainTip _ _ hsync => rw [hsync] at h; cases h
    | syncRefused e' h' hclass =>
      obtain rfl : e' = e := Except.error.inj (h'.symm.trans h)
      exact ⟨.inl hclass, rfl⟩
    | thirdFailedSync e' h' older first second hbefore hfirst hsecond =>
      obtain rfl : e' = e := Except.error.inj (h'.symm.trans h)
      exact ⟨.inr ⟨older, first, second, hbefore, hfirst, hsecond⟩, rfl⟩
  · rintro ⟨hclass | ⟨older, first, second, hbefore, hfirst, hsecond⟩, rfl⟩
    · exact .syncRefused e h hclass
    · exact .thirdFailedSync e h older first second hbefore hfirst hsecond

/-- A turn whose sync succeeds is about what the store reads. -/
theorem readInclusion_spec [ToString Cause] (transaction : TransactionId) (hsync : now.synced = .ok ()) :
    (∃ failure, readInclusion transaction now = .error failure ∧ now.Unreadable transaction failure) ∨
      ∃ record chainTip, now.Reads record chainTip ∧
        readInclusion transaction now = match inclusion record.status chainTip record.expirationBlock with
          | .ok answer => .ok answer
          | .error failure => .error (context failure s!"the mint transaction {transaction} never landed") := by
  cases htransactions : now.transactions with
  | error e =>
    refine .inl ⟨_, ?_, .status e hsync htransactions⟩
    simp only [readInclusion, readRecord, htransactions]
    rfl
  | ok records =>
    rcases List.eq_nil_or_concat records with rfl | ⟨older, record, hrecords⟩
    · refine .inl ⟨_, ?_, .untracked hsync htransactions⟩
      simp only [readInclusion, readRecord, htransactions]
      rfl
    rw [List.concat_eq_append] at hrecords
    have hread : readRecord transaction now = .ok record := by
      simp only [readRecord, htransactions, hrecords, List.getLast?_append, List.getLast?_singleton, Option.some_or]
    cases hheight : now.syncHeight with
    | error e =>
      refine .inl ⟨_, ?_, .chainTip e records hsync (by simp [hrecords]) htransactions hheight⟩
      simp only [readInclusion, hread, readChainTip, hheight]
      rfl
    | ok chainTip =>
      refine .inr ⟨record, chainTip, ⟨hsync, ⟨older, by rw [htransactions, hrecords]⟩, hheight⟩, ?_⟩
      simp only [readInclusion, hread, readChainTip, hheight]
      rfl

theorem Observation.Reads.unique {record record' : TransactionRecord Cause} {chainTip chainTip' : BlockNumber}
    (h : now.Reads record chainTip) (h' : now.Reads record' chainTip') : record = record' ∧ chainTip = chainTip' := by
  obtain ⟨older, hrecord⟩ := h.record
  obtain ⟨older', hrecord'⟩ := h'.record
  have hrecords : older ++ [record] = older' ++ [record'] := Except.ok.inj (hrecord.symm.trans hrecord')
  exact ⟨List.singleton_inj.1 (List.append_inj' hrecords rfl).2, Except.ok.inj (h.chainTip.symm.trans h'.chainTip)⟩

theorem Observation.Unreadable.not_reads {failure : Failure} {record : TransactionRecord Cause} {chainTip : BlockNumber}
    (h : now.Unreadable transaction failure) : ¬ now.Reads record chainTip := by
  intro hreads
  obtain ⟨older, hrecord⟩ := hreads.record
  cases h with
  | status _ _ h => rw [h] at hrecord; cases hrecord
  | untracked _ h => rw [h] at hrecord; simp at hrecord
  | chainTip _ _ _ _ _ h => rw [hreads.chainTip] at h; cases h

theorem Observation.Unreadable.unique {failure failure' : Failure} (h : now.Unreadable transaction failure)
    (h' : now.Unreadable transaction failure') : failure = failure' := by
  cases h with
  | status _ _ h =>
    cases h' with
    | status _ _ h' => cases h.symm.trans h'; rfl
    | untracked _ h' => cases h.symm.trans h'
    | chainTip _ _ _ _ h' => cases h.symm.trans h'
  | untracked _ h =>
    cases h' with
    | status _ _ h' => cases h.symm.trans h'
    | untracked => rfl
    | chainTip _ _ _ hsome h' => exact absurd (Except.ok.inj (h'.symm.trans h)) hsome
  | chainTip _ _ _ hsome h hheight =>
    cases h' with
    | status _ _ h' => cases h.symm.trans h'
    | untracked _ h' => exact absurd (Except.ok.inj (h.symm.trans h')) hsome
    | chainTip _ _ _ _ _ hheight' => cases hheight.symm.trans hheight'; rfl

theorem ends_of_unreadable {failure : Failure} (h : now.Unreadable transaction failure)
    (hsync : now.synced = .ok ()) (r : Except Failure TransactionId) :
    Ends transaction before now r ↔ r = .error failure := by
  constructor
  · intro hends
    cases hends with
    | committed _ _ _ hreads => exact absurd hreads h.not_reads
    | discarded _ _ _ hreads => exact absurd hreads h.not_reads
    | expired _ _ hreads => exact absurd hreads h.not_reads
    | syncRefused _ hfailed => rw [hsync] at hfailed; cases hfailed
    | thirdFailedSync _ hfailed => rw [hsync] at hfailed; cases hfailed
    | unreadable _ h' => rw [h.unique h']
  · rintro rfl
    exact .unreadable failure h

/-- What the wait ends with when the store reads: what the status and the chain tip say, and nothing when they say to wait. -/
def verdictOf (transaction : TransactionId) (record : TransactionRecord Cause) (chainTip : BlockNumber) :
    Option (Except Failure TransactionId) :=
  match record.status with
  | .committed _ => some (.ok transaction)
  | .discarded _ => some (.error (.transient "transaction_discarded" s!"the mint transaction {transaction} never landed"))
  | .pending =>
    if record.expirationBlock ≤ chainTip then
      some (.error (.transient "transaction_expired" s!"the mint transaction {transaction} never landed"))
    else none

theorem ends_of_reads {record : TransactionRecord Cause} {chainTip : BlockNumber} (h : now.Reads record chainTip)
    (r : Except Failure TransactionId) :
    Ends transaction before now r ↔ verdictOf transaction record chainTip = some r := by
  constructor
  · intro hends
    cases hends with
    | committed _ _ _ h' hstatus =>
      obtain ⟨rfl, rfl⟩ := h.unique h'
      simp only [verdictOf, hstatus]
    | discarded _ _ _ h' hstatus =>
      obtain ⟨rfl, rfl⟩ := h.unique h'
      simp only [verdictOf, hstatus]
    | expired _ _ h' hstatus htip =>
      obtain ⟨rfl, rfl⟩ := h.unique h'
      simp only [verdictOf, hstatus, if_pos htip]
    | syncRefused _ hfailed => rw [h.synced] at hfailed; cases hfailed
    | thirdFailedSync _ hfailed => rw [h.synced] at hfailed; cases hfailed
    | unreadable _ hstore => exact absurd h hstore.not_reads
  · intro hverdict
    unfold verdictOf at hverdict
    split at hverdict
    · rename_i hstatus
      obtain rfl := Option.some.inj hverdict
      exact .committed record chainTip _ h hstatus
    · rename_i hstatus
      obtain rfl := Option.some.inj hverdict
      exact .discarded record chainTip _ h hstatus
    · rename_i hstatus
      split at hverdict
      · rename_i htip
        obtain rfl := Option.some.inj hverdict
        exact .expired record chainTip h hstatus htip
      · cases hverdict

/-- A turn that says nothing final ends no history in which fewer than two syncs in a row failed just before it. -/
theorem Undecided.not_ends (h : Undecided now) (hfew : now.failed = true → trailing Observation.failed before < 2)
    (r : Except Failure TransactionId) : ¬ Ends transaction before now r := by
  rcases h with ⟨e, hsync, hclass⟩ | ⟨record, chainTip, hreads, hstatus, htip⟩
  · rw [ends_of_failed hsync]
    rintro ⟨hrefused | hthird, -⟩
    · rw [hclass] at hrefused; cases hrefused
    · exact absurd (hfew (failed_of_error hsync)) (by omega)
  · rw [ends_of_reads hreads]
    simp only [verdictOf, hstatus, if_neg (UInt32.not_le.2 htip)]
    exact fun hnone => by cases hnone

/-! ## The loop -/

section
variable [ToString Cause]

theorem turn_of_failed {e : NodeError} (h : now.synced = .error e) (failedSyncs : Nat) :
    turn transaction failedSyncs now =
      if e.isRpc = true ∧ failedSyncs < 2 then .inl (failedSyncs + 1)
      else .inr (.error (syncFailure e "syncing while waiting for the mint transaction")) := by
  simp only [turn, h, retrySync_syncFailure, Bool.and_eq_true, decide_eq_true_eq]
  refine if_congr (and_congr_right fun _ => ?_) rfl rfl
  omega

theorem turn_of_unreadable {failure : Failure} (hsync : now.synced = .ok ()) (failedSyncs : Nat)
    (h : readInclusion transaction now = .error failure) : turn transaction failedSyncs now = .inr (.error failure) := by
  simp only [turn, hsync, h]

theorem turn_of_reads {record : TransactionRecord Cause} {chainTip : BlockNumber} (hreads : now.Reads record chainTip)
    (hread : readInclusion transaction now = match inclusion record.status chainTip record.expirationBlock with
      | .ok answer => .ok answer
      | .error failure => .error (context failure s!"the mint transaction {transaction} never landed"))
    (failedSyncs : Nat) :
    turn transaction failedSyncs now = match verdictOf transaction record chainTip with
      | some r => .inr r
      | none => .inl 0 := by
  simp only [turn, hreads.synced, hread, inclusion, verdictOf]
  cases record.status with
  | committed block => rfl
  | discarded cause => rfl
  | pending =>
    by_cases htip : record.expirationBlock ≤ chainTip
    · simp only [if_pos htip]; rfl
    · simp only [if_neg htip]

/-- The count is the number of failed syncs in a row, and a turn stops where the history ends. -/
theorem turn_follows (transaction : TransactionId) :
    Follows (turn transaction : Nat → Observation Cause → _) (trailing Observation.failed) (Ends transaction) := by
  refine Follows.of_cases fun before now => ?_
  cases hsync : now.synced with
  | error e =>
    rw [turn_of_failed hsync, trailing_concat, if_pos (failed_of_error hsync)]
    by_cases hagain : e.isRpc = true ∧ trailing Observation.failed before < 2
    · refine .inl ⟨if_pos hagain, fun r hends => ?_⟩
      obtain ⟨hclass | hthird, -⟩ := (ends_of_failed hsync r).1 hends
      · rw [hagain.1] at hclass; cases hclass
      · exact absurd hagain.2 (by omega)
    · refine .inr ⟨_, if_neg hagain, fun r => ?_⟩
      rw [ends_of_failed hsync, and_iff_right_iff_imp]
      intro _
      by_cases hclass : e.isRpc = true
      · exact .inr (Nat.le_of_not_lt fun hlt => hagain ⟨hclass, hlt⟩)
      · exact .inl (Bool.eq_false_iff.2 hclass)
  | ok _ =>
    rw [trailing_concat, not_failed_of_ok hsync, if_neg Bool.false_ne_true]
    rcases readInclusion_spec transaction hsync with ⟨failure, hread, hstore⟩ | ⟨record, chainTip, hreads, hread⟩
    · exact .inr ⟨_, turn_of_unreadable hsync _ hread, ends_of_unreadable hstore hsync⟩
    · rw [turn_of_reads hreads hread]
      cases hverdict : verdictOf transaction record chainTip with
      | none => exact .inl ⟨rfl, fun r hends => by cases ((ends_of_reads hreads r).1 hends).symm.trans hverdict⟩
      | some r =>
        refine .inr ⟨r, rfl, fun r' => ?_⟩
        rw [ends_of_reads hreads, hverdict, Option.some.injEq]
        exact eq_comm

end

/-! ## The whole wait -/

/-- The wait returns exactly what first ends it and goes on as long as nothing does; only a commit, after a sync that
succeeded, lets it return a transaction, and a node that never fails three syncs in a row cannot make it give up on a
transaction that may still land. -/
theorem inclusion_wait_exact [ToString Cause] (attempt : Attempt TransactionId) (transaction : TransactionId)
    (hsubmit : attempt.submit = .ok transaction) (seen : List (Observation Cause)) :
    (∀ r, submitNotes attempt seen = some r ↔ First (Ends transaction) seen r) ∧
      (submitNotes attempt seen = none ↔ Never (Ends transaction) seen) ∧
      (∀ returned, submitNotes attempt seen = some (.ok returned) → returned = transaction ∧
        ∃ now ∈ seen, ∃ record chainTip block, now.Reads record chainTip ∧ record.status = .committed block) ∧
      ((∀ now ∈ seen, Undecided now) →
        (∀ before a b c later, seen = before ++ a :: b :: c :: later →
          ¬ (a.failed = true ∧ b.failed = true ∧ c.failed = true)) →
        submitNotes attempt seen = none) := by
  have hcall : submitNotes attempt seen = waitForInclusion transaction seen := by simp only [submitNotes, hsubmit]
  have hfollows : Follows (turn transaction : Nat → Observation Cause → _) _ _ := turn_follows transaction
  have hsome := hfollows.poll_eq_some seen
  have hnone := hfollows.poll_eq_none seen
  rw [hcall]
  refine ⟨hsome, hnone, fun returned hreturned => ?_, fun hundecided hfew => hnone.2 fun before now later hsplit r => ?_⟩
  · obtain ⟨before, now, later, rfl, hends, -⟩ := (hsome _).1 hreturned
    cases hends with
    | committed record chainTip block hreads hstatus =>
      exact ⟨rfl, now, by simp, record, chainTip, block, hreads, hstatus⟩
  · refine (hundecided now (by simp [hsplit])).not_ends (fun hfailed => Nat.lt_of_not_le fun htwo => ?_) r
    obtain ⟨older, a, b, rfl, ha, hb⟩ := two_le_trailing.1 htwo
    exact hfew older a b now later (by simp [hsplit]) ⟨ha, hb, hfailed⟩

end

namespace Sample

def attempt : Attempt Nat where
  request := .ok ()
  synced := .ok ()
  submitted := .ok 7

def unanswered : Observation String where
  synced := .error ⟨.other, true, fun _ => rfl⟩
  transactions := .ok []
  syncHeight := .ok 0

def reading (status : TransactionStatus String) (chainTip : BlockNumber) : Observation String where
  synced := .ok ()
  transactions := .ok [⟨status, 100⟩]
  syncHeight := .ok chainTip

/-- Two syncs fail, one succeeds, two more fail, and the transaction is then found in a block past its expiration. -/
def seen : List (Observation String) :=
  [unanswered, unanswered, reading .pending 99, unanswered, unanswered, reading (.committed 100) 101]

end Sample

theorem inclusion_wait_exact_committed :
    submitNotes Sample.attempt Sample.seen = some (.ok 7) ∧ First (Ends 7) Sample.seen (.ok 7) :=
  ⟨rfl, ((inclusion_wait_exact Sample.attempt 7 rfl Sample.seen).1 (.ok 7)).1 rfl⟩

end NodeClient
end DepositRelayer
