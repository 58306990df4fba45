import Mathlib.Data.List.Nodup
import Mathlib.Data.List.Perm.Basic
import MidenUsdcx.Listener.Burn
/-!
# The evidence of a burn (`evidence.rs`)

| here | there |
| --- | --- |
| `BurnEvidenceReads` | the port of the three reads (`evidence.rs:65-92`) |
| `burnTransaction` | which faucet transaction consumed the note (`evidence.rs:240-293`) |
| `assembleEvidence` | `assemble_evidence` (`evidence.rs:188`) |

Each read is asked at most once in a run, so the port is three functions. `Evidenced` is what a package rests on.
Left out: the trust labels of `types.rs` and `full_block_upgrade`, which always refuses.
-/
namespace WithdrawalListener
open Checked

/-! ## The reads -/

/-- `NoteInclusionProof`: the block of its location; the rest is only compared. -/
structure NoteInclusionProof where
  blockNum : BlockNumber
  path : List UInt8
deriving DecidableEq

/-- `PublicNoteDetails` (`evidence.rs:108`). -/
structure PublicNoteDetails where
  nullifier : Nullifier
  inclusionProof : NoteInclusionProof
deriving DecidableEq

/-- `NoteRecord` (`evidence.rs:96`). -/
structure NoteRecord where
  noteId : NoteId
  details : Option PublicNoteDetails
deriving DecidableEq

/-- `TransactionRecord` (`evidence.rs:121`). -/
structure TransactionRecord where
  transactionId : TransactionId
  accountId : AccountId
  blockNum : BlockNumber
  inputNoteNullifiers : List Nullifier
  outputNoteProofs : List (NoteId × NoteInclusionProof)
deriving DecidableEq

/-- `NullifierRecord` (`evidence.rs:148`). -/
structure NullifierRecord where
  nullifier : Nullifier
  spentInBlock : Option BlockNumber
deriving DecidableEq

/-- `EvidenceReadError` (`evidence.rs:420`): the RPC that failed. -/
structure EvidenceReadError where
  rpc : String
deriving DecidableEq, Repr

/-- `BurnEvidenceReads` (`evidence.rs:65`). -/
structure BurnEvidenceReads where
  noteById : NoteId → Except EvidenceReadError NoteRecord
  faucetTransactions : AccountId → Except EvidenceReadError (List TransactionRecord)
  nullifierStatus : Nullifier → Except EvidenceReadError NullifierRecord

/-! ## The assembler -/

/-- `AmbiguityReason` (`evidence.rs:382`). -/
inductive AmbiguityReason where
  | noSpendObserved
  | noConsumingTransaction
  | ambiguousConsumingTransactions (count : Nat)
  | contradictoryTransactionRows (count : Nat)
  | spendBlockDisagreesWithLinkage (spendBlock linkageBlock : UInt32)
  | consumptionPrecedesCreation (createBlock spendBlock : UInt32)
deriving DecidableEq, Repr

/-- `EvidenceError` (`evidence.rs:345`). -/
inductive EvidenceError where
  | read (error : EvidenceReadError)
  | noteNotObservable (noteId : NoteId)
  | wrongNoteAnswered (asked answered : NoteId)
  | wrongNullifierAnswered (asked answered : Nullifier)
  | reconciliationRequired (noteId : NoteId) (reason : AmbiguityReason)
deriving DecidableEq

/-- `EvidencePackage` (`types.rs:130`). -/
structure EvidencePackage where
  burnTxId : String
  noteId : Bytes32
  nullifier : Bytes32
  blockNum : UInt32
deriving DecidableEq

/-- The different IDs of these rows, in their order (`evidence.rs:252-257`). -/
def claimedIds (rows : List TransactionRecord) (ids : List TransactionId) : List TransactionId :=
  rows.foldl (fun ids tx => if tx.transactionId ∈ ids then ids else ids ++ [tx.transactionId]) ids

/-- The filter of the rows that say the faucet consumed the note (`evidence.rs:240-242`). -/
def consuming (faucetId : AccountId) (nullifier : Nullifier) (tx : TransactionRecord) : Bool :=
  tx.accountId == faucetId && tx.inputNoteNullifiers.contains nullifier

/-- The faucet transaction that consumed the note (`evidence.rs:240-293`). -/
def burnTransaction (transactions : List TransactionRecord) (faucetId : AccountId) (nullifier : Nullifier) :
    Except AmbiguityReason TransactionRecord :=
  match claimedIds (transactions.filter (consuming faucetId nullifier)) [] with
  | [] => .error .noConsumingTransaction
  | [only] =>
    match transactions.filter fun tx => tx.transactionId == only with
    | [] => .error .noConsumingTransaction -- not reached: the ID is that of a row of this stream
    | burnTx :: rows => do
      ensure (∀ row ∈ rows, row = burnTx) (.contradictoryTransactionRows (burnTx :: rows).length)
      pure burnTx
  | many => .error (.ambiguousConsumingTransactions many.length)

/-- `assemble_evidence` (`evidence.rs:188`). -/
def assembleEvidence (C : Crates) (port : BurnEvidenceReads) (noteId : NoteId) (faucetId : AccountId) :
    Except EvidenceError EvidencePackage := do
  let record ← (port.noteById noteId).mapError .read
  ensure (record.noteId = noteId) (.wrongNoteAnswered noteId record.noteId)
  let details ← orThrow record.details (.noteNotObservable noteId)
  let createBlock := details.inclusionProof.blockNum
  let spend ← (port.nullifierStatus details.nullifier).mapError .read
  ensure (spend.nullifier = details.nullifier) (.wrongNullifierAnswered details.nullifier spend.nullifier)
  let spendBlock ← orThrow spend.spentInBlock (.reconciliationRequired noteId .noSpendObserved)
  ensure (createBlock < spendBlock)
    (.reconciliationRequired noteId (.consumptionPrecedesCreation createBlock spendBlock))
  let transactions ← (port.faucetTransactions faucetId).mapError .read
  let burnTx ← (burnTransaction transactions faucetId details.nullifier).mapError (.reconciliationRequired noteId)
  ensure (burnTx.blockNum = spendBlock)
    (.reconciliationRequired noteId (.spendBlockDisagreesWithLinkage spendBlock burnTx.blockNum))
  pure ⟨C.transactionIdToHex burnTx.transactionId, noteId.bytes, details.nullifier.bytes, createBlock⟩

/-! ## The IDs that claim a burn -/

/-- Some row of the faucet with this transaction ID consumed the nullifier. -/
def Claims (rows : List TransactionRecord) (faucetId : AccountId) (nullifier : Nullifier) (id : TransactionId) : Prop :=
  ∃ row ∈ rows, row.accountId = faucetId ∧ nullifier ∈ row.inputNoteNullifiers ∧ row.transactionId = id

/-- This ID alone claims the burn, and all rows of the stream that carry it are this row. -/
structure Linked (rows : List TransactionRecord) (faucetId : AccountId) (nullifier : Nullifier) (tx : TransactionRecord) :
    Prop where
  reported : tx ∈ rows
  only : ∀ id, Claims rows faucetId nullifier id ↔ id = tx.transactionId
  consistent : ∀ row ∈ rows, row.transactionId = tx.transactionId → row = tx

theorem mem_claimedIds {id : TransactionId} (rows : List TransactionRecord) (ids : List TransactionId) :
    id ∈ claimedIds rows ids ↔ id ∈ ids ∨ id ∈ rows.map (·.transactionId) := by
  induction rows generalizing ids with
  | nil => simp [claimedIds]
  | cons tx rows ih =>
    rw [show claimedIds (tx :: rows) ids =
      claimedIds rows (if tx.transactionId ∈ ids then ids else ids ++ [tx.transactionId]) from rfl, ih,
      List.map_cons, List.mem_cons]
    by_cases hseen : tx.transactionId ∈ ids
    · rw [if_pos hseen]
      constructor
      · exact Or.imp_right .inr
      · rintro (h | rfl | h)
        · exact .inl h
        · exact .inl hseen
        · exact .inr h
    · rw [if_neg hseen, List.mem_append, List.mem_singleton, or_assoc]

theorem consuming_iff {faucetId : AccountId} {nullifier : Nullifier} {tx : TransactionRecord} :
    consuming faucetId nullifier tx = true ↔ tx.accountId = faucetId ∧ nullifier ∈ tx.inputNoteNullifiers := by
  simp [consuming]

theorem mem_claimedIds_iff {rows : List TransactionRecord} {faucetId : AccountId} {nullifier : Nullifier}
    {id : TransactionId} :
    id ∈ claimedIds (rows.filter (consuming faucetId nullifier)) [] ↔ Claims rows faucetId nullifier id := by
  simp only [mem_claimedIds, List.not_mem_nil, false_or, List.mem_map, List.mem_filter, consuming_iff]
  constructor
  · rintro ⟨row, ⟨hrow, hfaucet, hconsumed⟩, hid⟩
    exact ⟨row, hrow, hfaucet, hconsumed, hid⟩
  · rintro ⟨row, hrow, hfaucet, hconsumed, hid⟩
    exact ⟨row, ⟨hrow, hfaucet, hconsumed⟩, hid⟩

theorem claimedIds_nodup (rows : List TransactionRecord) (ids : List TransactionId) (h : ids.Nodup) :
    (claimedIds rows ids).Nodup := by
  induction rows generalizing ids with
  | nil => exact h
  | cons tx rows ih =>
    refine ih (if tx.transactionId ∈ ids then ids else ids ++ [tx.transactionId]) ?_
    split
    · exact h
    · rename_i hnew
      exact h.append (List.nodup_singleton _) (List.disjoint_singleton.2 hnew)

/-! ## The linkage -/

section
variable {rows : List TransactionRecord} {faucetId : AccountId} {nullifier : Nullifier}

theorem mem_rowsOf {id : TransactionId} {found : List TransactionRecord}
    (h : rows.filter (fun tx => tx.transactionId == id) = found) (row : TransactionRecord) :
    row ∈ found ↔ row ∈ rows ∧ row.transactionId = id := by
  rw [← h, List.mem_filter, beq_iff_eq]

/-- The rows of one ID tell one story when all of them are the first. -/
theorem rowsOf_consistent {id : TransactionId} {burnTx : TransactionRecord} {others : List TransactionRecord}
    (h : rows.filter (fun tx => tx.transactionId == id) = burnTx :: others) :
    (∀ row ∈ others, row = burnTx) ↔ ∀ row ∈ rows, row.transactionId = id → row = burnTx := by
  constructor
  · intro hsame row hrow hid
    rcases List.mem_cons.1 ((mem_rowsOf h row).2 ⟨hrow, hid⟩) with rfl | hother
    · rfl
    · exact hsame row hother
  · intro hsame row hrow
    obtain ⟨hrow, hid⟩ := (mem_rowsOf h row).1 (List.mem_cons_of_mem _ hrow)
    exact hsame row hrow hid

theorem burnTransaction_eq_ok {tx : TransactionRecord} :
    burnTransaction rows faucetId nullifier = .ok tx ↔ Linked rows faucetId nullifier tx := by
  unfold burnTransaction
  constructor
  · intro h
    split at h
    · cases h
    · rename_i id hids
      have honly : ∀ other, Claims rows faucetId nullifier other ↔ other = id := by
        intro other
        rw [← mem_claimedIds_iff, hids, List.mem_singleton]
      split at h
      · cases h
      · rename_i burnTx others hrows
        rw [ensure_bind_ok, pure_ok, rowsOf_consistent hrows] at h
        obtain ⟨hsame, rfl⟩ := h
        obtain ⟨hreported, rfl⟩ := (mem_rowsOf hrows burnTx).1 List.mem_cons_self
        exact ⟨hreported, honly, hsame⟩
    · cases h
  · rintro ⟨hreported, honly, hsame⟩
    have hids : claimedIds (rows.filter (consuming faucetId nullifier)) [] = [tx.transactionId] := by
      refine List.perm_singleton.1 ((List.perm_ext_iff_of_nodup (claimedIds_nodup _ _ List.nodup_nil)
        (List.nodup_singleton _)).2 fun id => ?_)
      rw [mem_claimedIds_iff, honly, List.mem_singleton]
    simp only [hids]
    cases hrows : rows.filter (fun row => row.transactionId == tx.transactionId) with
    | nil => cases (mem_rowsOf hrows tx).2 ⟨hreported, rfl⟩
    | cons burnTx others =>
      obtain ⟨hfirst, hid⟩ := (mem_rowsOf hrows burnTx).1 List.mem_cons_self
      obtain rfl : burnTx = tx := hsame burnTx hfirst hid
      rw [ensure_bind_ok, rowsOf_consistent hrows]
      exact ⟨hsame, rfl⟩

end

/-! ## What a package rests on -/

/-- Among the reported rows, the faucet consumed the nullifier in this one and in no other, and the rows of its ID
agree. -/
structure ConsumedBy (transactions : List TransactionRecord) (faucetId : AccountId) (nullifier : Nullifier)
    (tx : TransactionRecord) : Prop where
  reported : tx ∈ transactions
  faucet : tx.accountId = faucetId
  consumed : nullifier ∈ tx.inputNoteNullifiers
  only : ∀ other ∈ transactions, other.accountId = faucetId → nullifier ∈ other.inputNoteNullifiers → other = tx
  consistent : ∀ other ∈ transactions, other.transactionId = tx.transactionId → other = tx

/-- The package names the one faucet transaction that consumed this public note, in the block where its nullifier is
reported spent. -/
structure Evidenced (C : Crates) (port : BurnEvidenceReads) (noteId : NoteId) (faucetId : AccountId)
    (package : EvidencePackage) : Prop where
  burned : ∃ details spent transactions tx,
    port.noteById noteId = .ok ⟨noteId, some details⟩ ∧
    port.nullifierStatus details.nullifier = .ok ⟨details.nullifier, some spent⟩ ∧
    port.faucetTransactions faucetId = .ok transactions ∧ ConsumedBy transactions faucetId details.nullifier tx ∧
    details.inclusionProof.blockNum < spent ∧ tx.blockNum = spent ∧
    package = ⟨C.transactionIdToHex tx.transactionId, noteId.bytes, details.nullifier.bytes,
      details.inclusionProof.blockNum⟩

theorem Linked.consumedBy {rows : List TransactionRecord} {faucetId : AccountId} {nullifier : Nullifier}
    {tx : TransactionRecord} (h : Linked rows faucetId nullifier tx) : ConsumedBy rows faucetId nullifier tx := by
  have hclaim : ∀ row ∈ rows, row.accountId = faucetId → nullifier ∈ row.inputNoteNullifiers → row = tx :=
    fun row hrow hfaucet hconsumed =>
      h.consistent row hrow ((h.only row.transactionId).1 ⟨row, hrow, hfaucet, hconsumed, rfl⟩)
  obtain ⟨row, hrow, hfaucet, hconsumed, -⟩ := (h.only tx.transactionId).2 rfl
  obtain rfl := hclaim row hrow hfaucet hconsumed
  exact ⟨h.reported, hfaucet, hconsumed, hclaim, h.consistent⟩

theorem burnTransaction_ok {transactions : List TransactionRecord} {faucetId : AccountId} {nullifier : Nullifier}
    {tx : TransactionRecord} (h : burnTransaction transactions faucetId nullifier = .ok tx) :
    ConsumedBy transactions faucetId nullifier tx := (burnTransaction_eq_ok.1 h).consumedBy

theorem assembleEvidence_ok {C : Crates} {port : BurnEvidenceReads} {noteId : NoteId} {faucetId : AccountId}
    {package : EvidencePackage} (h : assembleEvidence C port noteId faucetId = .ok package) :
    Evidenced C port noteId faucetId package := by
  simp only [assembleEvidence, bind_ok, mapError_ok, ensure_ok, orThrow_ok, pure_ok] at h
  obtain ⟨⟨answered, details?⟩, hrecord, -, hnote, details, hdetails, ⟨spentOf, spent?⟩, hspend, -, hspentOf, spent,
    hspent, -, hafter, transactions, htransactions, tx, htx, -, hblock, rfl⟩ := h
  cases hnote
  cases hdetails
  cases hspentOf
  cases hspent
  exact ⟨details, spent, transactions, tx, hrecord, hspend, htransactions, burnTransaction_ok htx, hafter, hblock, rfl⟩

end WithdrawalListener
