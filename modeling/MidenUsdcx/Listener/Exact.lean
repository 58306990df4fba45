import MidenUsdcx.Listener.Evidence
/-!
# What the evidence depends on (`evidence.rs:188-313`)

| here | there |
| --- | --- |
| `withRows` | the port, with other rows in the faucet's stream |
| `Supports` | what an `Ok` package rests on |
| `SameRows` | the same rows, in another order or reported more often |
| `mapRowCount` | a refusal, up to the number of rows that a contradiction is reported with |

`assembleEvidence` reads the rows twice, first for the IDs and then for what is said under one ID. Both questions are
about which rows there are and not about where (`burnTransaction_congr`), so neither the order of the rows nor how often
one of them is repeated reaches the package. The one number a refusal takes from the list is how many rows contradict
each other, which a repeated row changes and another order does not.
-/
namespace WithdrawalListener
open Checked

/-! ## Refusals up to a count -/

/-- The same reason with `g` of the rows counted. -/
def AmbiguityReason.mapRowCount (g : Nat → Nat) : AmbiguityReason → AmbiguityReason
  | .contradictoryTransactionRows count => .contradictoryTransactionRows (g count)
  | reason => reason

def EvidenceError.mapRowCount (g : Nat → Nat) : EvidenceError → EvidenceError
  | .reconciliationRequired noteId reason => .reconciliationRequired noteId (reason.mapRowCount g)
  | error => error

theorem EvidenceError.mapRowCount_id (e : EvidenceError) : e.mapRowCount id = e := by
  cases e with
  | reconciliationRequired noteId reason => cases reason <;> rfl
  | read | noteNotObservable | wrongNoteAnswered | wrongNullifierAnswered => rfl

theorem mapError_rowCount_id (x : Except EvidenceError EvidencePackage) : x.mapError (EvidenceError.mapRowCount id) = x := by
  cases x with
  | ok package => rfl
  | error e => exact congrArg Except.error e.mapRowCount_id

/-- The error with no count of rows: its kind, and everything it says that is not about the list. -/
def EvidenceError.kind (e : EvidenceError) : EvidenceError := e.mapRowCount fun _ => 0

/-- Both are `Ok` with the same package, or both are the same kind of refusal. -/
def Agree (a b : Except EvidenceError EvidencePackage) : Prop := a.mapError EvidenceError.kind = b.mapError EvidenceError.kind

/-! ## Rows in another order, or more often -/

/-- The same rows: a permutation of them, or the same ones reported more or less often. -/
def SameRows (rows rows' : List TransactionRecord) : Prop := ∀ row, row ∈ rows ↔ row ∈ rows'

/-- How many rows carry the ID. -/
def rowCount (rows : List TransactionRecord) (id : TransactionId) : Nat :=
  (rows.filter fun tx => tx.transactionId == id).length

section
variable {rows rows' : List TransactionRecord}

theorem SameRows.of_perm (h : rows.Perm rows') : SameRows rows rows' := fun _ => h.mem_iff

theorem SameRows.claims (h : SameRows rows rows') {faucetId : AccountId} {nullifier : Nullifier} {id : TransactionId} :
    Claims rows faucetId nullifier id ↔ Claims rows' faucetId nullifier id :=
  exists_congr fun row => and_congr_left fun _ => h row

/-- The same rows claim the burn under the same IDs, as many of them. -/
theorem SameRows.ids_perm (h : SameRows rows rows') (faucetId : AccountId) (nullifier : Nullifier) :
    (claimedIds (rows.filter (consuming faucetId nullifier)) []).Perm
      (claimedIds (rows'.filter (consuming faucetId nullifier)) []) := by
  refine (List.perm_ext_iff_of_nodup (claimedIds_nodup _ _ List.nodup_nil) (claimedIds_nodup _ _ List.nodup_nil)).2
    fun id => ?_
  rw [mem_claimedIds_iff, mem_claimedIds_iff, h.claims]

theorem rowCount_perm (h : rows.Perm rows') (id : TransactionId) : rowCount rows id = rowCount rows' id :=
  (h.filter _).length_eq

/-- One ID tells one story in both lists or in neither, and the story is the same. -/
theorem SameRows.story (h : SameRows rows rows') (id : TransactionId) {first first' : TransactionRecord}
    {others others' : List TransactionRecord} (hrows : rows.filter (fun tx => tx.transactionId == id) = first :: others)
    (hrows' : rows'.filter (fun tx => tx.transactionId == id) = first' :: others') :
    ((∀ row ∈ others, row = first) ↔ ∀ row ∈ others', row = first') ∧ ((∀ row ∈ others, row = first) → first = first') := by
  obtain ⟨hfirst, hid⟩ := (mem_rowsOf hrows first).1 List.mem_cons_self
  obtain ⟨hfirst', hid'⟩ := (mem_rowsOf hrows' first').1 List.mem_cons_self
  rw [rowsOf_consistent hrows, rowsOf_consistent hrows']
  refine ⟨⟨fun hsame row hrow hown => ?_, fun hsame row hrow hown => ?_⟩, fun hsame => ?_⟩
  · rw [hsame row ((h row).2 hrow) hown, hsame first' ((h first').2 hfirst') hid']
  · rw [hsame row ((h row).1 hrow) hown, hsame first ((h first).1 hfirst) hid]
  · exact (hsame first' ((h first').2 hfirst') hid').symm

theorem burnTransaction_of_one {faucetId : AccountId} {nullifier : Nullifier} {id : TransactionId}
    {first : TransactionRecord} {others : List TransactionRecord}
    (hids : claimedIds (rows.filter (consuming faucetId nullifier)) [] = [id])
    (hrows : rows.filter (fun tx => tx.transactionId == id) = first :: others) :
    burnTransaction rows faucetId nullifier = if ∀ row ∈ others, row = first then .ok first
      else .error (.contradictoryTransactionRows (rowCount rows id)) := by
  simp only [burnTransaction, hids, hrows, rowCount, ensure]
  split <;> rfl

theorem burnTransaction_of_many {faucetId : AccountId} {nullifier : Nullifier} {first second : TransactionId}
    {more : List TransactionId}
    (hids : claimedIds (rows.filter (consuming faucetId nullifier)) [] = first :: second :: more) :
    burnTransaction rows faucetId nullifier = .error (.ambiguousConsumingTransactions (more.length + 2)) := by
  simp only [burnTransaction, hids, List.length_cons]

/-- The linkage depends on which rows there are, and on the count of rows only where `g` tells counts apart. -/
theorem burnTransaction_congr (h : SameRows rows rows') (g : Nat → Nat)
    (hcount : ∀ id, g (rowCount rows id) = g (rowCount rows' id)) (faucetId : AccountId) (nullifier : Nullifier) :
    (burnTransaction rows faucetId nullifier).mapError (AmbiguityReason.mapRowCount g) =
      (burnTransaction rows' faucetId nullifier).mapError (AmbiguityReason.mapRowCount g) := by
  have hids := h.ids_perm faucetId nullifier
  cases hown : claimedIds (rows.filter (consuming faucetId nullifier)) [] with
  | nil =>
    rw [hown, List.nil_perm] at hids
    simp only [burnTransaction, hown, hids]
  | cons id more =>
    rw [hown] at hids
    cases more with
    | nil =>
      have hown' := List.singleton_perm.1 hids
      -- The ID is that of a row, in either list.
      obtain ⟨row, hrow, -, -, hid⟩ := mem_claimedIds_iff.1 (by rw [hown]; exact List.mem_cons_self)
      cases hrows : rows.filter (fun tx => tx.transactionId == id) with
      | nil => cases (mem_rowsOf hrows row).2 ⟨hrow, hid⟩
      | cons first others =>
        cases hrows' : rows'.filter (fun tx => tx.transactionId == id) with
        | nil => cases (mem_rowsOf hrows' row).2 ⟨(h row).1 hrow, hid⟩
        | cons first' others' =>
          rw [burnTransaction_of_one hown hrows, burnTransaction_of_one hown'.symm hrows']
          obtain ⟨hagree, hsame⟩ := h.story id hrows hrows'
          by_cases hone : ∀ row ∈ others, row = first
          · rw [if_pos hone, if_pos (hagree.1 hone), hsame hone]
          · rw [if_neg hone, if_neg fun hone' => hone (hagree.2 hone')]
            exact congrArg (fun count => Except.error (AmbiguityReason.contradictoryTransactionRows count)) (hcount id)
    | cons second more =>
      have hlength := hids.length_eq
      cases hown' : claimedIds (rows'.filter (consuming faucetId nullifier)) [] with
      | nil => rw [hown'] at hlength; cases hlength
      | cons first' rest =>
        cases rest with
        | nil => rw [hown'] at hlength; simp at hlength
        | cons second' rest =>
          rw [hown'] at hlength
          rw [burnTransaction_of_many hown, burnTransaction_of_many hown']
          simp only [List.length_cons] at hlength
          rw [hlength]

/-! ## The package -/

theorem agreeing_bind {α : Type} (g : EvidenceError → EvidenceError) (x : Except EvidenceError α)
    {f f' : α → Except EvidenceError EvidencePackage} (h : ∀ a, (f a).mapError g = (f' a).mapError g) :
    (x >>= f).mapError g = (x >>= f').mapError g := by
  cases x with
  | error e => rfl
  | ok a => exact h a

/-- The port, with these rows in the stream of the faucet. -/
def BurnEvidenceReads.withRows (port : BurnEvidenceReads) (faucetId : AccountId) (rows : List TransactionRecord) :
    BurnEvidenceReads :=
  { port with faucetTransactions := fun account => if account = faucetId then .ok rows else port.faucetTransactions account }

theorem assembleEvidence_congr (h : SameRows rows rows') (g : Nat → Nat)
    (hcount : ∀ id, g (rowCount rows id) = g (rowCount rows' id)) (C : Crates) (port : BurnEvidenceReads)
    (noteId : NoteId) (faucetId : AccountId) :
    (assembleEvidence C (port.withRows faucetId rows) noteId faucetId).mapError (EvidenceError.mapRowCount g) =
      (assembleEvidence C (port.withRows faucetId rows') noteId faucetId).mapError (EvidenceError.mapRowCount g) := by
  -- The reads before the stream are the same, answer by answer.
  refine agreeing_bind _ _ fun record => agreeing_bind _ _ fun _ => agreeing_bind _ _ fun details =>
    agreeing_bind _ _ fun spend => agreeing_bind _ _ fun _ => agreeing_bind _ _ fun spendBlock =>
    agreeing_bind _ _ fun _ => ?_
  have hlinkage := burnTransaction_congr h g hcount faucetId details.nullifier
  simp only [BurnEvidenceReads.withRows, if_true]
  show (((burnTransaction rows faucetId details.nullifier).mapError _) >>= _).mapError _ =
    (((burnTransaction rows' faucetId details.nullifier).mapError _) >>= _).mapError _
  cases hrows : burnTransaction rows faucetId details.nullifier with
  | ok tx =>
    cases hrows' : burnTransaction rows' faucetId details.nullifier with
    | ok tx' =>
      rw [hrows, hrows'] at hlinkage
      obtain rfl := Except.ok.inj hlinkage
      rfl
    | error reason => rw [hrows, hrows'] at hlinkage; cases hlinkage
  | error reason =>
    cases hrows' : burnTransaction rows' faucetId details.nullifier with
    | ok tx => rw [hrows, hrows'] at hlinkage; cases hlinkage
    | error reason' =>
      rw [hrows, hrows'] at hlinkage
      have hreason : reason.mapRowCount g = reason'.mapRowCount g := Except.error.inj hlinkage
      exact congrArg (fun reason => Except.error (EvidenceError.reconciliationRequired noteId reason)) hreason

/-- What each of the three reads must say for this package, the stream that one transaction of the faucet tells one story
about having consumed the note in the block of the spend. -/
def Supports (C : Crates) (port : BurnEvidenceReads) (noteId : NoteId) (faucetId : AccountId) (package : EvidencePackage) :
    Prop :=
  ∃ record details spend spendBlock rows id,
    port.noteById noteId = .ok record ∧ record.noteId = noteId ∧ record.details = some details ∧
    port.nullifierStatus details.nullifier = .ok spend ∧ spend.nullifier = details.nullifier ∧
    spend.spentInBlock = some spendBlock ∧ details.inclusionProof.blockNum < spendBlock ∧
    port.faucetTransactions faucetId = .ok rows ∧
    (∀ other, Claims rows faucetId details.nullifier other ↔ other = id) ∧
    (∀ row ∈ rows, ∀ other ∈ rows, row.transactionId = id → other.transactionId = id → row = other) ∧
    (∀ row ∈ rows, row.transactionId = id → row.blockNum = spendBlock) ∧
    package = ⟨C.transactionIdToHex id, noteId.bytes, details.nullifier.bytes, details.inclusionProof.blockNum⟩

theorem assembleEvidence_eq_ok {C : Crates} {port : BurnEvidenceReads} {noteId : NoteId} {faucetId : AccountId}
    {package : EvidencePackage} :
    assembleEvidence C port noteId faucetId = .ok package ↔ Supports C port noteId faucetId package := by
  simp only [Supports, assembleEvidence, bind_ok, mapError_ok, ensure_ok, orThrow_ok, pure_ok, burnTransaction_eq_ok]
  constructor
  · rintro ⟨record, hrecord, -, hnote, details, hdetails, spend, hspend, -, hspendOf, spendBlock, hspent, -, hafter, rows,
      hrows, tx, hlinked, -, hblock, rfl⟩
    refine ⟨record, details, spend, spendBlock, rows, tx.transactionId, hrecord, hnote, hdetails, hspend, hspendOf, hspent,
      hafter, hrows, hlinked.only, fun row hrow other hother hid hid' => ?_, fun row hrow hid => ?_, rfl⟩
    · rw [hlinked.consistent row hrow hid, hlinked.consistent other hother hid']
    · rw [hlinked.consistent row hrow hid, hblock]
  · rintro ⟨record, details, spend, spendBlock, rows, id, hrecord, hnote, hdetails, hspend, hspendOf, hspent, hafter,
      hrows, honly, hsame, hblock, rfl⟩
    obtain ⟨tx, htx, -, -, rfl⟩ := (honly id).2 rfl
    exact ⟨record, hrecord, (), hnote, details, hdetails, spend, hspend, (), hspendOf, spendBlock, hspent, (), hafter, rows,
      hrows, tx, ⟨htx, honly, fun row hrow hid => hsame row hrow tx htx hid rfl⟩, (), hblock tx htx rfl, rfl⟩

/-- The package is exact, and it is a function of which rows the faucet's stream has: another order changes nothing at
all, repeating rows nothing but the number of rows that a contradiction is reported with. -/
theorem evidence_exact_and_orderless (C : Crates) (port : BurnEvidenceReads) (noteId : NoteId) (faucetId : AccountId) :
    (∀ package, assembleEvidence C port noteId faucetId = .ok package ↔ Supports C port noteId faucetId package) ∧
      (∀ rows rows', rows.Perm rows' → assembleEvidence C (port.withRows faucetId rows) noteId faucetId =
        assembleEvidence C (port.withRows faucetId rows') noteId faucetId) ∧
      (∀ rows rows', SameRows rows rows' → Agree (assembleEvidence C (port.withRows faucetId rows) noteId faucetId)
        (assembleEvidence C (port.withRows faucetId rows') noteId faucetId)) := by
  refine ⟨fun package => assembleEvidence_eq_ok, fun rows rows' hperm => ?_, fun rows rows' h => ?_⟩
  · have hsame := assembleEvidence_congr (SameRows.of_perm hperm) id (fun id => rowCount_perm hperm id) C port noteId faucetId
    rwa [mapError_rowCount_id, mapError_rowCount_id] at hsame
  · exact assembleEvidence_congr h (fun _ => 0) (fun _ => rfl) C port noteId faucetId

end
end WithdrawalListener
