import Mathlib.Data.List.Induction
import MidenUsdcx.Attester.Discovery
import MidenUsdcx.Attester.Reopen
/-!
# A note published again (`attester.rs:823-869`, `store.rs:1417-1435`)

`find_burns_in_block` skips a note the store has, and collects the others of the block in a list that
`save_scan_progress` inserts under the keys of `burns`. So a copy of a recorded note is skipped, and a copy in the
block that publishes the note first is inserted twice, and refuses the block.

| here | there |
| --- | --- |
| `scanBlock` | `save_block` (`attester.rs:503`) when SQLite answers (`saveBlock_runs`) |
| `discoverAll` | the anchor saved by `start`, then the loop of `discover_burns`, up to the first block that is refused |
| `Admissible` | when a block is saved, said of the chain alone (`scanBlock_iff`) |
-/
namespace LightAttester
open Checked Interact Keyed Store

variable {C : Crates} {s s' : Store} {n : NoteId} {faucet : AccountId} {anchor anchor' : TrustedAnchor}

/-! ## Discovery over a chain -/

def scanBlock (C : Crates) (faucet : AccountId) (s : Store) (block : SignedBlock) : Except StoreError Store := do
  let (candidates, burns) ← findBurnsInBlock C faucet s block
  s.saveScanProgress candidates burns block.header

/-- How many blocks are saved, and the store they leave. -/
def discoverAll (C : Crates) (faucet : AccountId) (s : Store) : List SignedBlock → Nat × Store
  | [] => (0, s)
  | block :: rest => match scanBlock C faucet s block with
    | .ok s' => ((discoverAll C faucet s' rest).1 + 1, (discoverAll C faucet s' rest).2)
    | .error _ => (0, s)

theorem scanBlock_ok {block : SignedBlock} (h : scanBlock C faucet s block = .ok s') :
    ∃ cs ds, findBurnsInBlock C faucet s block = .ok (cs, ds) ∧ s.saveScanProgress cs ds block.header = .ok s' := by
  rw [scanBlock, bind_ok] at h
  obtain ⟨⟨cs, ds⟩, hfind, hsave⟩ := h
  exact ⟨cs, ds, hfind, hsave⟩

/-- In every environment `saveBlock` commits what `scanBlock` computes, or fails with its error or SQLite's and leaves
the store as it was. -/
theorem saveBlock_scans (config : Config) (block : SignedBlock) (w : World) :
    Interact.Ensures (handler C) (fun _ => True) (saveBlock C config block) (fun r w' =>
      (scanBlock C config.faucetAccountId w.store block = .ok w'.store ∧ r = .ok ()) ∨
      (w'.store = w.store ∧ ∃ e, r = .error (.store e) ∧
        (e = .io ∨ scanBlock C config.faucetAccountId w.store block = .error e))) w := by
  refine Interact.ensures_seq (Interact.ensures_seq (Interact.ensures_call trivial fun e1 => ⟨trivial, ?_⟩))
  change Interact.Ensures _ _ (attempt _ (if e1.storeFails then .error StoreError.io else .ok w.store) >>= _) _ w
  cases e1.storeFails with
  | true => exact Interact.ensures_throw trivial (.inr ⟨rfl, .io, rfl, .inl rfl⟩)
  | false =>
    refine Interact.ensures_seq (Interact.ensures_pure trivial ?_)
    change Interact.Ensures _ _ (attempt _ (findBurnsInBlock C config.faucetAccountId w.store block)) _ w
    simp only [scanBlock]
    cases findBurnsInBlock C config.faucetAccountId w.store block with
    | error e => exact Interact.ensures_throw trivial (.inr ⟨rfl, e, rfl, .inr rfl⟩)
    | ok found =>
      refine Interact.ensures_pure trivial (Interact.ensures_seq (Interact.ensures_call trivial fun e2 => ⟨trivial, ?_⟩))
      change Interact.Ensures _ _ (attempt _ (w.transact C (.scan found.1 found.2 block.header) e2.storeFails).1) _
        (w.transact C (.scan found.1 found.2 block.header) e2.storeFails).2
      cases e2.storeFails with
      | true => exact Interact.ensures_throw trivial (.inr ⟨rfl, .io, rfl, .inl rfl⟩)
      | false =>
        cases hsave : w.store.saveScanProgress found.1 found.2 block.header with
        | error e =>
          rw [World.transact, if_neg (by decide), show (Write.scan _ _ _).apply C w.store = .error e from hsave]
          exact Interact.ensures_throw trivial (.inr ⟨rfl, e, rfl, .inr hsave⟩)
        | ok s =>
          rw [World.transact, if_neg (by decide), show (Write.scan _ _ _).apply C w.store = .ok s from hsave]
          exact Interact.ensures_pure trivial (.inl ⟨hsave, rfl⟩)

/-! ## When a block is saved -/

/-- The nullifier of a note that waits to be consumed. -/
def Waiting (rows : NoteId → Option Facts) (nullifier : Nullifier) : Prop :=
  ∃ n note created, rows n = some (note, created, none) ∧ note.nullifier = nullifier

/-- The burns of a block that the earlier blocks do not have. -/
def unrecorded (C : Crates) (faucet : AccountId) (rows : NoteId → Option Facts) (block : SignedBlock) :
    List BurnCandidate :=
  (published C faucet block).filter fun c => (rows c.noteId).isNone

/-- The keys of `burns` admit the block after these rows: its new notes have IDs and nullifiers of their own, and no
waiting note is consumed twice. -/
structure Admissible (C : Crates) (faucet : AccountId) (rows : NoteId → Option Facts) (block : SignedBlock) :
    Prop where
  distinct : (unrecorded C faucet rows block).Pairwise fun c d => c.noteId ≠ d.noteId ∧ c.nullifier ≠ d.nullifier
  fresh : ∀ c ∈ unrecorded C faucet rows block, ∀ m row, rows m = some row → row.1.nullifier ≠ c.nullifier
  once : (faucetInputs faucet block).Pairwise fun a b => a = b → ¬ Waiting rows a

/-- Inserting notes succeeds if they are new under both keys, and among each other. -/
theorem insertCandidates_iff {cs : List BurnCandidate} : (∃ s', cs.foldlM insertCandidate s = .ok s') ↔
    (∀ c ∈ cs, s.burn c.noteId = none ∧ ∀ m b, s.burn m = some b → b.nullifier ≠ c.nullifier) ∧
      cs.Pairwise fun c d => c.noteId ≠ d.noteId ∧ c.nullifier ≠ d.nullifier := by
  induction cs generalizing s with
  | nil => simp [pure, Except.pure]
  | cons c cs ih =>
    have hid : (candidateRow c).noteId = c.noteId := rfl
    constructor
    · rintro ⟨s', h⟩
      rw [List.foldlM_cons, bind_ok] at h
      obtain ⟨s1, h1, h2⟩ := h
      obtain ⟨hnone, hnull, hs1⟩ := insertCandidate_ok h1
      obtain rfl : s1 = s.putBurn (candidateRow c) := hs1
      obtain ⟨hnew, hpair⟩ := ih.1 ⟨s', h2⟩
      have hown : s.burn c.noteId = none ∧ ∀ m b, s.burn m = some b → b.nullifier ≠ c.nullifier :=
        ⟨hnone, fun m b hb => hnull b (Table.mem_of_get? hb)⟩
      have hne : ∀ d ∈ cs, c.noteId ≠ d.noteId := by
        intro d hd heq
        have := (hnew d hd).1
        rw [putBurn_burn_self (hid.trans heq)] at this
        cases this
      refine ⟨fun d hd => ?_, List.pairwise_cons.2 ⟨fun d hd => ⟨hne d hd, ?_⟩, hpair⟩⟩
      · rcases List.mem_cons.1 hd with rfl | hd
        · exact hown
        · obtain ⟨hd1, hd2⟩ := hnew d hd
          rw [Write.putBurn_ne hid (Ne.symm (hne d hd))] at hd1
          refine ⟨hd1, fun m b hb => hd2 m b ?_⟩
          have hm : m ≠ c.noteId := by
            rintro rfl
            rw [hnone] at hb
            cases hb
          rwa [Write.putBurn_ne hid hm]
      · exact (hnew d hd).2 c.noteId _ (putBurn_burn_self hid)
    · rintro ⟨hnew, hpair⟩
      obtain ⟨hhead, hpair⟩ := List.pairwise_cons.1 hpair
      obtain ⟨hnone, hnull⟩ := hnew c List.mem_cons_self
      have hrest : ∀ d ∈ cs, (s.putBurn (candidateRow c)).burn d.noteId = none ∧
          ∀ m b, (s.putBurn (candidateRow c)).burn m = some b → b.nullifier ≠ d.nullifier := by
        intro d hd
        obtain ⟨hd1, hd2⟩ := hnew d (List.mem_cons_of_mem _ hd)
        refine ⟨by rw [Write.putBurn_ne hid (Ne.symm (hhead d hd).1), hd1], fun m b hb => ?_⟩
        rw [putBurn_burn] at hb
        split at hb
        · cases hb
          exact (hhead d hd).2
        · exact hd2 m b hb
      obtain ⟨s', hs'⟩ := ih.2 ⟨hrest, hpair⟩
      refine ⟨s', ?_⟩
      rw [List.foldlM_cons, bind_ok]
      exact ⟨_, ensure_bind_ok.2 ⟨⟨hnone, fun b hb => hnull b.noteId b (Table.get?_of_mem hb)⟩, rfl⟩, hs'⟩

/-- A consumed burn is not consumed again. -/
theorem insertBurns_other {ds : List DiscoveredBurn} {b : BurnRow} (h : ds.foldlM insertBurn s = .ok s')
    (hb : s.burn n = some b) (hc : b.consumptionBlock.isSome = true) : ∀ e ∈ ds, e.noteId ≠ n := by
  induction ds generalizing s with
  | nil => simp
  | cons d ds ih =>
    rw [List.foldlM_cons, bind_ok] at h
    obtain ⟨s1, h1, h2⟩ := h
    have hne : d.noteId ≠ n := by
      rintro rfl
      rcases insertBurn_ok h1 with ⟨-, hnone, -⟩ | ⟨b', hb', hnone, -⟩
      · rw [hnone] at hb
        cases hb
      · obtain rfl : b = b' := Option.some.inj (hb.symm.trans hb')
        rw [hnone] at hc
        cases hc
    have hkeep : s1.burn n = some b := by
      rcases insertBurn_ok h1 with ⟨-, -, -, rfl⟩ | ⟨b', hb', -, -, rfl⟩
      · exact (Write.putBurn_ne (n := d.noteId) rfl (Ne.symm hne)).trans hb
      · have hid : ({ b' with consumptionBlock := some d.consumptionBlock } : BurnRow).noteId = d.noteId :=
          burn_noteId (s := s) (b := b') hb'
        exact (Write.putBurn_ne hid (Ne.symm hne)).trans hb
    intro e he
    rcases List.mem_cons.1 he with rfl | he
    · exact hne
    · exact ih h2 hkeep e he

/-- Promoting recorded candidates succeeds if each is promoted once. -/
theorem insertBurns_iff {ds : List DiscoveredBurn} (hds : ∀ d ∈ ds, ∃ b, s.burn d.noteId = some b ∧
      b.consumptionBlock = none ∧ b.creationBlock < d.consumptionBlock) :
    (∃ s', ds.foldlM insertBurn s = .ok s') ↔ (ds.map DiscoveredBurn.noteId).Nodup := by
  induction ds generalizing s with
  | nil => simp [pure, Except.pure]
  | cons d ds ih =>
    obtain ⟨b, hb, hnone, hlt⟩ := hds d List.mem_cons_self
    have hid : ({ b with consumptionBlock := some d.consumptionBlock } : BurnRow).noteId = d.noteId :=
      burn_noteId (s := s) (b := b) hb
    have hinsert : s.insertBurn d = .ok (s.putBurn { b with consumptionBlock := some d.consumptionBlock }) := by
      have hfilter : (s.burn d.noteId).filter (fun b => b.consumptionBlock.isNone) = some b :=
        Option.filter_eq_some_iff.2 ⟨hb, by rw [hnone]; rfl⟩
      unfold insertBurn
      rw [hfilter]
      exact ensure_bind_ok.2 ⟨hlt, rfl⟩
    rw [List.map_cons, List.nodup_cons]
    constructor
    · rintro ⟨s', h⟩
      rw [List.foldlM_cons, hinsert] at h
      -- A burn promoted a second time clashes with its own row.
      have hnot : ∀ e ∈ ds, e.noteId ≠ d.noteId := insertBurns_other h (putBurn_burn_self hid) rfl
      refine ⟨fun hmem => ?_, ?_⟩
      · obtain ⟨e, he, heq⟩ := List.mem_map.1 hmem
        exact hnot e he heq
      · refine (ih fun e he => ?_).1 ⟨s', h⟩
        obtain ⟨b', hb', hrest⟩ := hds e (List.mem_cons_of_mem _ he)
        exact ⟨b', by rwa [Write.putBurn_ne hid (hnot e he)], hrest⟩
    · rintro ⟨hnot, hnodup⟩
      have hrest : ∀ e ∈ ds, ∃ b', (s.putBurn { b with consumptionBlock := some d.consumptionBlock }).burn e.noteId =
          some b' ∧ b'.consumptionBlock = none ∧ b'.creationBlock < e.consumptionBlock := by
        intro e he
        obtain ⟨b', hb', hrest⟩ := hds e (List.mem_cons_of_mem _ he)
        refine ⟨b', ?_, hrest⟩
        rwa [Write.putBurn_ne hid]
        exact fun heq => hnot (heq ▸ List.mem_map_of_mem he)
      obtain ⟨s', hs'⟩ := (ih hrest).2 hnodup
      exact ⟨s', by rw [List.foldlM_cons, hinsert]; exact hs'⟩

/-- The nullifiers that find no candidate are of no waiting note. -/
theorem candidate_waiting (hinv : StoreInv C s) {rows : NoteId → Option Facts} {nf : Nullifier}
    {found : Option BurnCandidate} (hrows : ∀ n, (s.burn n).map BurnRow.facts = rows n)
    (h : s.candidateByNullifier C faucet nf = .ok found) : found.isSome = true ↔ Waiting rows nf := by
  constructor
  · intro hsome
    obtain ⟨c, rfl⟩ := Option.isSome_iff_exists.1 hsome
    obtain ⟨b, hb, hnone, hnull, -⟩ := candidateByNullifier_ok h
    refine ⟨c.noteId, b.note, b.creationBlock, ?_, hnull⟩
    rw [← hrows, hb, Option.map_some, BurnRow.facts, hnone]
  · rintro ⟨n, note, created, hrow, hnull⟩
    rw [← hrows] at hrow
    obtain ⟨b, hb, he⟩ := Option.map_eq_some_iff.1 hrow
    simp only [BurnRow.facts, Prod.mk.injEq] at he
    have hnf : b.nullifier = nf := by rw [BurnRow.nullifier, he.1, hnull]
    cases found with
    | some c => rfl
    | none =>
      have hone : consumedBy C faucet s 0 [nf] = .ok [] := by
        rw [consumedBy, h]
        rfl
      have hmem := (mem_consumedBy_iff (n := n) hinv hone).2 ⟨b, hb, he.2.2, hnf ▸ List.mem_singleton_self _⟩
      cases hmem

/-- No burn is found twice if no waiting note's nullifier stands twice among the inputs. -/
theorem consumedBy_nodup (hinv : StoreInv C s) {rows : NoteId → Option Facts} {block : BlockNumber}
    {nfs : List Nullifier} {ds : List DiscoveredBurn} (hrows : ∀ n, (s.burn n).map BurnRow.facts = rows n)
    (h : consumedBy C faucet s block nfs = .ok ds) :
    (ds.map DiscoveredBurn.noteId).Nodup ↔ nfs.Pairwise fun a b => a = b → ¬ Waiting rows a := by
  induction nfs generalizing ds with
  | nil =>
    cases h
    simp
  | cons nf nfs ih =>
    obtain ⟨found, rest, hfound, hrest, rfl⟩ := consumedBy_cons_ok.1 h
    have hwait := candidate_waiting hinv hrows hfound
    rw [List.pairwise_cons, ← ih hrest]
    cases found with
    | none =>
      have hno : ¬ Waiting rows nf := fun hw => by cases hwait.2 hw
      exact ⟨fun h => ⟨fun _ _ _ => hno, h⟩, fun h => h.2⟩
    | some c =>
      obtain ⟨b, hb, hnone, hnull, -⟩ := candidateByNullifier_ok hfound
      have hmem : c.noteId ∈ rest.map DiscoveredBurn.noteId ↔ nf ∈ nfs := by
        rw [mem_consumedBy_iff hinv hrest]
        constructor
        · rintro ⟨b', hb', -, hnf⟩
          obtain rfl : b = b' := Option.some.inj (hb.symm.trans hb')
          exact hnull ▸ hnf
        · exact fun hnf => ⟨b, hb, hnone, hnull.symm ▸ hnf⟩
      rw [Option.elim_some, List.map_cons, List.nodup_cons, show (c.intoDiscovered block).noteId = c.noteId from rfl,
        hmem]
      refine and_congr_left fun _ => ⟨fun hnot x hx heq => absurd (heq ▸ hx) hnot, fun hall hin => ?_⟩
      exact hall nf hin rfl (hwait.1 rfl)

/-- `attester_state` after these blocks. -/
def stateAfter (faucet : AccountId) (anchor : TrustedAnchor) (blocks : List SignedBlock) : AttesterState :=
  { faucetAccountId := faucet, anchor := anchor, checkpoint := blocks.getLast?.map fun b => b.header }

/-- The store after these blocks of the chain, and nothing but discovery. -/
structure AtBlocks (C : Crates) (faucet : AccountId) (anchor : TrustedAnchor) (s : Store) (blocks : List SignedBlock) :
    Prop where
  inv : StoreInv C s
  state : s.state = some (stateAfter faucet anchor blocks)
  rows : ∀ n, (s.burn n).map BurnRow.facts = chainRow C faucet n blocks
  idle : ∀ n b, s.burn n = some b → b.holdReason = none ∧ b.limitRetryAt = none

theorem findBurnsInBlock_total (hinv : StoreInv C s) {st : AttesterState} (hst : s.state = some st)
    (block : SignedBlock) : ∃ ds, findBurnsInBlock C st.faucetAccountId s block =
      .ok (newCandidates C st.faucetAccountId s block, ds) := by
  have hone : ∀ nfs, ∃ ds, consumedBy C st.faucetAccountId s block.header.blockNum nfs = .ok ds := by
    intro nfs
    induction nfs with
    | nil => exact ⟨[], rfl⟩
    | cons nf nfs ih =>
      obtain ⟨cs, hcs⟩ := hinv.loadCandidates hst fun b => b.nullifier == nf
      obtain ⟨ds, hds⟩ := ih
      exact ⟨_, bind_ok.2 ⟨cs.getLast?, bind_ok.2 ⟨cs, hcs, rfl⟩, bind_ok.2 ⟨ds, hds, rfl⟩⟩⟩
  obtain ⟨ds, hds⟩ := hone (faucetInputs st.faucetAccountId block)
  exact ⟨ds, bind_ok.2 ⟨ds, hds, rfl⟩⟩

theorem chainRow_created {blocks : List SignedBlock} {note : Note} {created : BlockNumber} {c : Option BlockNumber}
    (h : chainRow C faucet n blocks = some (note, created, c)) : ∃ b ∈ blocks, b.header.blockNum = created := by
  induction blocks with
  | nil => cases h
  | cons b blocks ih =>
    unfold chainRow at h
    split at h
    · simp only [Option.some.injEq, Prod.mk.injEq] at h
      exact ⟨b, List.mem_cons_self, h.2.1⟩
    · obtain ⟨b', hb', he⟩ := ih h
      exact ⟨b', List.mem_cons_of_mem _ hb', he⟩

section
variable {rows : NoteId → Option Facts} {block : SignedBlock}

theorem newCandidates_unrecorded (hrows : ∀ n, (s.burn n).map BurnRow.facts = rows n) :
    newCandidates C faucet s block = unrecorded C faucet rows block := by
  rw [newCandidates_eq, unrecorded]
  congr 1
  funext c
  rw [← hrows, noteKnown]
  cases s.burn c.noteId <;> rfl

/-- What the table asks of the new notes, said of its rows. -/
theorem unrecorded_fresh_iff (hrows : ∀ n, (s.burn n).map BurnRow.facts = rows n) :
    (∀ c ∈ unrecorded C faucet rows block, s.burn c.noteId = none ∧
      ∀ m b, s.burn m = some b → b.nullifier ≠ c.nullifier) ↔
      ∀ c ∈ unrecorded C faucet rows block, ∀ m row, rows m = some row → row.1.nullifier ≠ c.nullifier := by
  constructor
  · intro hall c hc m row hrow
    rw [← hrows] at hrow
    obtain ⟨b, hb, rfl⟩ := Option.map_eq_some_iff.1 hrow
    exact (hall c hc).2 m b hb
  · intro hall c hc
    constructor
    · have hnone := (List.mem_filter.1 hc).2
      rw [← hrows] at hnone
      simpa using hnone
    · intro m b hb
      refine hall c hc m b.facts ?_
      rw [← hrows, hb]
      rfl

/-- A burn found by its nullifier is a candidate from below the block. -/
theorem consumedBy_open {nfs : List Nullifier} {ds : List DiscoveredBurn} {d : DiscoveredBurn} {number : BlockNumber}
    (hlow : ∀ n b, s.burn n = some b → b.creationBlock < number) (hds : consumedBy C faucet s number nfs = .ok ds)
    (hd : d ∈ ds) : d.consumptionBlock = number ∧
      ∃ b, s.burn d.noteId = some b ∧ b.consumptionBlock = none ∧ b.creationBlock = d.creationBlock ∧
        b.creationBlock < d.consumptionBlock := by
  obtain ⟨nf, c, -, hc, rfl⟩ := mem_consumedBy hds hd
  obtain ⟨b, hb, hnone, -, -, hblock, -⟩ := candidateByNullifier_ok hc
  exact ⟨rfl, b, hb, hnone, hblock, hlow _ b hb⟩

/-- **When a block is saved**: the keys of the table admit it. -/
theorem scanBlock_iff {st : AttesterState} (hinv : StoreInv C s) (hst : s.state = some st)
    (hrows : ∀ n, (s.burn n).map BurnRow.facts = rows n)
    (hlow : ∀ n b, s.burn n = some b → b.creationBlock < block.header.blockNum) :
    (∃ s', scanBlock C st.faucetAccountId s block = .ok s') ↔ Admissible C st.faucetAccountId rows block := by
  obtain ⟨ds, hfind⟩ := findBurnsInBlock_total hinv hst block
  have hds := (findBurnsInBlock_ok hfind).2
  have hnew : newCandidates C st.faucetAccountId s block = unrecorded C st.faucetAccountId rows block :=
    newCandidates_unrecorded hrows
  -- The new notes do not touch the rows the burns are found under.
  have hopen : ∀ s1, (newCandidates C st.faucetAccountId s block).foldlM insertCandidate s = .ok s1 → ∀ d ∈ ds,
      ∃ b, s1.burn d.noteId = some b ∧ b.consumptionBlock = none ∧ b.creationBlock < d.consumptionBlock := by
    intro s1 h1 d hd
    obtain ⟨-, b, hb, hnone, -, hlt⟩ := consumedBy_open hlow hds hd
    exact ⟨b, by rw [burn_insertCandidates h1, hb]; rfl, hnone, hlt⟩
  have honce := consumedBy_nodup hinv hrows hds
  constructor
  · rintro ⟨s', h⟩
    obtain ⟨cs, ds', hfind', hsave⟩ := scanBlock_ok h
    obtain ⟨rfl, rfl⟩ := Prod.mk.inj (Except.ok.inj (hfind'.symm.trans hfind))
    obtain ⟨-, s1, s2, st', h1, h2, -, -⟩ := saveScanProgress_ok hsave
    have hcs := insertCandidates_iff.1 ⟨s1, h1⟩
    rw [hnew] at hcs
    exact ⟨hcs.2, (unrecorded_fresh_iff hrows).1 hcs.1, honce.1 ((insertBurns_iff (hopen s1 h1)).1 ⟨s2, h2⟩)⟩
  · rintro ⟨hdistinct, hnull, hinputs⟩
    obtain ⟨s1, h1⟩ := insertCandidates_iff.2 ⟨(unrecorded_fresh_iff hrows).2 hnull, hdistinct⟩
    rw [← hnew] at h1
    obtain ⟨s2, h2⟩ := (insertBurns_iff (hopen s1 h1)).2 (honce.2 hinputs)
    have hok : discoveryOk (newCandidates C st.faucetAccountId s block) ds block.header.blockNum = true := by
      rw [discoveryOk, Bool.and_eq_true, List.all_eq_true, List.all_eq_true]
      refine ⟨fun c hc => decide_eq_true (mem_newCandidates hc).2.le, fun d hd => ?_⟩
      obtain ⟨hnumber, b, -, -, hblock, hlt⟩ := consumedBy_open hlow hds hd
      exact decide_eq_true ⟨hblock ▸ hlt, hnumber.le⟩
    have hstate := (scan_state h1 h2).trans hst
    refine ⟨{ s2 with state := some { st with checkpoint := some block.header } }, bind_ok.2 ⟨_, hfind, ?_⟩⟩
    exact ensure_bind_ok.2 ⟨hok, bind_ok.2 ⟨s1, h1, bind_ok.2 ⟨s2, h2, orThrow_bind_ok.2 ⟨st, hstate, rfl⟩⟩⟩⟩

end

/-! ## The blocks of a chain, one after the other -/

theorem Chain.last {blocks : List SignedBlock} {tip : SignedBlock} (h : Chain C anchor blocks tip) :
    blocks.getLast? = some tip := by
  cases h <;> simp

/-- The last block is the pinned one, or the next one after a chain. -/
theorem Chain.snoc {pre : List SignedBlock} {tip block : SignedBlock} (h : Chain C anchor (pre ++ [block]) tip) :
    tip = block ∧ (pre = [] ∧ Pinned C anchor block ∨ ∃ parent, Chain C anchor pre parent ∧ Follows C parent block) := by
  generalize hblocks : pre ++ [block] = blocks at h
  cases h with
  | pinned hp =>
    obtain ⟨rfl, rfl⟩ := List.append_singleton_inj.1 (show pre ++ [block] = [] ++ [tip] from hblocks)
    exact ⟨rfl, .inl ⟨rfl, hp⟩⟩
  | next hc hf =>
    obtain ⟨rfl, rfl⟩ := List.append_singleton_inj.1 hblocks
    exact ⟨rfl, .inr ⟨_, hc, hf⟩⟩

theorem Chain.upTo {pre rest : List SignedBlock} {tip block : SignedBlock}
    (h : Chain C anchor (pre ++ block :: rest) tip) : Chain C anchor (pre ++ [block]) block := by
  induction rest using List.reverseRecOn generalizing tip with
  | nil => exact h.snoc.1 ▸ h
  | append_singleton rest last ih =>
    rw [← List.cons_append, ← List.append_assoc] at h
    rcases h.snoc.2 with ⟨hnil, -⟩ | ⟨parent, hc, -⟩
    · simp at hnil
    · exact ih hc

theorem Chain.le {blocks : List SignedBlock} {tip : SignedBlock} (h : Chain C anchor blocks tip) :
    ∀ b ∈ blocks, b.header.blockNum ≤ tip.header.blockNum := by
  induction h with
  | pinned hp => simp
  | next hc hf ih =>
    intro b hb
    rcases List.mem_append.1 hb with hb | hb
    · exact (ih b hb).trans (hf.1 ▸ Nat.le_succ _)
    · rw [List.mem_singleton.1 hb]

/-- What a chain says is about its own blocks, so a store after them can take the next one. -/
theorem AtBlocks.low {blocks : List SignedBlock} {block tip : SignedBlock} (h : AtBlocks C faucet anchor s blocks)
    (hchain : Chain C anchor (blocks ++ [block]) tip) (n : NoteId) (b : BurnRow) (hb : s.burn n = some b) :
    b.creationBlock < block.header.blockNum := by
  have hrow := h.rows n
  rw [hb] at hrow
  obtain ⟨b', hb', he⟩ := chainRow_created hrow.symm
  rcases hchain.snoc.2 with ⟨rfl, -⟩ | ⟨parent, hc, hf⟩
  · cases hb'
  · have hle := hc.le b' hb'
    rw [← he, hf.1]
    exact Nat.lt_succ_of_le hle

theorem AtBlocks.created (C : Crates) (faucet : AccountId) (anchor : TrustedAnchor) :
    AtBlocks C faucet anchor (.created faucet anchor) [] where
  inv := StoreInv.commit (L := []) (w := .create faucet anchor) .blank rfl rfl
  state := rfl
  rows _ := rfl
  idle n b hb := by cases hb

/-- The scan of the next block. -/
theorem AtBlocks.scan {blocks : List SignedBlock} {block tip : SignedBlock} (h : AtBlocks C faucet anchor s blocks)
    (hchain : Chain C anchor (blocks ++ [block]) tip) (hscan : scanBlock C faucet s block = .ok s') :
    AtBlocks C faucet anchor s' (blocks ++ [block]) := by
  obtain ⟨cs, ds, hfind, hsave⟩ := scanBlock_ok hscan
  have hauth : Authenticated C (stateAfter faucet anchor blocks) block := by
    rcases hchain.snoc.2 with ⟨rfl, hp⟩ | ⟨parent, hc, hf⟩
    · exact hp
    · rw [Authenticated, stateAfter, hc.last]
      exact hf
  constructor
  · exact h.inv.commit (L := []) (w := .scan cs ds block.header) hsave ⟨block, _, rfl, h.state, hauth, hfind⟩
  · rw [saveScanProgress_state hsave h.state]
    simp [stateAfter]
  · intro n
    rw [scan_follows h.inv hfind hsave, h.rows, chainRow_snoc]
  · obtain ⟨-, s1, s2, st, h1, h2, -, rfl⟩ := saveScanProgress_ok hsave
    show ∀ n b, s2.burn n = some b → b.holdReason = none ∧ b.limitRetryAt = none
    refine scan_induct (P := fun z => ∀ n b, z.burn n = some b → b.holdReason = none ∧ b.limitRetryAt = none) ?_ ?_
      h.idle h1 h2
    · intro a c z _ ha hz n b hb
      obtain ⟨-, -, rfl⟩ := insertCandidate_ok hz
      rw [putBurn_burn] at hb
      split at hb
      · cases hb
        exact ⟨rfl, rfl⟩
      · exact ha n b hb
    · intro a d z _ ha hz n b hb
      rcases insertBurn_ok hz with ⟨-, -, -, rfl⟩ | ⟨b0, hb0, -, -, rfl⟩
      · rw [putBurn_burn] at hb
        split at hb
        · cases hb
          exact ⟨rfl, rfl⟩
        · exact ha n b hb
      · rw [putBurn_burn] at hb
        split at hb
        · cases hb
          exact ha _ b0 hb0
        · exact ha n b hb

/-- The table is what the chain says. -/
theorem AtBlocks.burns {t t' : Store} {bs bs' : List SignedBlock} (h : AtBlocks C faucet anchor t bs)
    (h' : AtBlocks C faucet anchor' t' bs') (hrows : ∀ n, chainRow C faucet n bs' = chainRow C faucet n bs) :
    t'.burns = t.burns := by
  refine Table.ext_get? fun n => ?_
  have hn := (h'.rows n).trans ((hrows n).trans (h.rows n).symm)
  change (t'.burn n) = (t.burn n)
  cases hb : t.burn n with
  | none => simpa [hb] using hn
  | some b =>
    rw [hb] at hn
    obtain ⟨b', hb', he⟩ := Option.map_eq_some_iff.1 hn
    obtain ⟨h1, h2⟩ := h.idle n b hb
    obtain ⟨h1', h2'⟩ := h'.idle n b' hb'
    rw [hb']
    cases b
    cases b'
    simp_all [BurnRow.facts]

/-! ## How far discovery comes -/

/-- The block at this place of the chain is admitted after the ones before it. -/
def Saved (C : Crates) (faucet : AccountId) (blocks : List SignedBlock) (i : Nat) : Prop :=
  ∃ block, blocks[i]? = some block ∧ Admissible C faucet (fun n => chainRow C faucet n (blocks.take i)) block

theorem AtBlocks.saved_iff {pre rest : List SignedBlock} {block tip : SignedBlock}
    (h : AtBlocks C faucet anchor s pre) (hchain : Chain C anchor (pre ++ block :: rest) tip) :
    (∃ s', scanBlock C faucet s block = .ok s') ↔ Saved C faucet (pre ++ block :: rest) pre.length := by
  have hiff := scanBlock_iff h.inv h.state h.rows (h.low hchain.upTo)
  rw [show (stateAfter faucet anchor pre).faucetAccountId = faucet from rfl] at hiff
  rw [hiff]
  simp [Saved]

/-- Discovery comes as far as the blocks are admitted, one after the other, and leaves what the chain says. -/
theorem discoverAll_spec {pre rest : List SignedBlock} {tip : SignedBlock} (h : AtBlocks C faucet anchor s pre)
    (hchain : rest ≠ [] → Chain C anchor (pre ++ rest) tip) :
    (∀ k, k ≤ (discoverAll C faucet s rest).1 ↔ ∀ i < k, Saved C faucet (pre ++ rest) (pre.length + i)) ∧
      AtBlocks C faucet anchor (discoverAll C faucet s rest).2 (pre ++ rest.take (discoverAll C faucet s rest).1) := by
  induction rest generalizing s pre with
  | nil =>
    refine ⟨fun k => ⟨fun hk i hi => ?_, fun hall => ?_⟩, by simpa [discoverAll] using h⟩
    · exact absurd (Nat.lt_of_lt_of_le hi hk) (Nat.not_lt_zero i)
    · by_contra hk
      obtain ⟨block, hblock, -⟩ := hall 0 (Nat.pos_of_ne_zero fun e => hk (e ▸ Nat.le_refl 0))
      simp at hblock
  | cons block rest ih =>
    have hc := hchain (List.cons_ne_nil _ _)
    have hsaved := h.saved_iff hc
    cases hscan : scanBlock C faucet s block with
    | error e =>
      have hno : ¬ Saved C faucet (pre ++ block :: rest) pre.length := by
        rw [← hsaved, hscan]
        rintro ⟨s', hs'⟩
        cases hs'
      simp only [discoverAll, hscan]
      refine ⟨fun k => ⟨fun hk i hi => ?_, fun hall => ?_⟩, by simpa using h⟩
      · exact absurd (Nat.lt_of_lt_of_le hi hk) (Nat.not_lt_zero i)
      · by_contra hk
        exact hno (hall 0 (Nat.pos_of_ne_zero fun e => hk (e ▸ Nat.le_refl 0)))
    | ok s' =>
      have hyes := hsaved.1 ⟨s', hscan⟩
      have hassoc : pre ++ block :: rest = (pre ++ [block]) ++ rest := by simp
      have hnext := h.scan hc.upTo hscan
      obtain ⟨hcount, hat⟩ := ih hnext fun _ => hassoc ▸ hc
      simp only [discoverAll, hscan]
      refine ⟨fun k => ?_, by simpa using hat⟩
      cases k with
      | zero => simp
      | succ k =>
        rw [Nat.add_le_add_iff_right, hcount, hassoc]
        constructor
        · intro hall i hi
          cases i with
          | zero => exact hassoc ▸ hyes
          | succ i =>
            have := hall i (Nat.lt_of_succ_lt_succ hi)
            rwa [List.length_append, List.length_singleton, Nat.add_assoc, Nat.add_comm 1 i] at this
        · intro hall i hi
          have := hall (i + 1) (Nat.succ_lt_succ hi)
          rwa [List.length_append, List.length_singleton, Nat.add_assoc, Nat.add_comm 1 i]

theorem discoverAll_created (faucet : AccountId) {blocks : List SignedBlock} {tip : SignedBlock}
    (hchain : Chain C anchor blocks tip) :
    (∀ k, k ≤ (discoverAll C faucet (.created faucet anchor) blocks).1 ↔ ∀ i < k, Saved C faucet blocks i) ∧
      AtBlocks C faucet anchor (discoverAll C faucet (.created faucet anchor) blocks).2
        (blocks.take (discoverAll C faucet (.created faucet anchor) blocks).1) := by
  have h := discoverAll_spec (.created C faucet anchor) fun _ : blocks ≠ [] => hchain
  simpa using h

/-! ## One more copy -/

/-- The same notes and transactions at the same height. The commitment of a header is over the whole chain, so it may
differ. -/
structure SameContent (b b' : SignedBlock) : Prop where
  blockNum : b'.header.blockNum = b.header.blockNum
  notes : b'.outputNoteBatches.flatten = b.outputNoteBatches.flatten
  transactions : b'.transactions = b.transactions

/-- One more copy of the note among the output notes, in any batch of the block. -/
structure WithCopy (note : Note) (b b' : SignedBlock) : Prop where
  blockNum : b'.header.blockNum = b.header.blockNum
  notes : ∃ before after, b.outputNoteBatches.flatten = before ++ after ∧
    b'.outputNoteBatches.flatten = before ++ .isPublic note :: after
  transactions : b'.transactions = b.transactions

/-- Discovery saves exactly as many blocks, and the same table. -/
def Unaffected (C : Crates) (faucet : AccountId) (anchor anchor' : TrustedAnchor) (blocks blocks' : List SignedBlock) :
    Prop :=
  (discoverAll C faucet (.created faucet anchor') blocks').1 = (discoverAll C faucet (.created faucet anchor) blocks).1 ∧
    (discoverAll C faucet (.created faucet anchor') blocks').2.burns =
      (discoverAll C faucet (.created faucet anchor) blocks).2.burns

variable {note : Note} {b b' : SignedBlock} {rows rows' : NoteId → Option Facts}

theorem SameContent.published (h : SameContent b b') : published C faucet b' = published C faucet b := by
  rw [LightAttester.published, LightAttester.published, h.notes, h.blockNum]

theorem SameContent.inputs (h : SameContent b b') : faucetInputs faucet b' = faucetInputs faucet b := by
  rw [faucetInputs, faucetInputs, h.transactions]

theorem WithCopy.inputs (h : WithCopy note b b') : faucetInputs faucet b' = faucetInputs faucet b := by
  rw [faucetInputs, faucetInputs, h.transactions]

/-- The copy of a burn is one more of the block's burns. -/
theorem WithCopy.published (h : WithCopy note b b') {c : BurnCandidate}
    (hc : BurnCandidate.new C note b.header.blockNum faucet = .ok c) :
    ∃ l1 l2, published C faucet b = l1 ++ l2 ∧ published C faucet b' = l1 ++ c :: l2 := by
  obtain ⟨before, after, hb, hb'⟩ := h.notes
  rw [LightAttester.published, LightAttester.published, hb, hb', h.blockNum, List.filterMap_append, List.filterMap_append]
  refine ⟨_, _, rfl, ?_⟩
  rw [List.filterMap_cons]
  simp [hc, Except.toOption]

theorem SameContent.chainStep (h : SameContent b b') (old : Option Facts) :
    chainStep C faucet n b' old = chainStep C faucet n b old := by
  unfold LightAttester.chainStep spends
  rw [h.published, h.inputs, h.blockNum]

/-- What the blocks say, block by block. -/
def chainFold (C : Crates) (faucet : AccountId) (n : NoteId) (old : Option Facts) (blocks : List SignedBlock) :
    Option Facts :=
  blocks.foldl (fun old b => chainStep C faucet n b old) old

theorem chainRow_append (pre rest : List SignedBlock) :
    chainRow C faucet n (pre ++ rest) = chainFold C faucet n (chainRow C faucet n pre) rest := by
  induction rest using List.reverseRecOn with
  | nil => simp [chainFold]
  | append_singleton rest b ih => rw [← List.append_assoc, chainRow_snoc, ih, chainFold, chainFold, List.foldl_concat]

theorem chainFold_same {bs bs' : List SignedBlock} (h : List.Forall₂ SameContent bs bs') (old : Option Facts) :
    chainFold C faucet n old bs' = chainFold C faucet n old bs := by
  induction h generalizing old with
  | nil => rfl
  | cons hb _ ih =>
    simp only [chainFold, List.foldl_cons] at ih ⊢
    rw [hb.chainStep, ih]

theorem chainRow_same {bs bs' : List SignedBlock} (h : List.Forall₂ SameContent bs bs') (n : NoteId) :
    chainRow C faucet n bs' = chainRow C faucet n bs := by
  have hfold : chainFold C faucet n none bs' = chainFold C faucet n none bs := chainFold_same h none
  have hnil : ∀ bs, chainRow C faucet n bs = chainFold C faucet n none bs := fun bs => chainRow_append [] bs
  rw [hnil, hnil, hfold]

/-- A block that publishes a recorded note again says nothing new. -/
theorem WithCopy.chainStep (h : WithCopy note b b') {c : BurnCandidate}
    (hc : BurnCandidate.new C note b.header.blockNum faucet = .ok c) {old : Option Facts}
    (hold : n = note.id → old.isSome = true) :
    chainStep C faucet n b' old = chainStep C faucet n b old := by
  unfold LightAttester.chainStep spends
  rw [h.inputs, h.blockNum]
  cases old with
  | some row =>
    obtain ⟨first, created, consumed⟩ := row
    cases consumed <;> rfl
  | none =>
    have hn : c.noteId ≠ n := by
      rw [BurnCandidate.noteId, (BurnCandidate.new_ok hc).1]
      intro heq
      cases hold heq.symm
    obtain ⟨l1, l2, hb, hb'⟩ := h.published hc
    simp only [hb, hb', List.find?_append, List.find?_cons, beq_false_of_ne hn]

theorem admissible_congr (hrows : ∀ n, rows' n = rows n)
    (hnotes : unrecorded C faucet rows b' = unrecorded C faucet rows b)
    (hinputs : faucetInputs faucet b' = faucetInputs faucet b) :
    Admissible C faucet rows' b' ↔ Admissible C faucet rows b := by
  obtain rfl : rows' = rows := funext hrows
  constructor
  · rintro ⟨h1, h2, h3⟩
    exact ⟨hnotes ▸ h1, hnotes ▸ h2, hinputs ▸ h3⟩
  · rintro ⟨h1, h2, h3⟩
    exact ⟨hnotes.symm ▸ h1, hnotes.symm ▸ h2, hinputs.symm ▸ h3⟩

/-- A block is not refused for one note less. -/
theorem WithCopy.admissible (h : WithCopy note b b') {c : BurnCandidate}
    (hc : BurnCandidate.new C note b.header.blockNum faucet = .ok c) (ha : Admissible C faucet rows b') :
    Admissible C faucet rows b := by
  obtain ⟨l1, l2, hb, hb'⟩ := h.published hc
  have hsub : (unrecorded C faucet rows b).Sublist (unrecorded C faucet rows b') := by
    rw [unrecorded, unrecorded, hb, hb']
    exact (List.Sublist.append_left (List.sublist_cons_self c l2) l1).filter _
  have hinputs : faucetInputs faucet b' = faucetInputs faucet b := h.inputs
  exact ⟨ha.distinct.sublist hsub, fun d hd => ha.fresh d (hsub.subset hd), hinputs ▸ ha.once⟩

/-- A recorded note published again is skipped. -/
theorem WithCopy.skipped (h : WithCopy note b b') {c : BurnCandidate}
    (hc : BurnCandidate.new C note b.header.blockNum faucet = .ok c) (hold : (rows note.id).isSome = true) :
    unrecorded C faucet rows b' = unrecorded C faucet rows b := by
  obtain ⟨l1, l2, hb, hb'⟩ := h.published hc
  have hid : c.noteId = note.id := by rw [BurnCandidate.noteId, (BurnCandidate.new_ok hc).1]
  have hno : (rows c.noteId).isNone = false := by
    rw [hid]
    cases hrow : rows note.id with
    | none =>
      rw [hrow] at hold
      cases hold
    | some _ => rfl
  rw [unrecorded, unrecorded, hb, hb', List.filter_append, List.filter_append, List.filter_cons, hno]
  rfl

/-- A note that is not recorded and stands twice among the notes is inserted twice. -/
theorem WithCopy.refused (h : WithCopy note b b') {c : BurnCandidate}
    (hc : BurnCandidate.new C note b.header.blockNum faucet = .ok c) (hnew : rows note.id = none)
    (hpub : OutputNote.isPublic note ∈ b.outputNoteBatches.flatten) : ¬ Admissible C faucet rows b' := by
  obtain ⟨l1, l2, hb, hb'⟩ := h.published hc
  have hid : c.noteId = note.id := by rw [BurnCandidate.noteId, (BurnCandidate.new_ok hc).1]
  have hin : c ∈ l1 ++ l2 := by
    rw [← hb, LightAttester.published, List.mem_filterMap]
    exact ⟨_, hpub, by simp [hc, Except.toOption]⟩
  have hkeep : (rows c.noteId).isNone = true := by rw [hid, hnew]; rfl
  intro ha
  have hpair := ha.distinct
  rw [unrecorded, hb', List.filter_append, List.filter_cons, hkeep, if_pos rfl, List.pairwise_append,
    List.pairwise_cons] at hpair
  obtain ⟨-, ⟨hafter, -⟩, hbefore⟩ := hpair
  rcases List.mem_append.1 hin with hin | hin
  · exact (hbefore c (List.mem_filter.2 ⟨hin, hkeep⟩) c List.mem_cons_self).1 rfl
  · exact (hafter c (List.mem_filter.2 ⟨hin, hkeep⟩)).1 rfl

theorem chainRow_published {blocks : List SignedBlock} (hb : b ∈ blocks)
    (hpub : OutputNote.isPublic note ∈ b.outputNoteBatches.flatten) {k : BlockNumber}
    (hburn : (BurnCandidate.new C note k faucet).isOk = true) : (chainRow C faucet note.id blocks).isSome = true := by
  induction blocks with
  | nil => cases hb
  | cons x blocks ih =>
    unfold chainRow
    cases hfind : (published C faucet x).find? fun c => c.noteId == note.id with
    | some c => rfl
    | none =>
      rcases List.mem_cons.1 hb with rfl | hb
      · rw [← BurnCandidate.new_isOk_block C note faucet k b.header.blockNum] at hburn
        cases hc : BurnCandidate.new C note b.header.blockNum faucet with
        | error e =>
          rw [hc] at hburn
          cases hburn
        | ok c =>
          have hmem : c ∈ published C faucet b := by
            rw [published, List.mem_filterMap]
            exact ⟨_, hpub, by simp [hc, Except.toOption]⟩
          have := List.find?_eq_none.1 hfind c hmem
          simp [BurnCandidate.noteId, (BurnCandidate.new_ok hc).1] at this
      · exact ih hb

section
variable {before after before' after' : List SignedBlock} {block block' tip tip' : SignedBlock}

/-- Before the block with the copy the chains have the same content. -/
theorem saved_before (hbefore : List.Forall₂ SameContent before before') {i : Nat} (hi : i < before.length) :
    Saved C faucet (before' ++ block' :: after') i ↔ Saved C faucet (before ++ block :: after) i := by
  have hi' : i < before'.length := hbefore.length_eq ▸ hi
  have hsame : SameContent before[i] before'[i] := hbefore.get hi hi'
  have hrows : ∀ n, chainRow C faucet n (before'.take i) = chainRow C faucet n (before.take i) :=
    chainRow_same (List.forall₂_take i hbefore)
  simp only [Saved, List.take_append_of_le_length hi.le, List.take_append_of_le_length hi'.le,
    List.getElem?_append_left hi, List.getElem?_append_left hi', List.getElem?_eq_getElem hi,
    List.getElem?_eq_getElem hi', Option.some.injEq, exists_eq_left']
  exact admissible_congr hrows (by rw [unrecorded, unrecorded, hsame.published]) hsame.inputs

theorem saved_at : Saved C faucet (before ++ block :: after) before.length ↔
    Admissible C faucet (fun n => chainRow C faucet n before) block := by
  simp [Saved]

theorem rows_before (hbefore : List.Forall₂ SameContent before before') {k : Nat} (hk : k ≤ before.length) (n : NoteId) :
    chainRow C faucet n ((before' ++ block' :: after').take k) = chainRow C faucet n ((before ++ block :: after).take k) := by
  rw [List.take_append_of_le_length hk, List.take_append_of_le_length (hbefore.length_eq ▸ hk)]
  exact chainRow_same (List.forall₂_take k hbefore) n

/-- Once the note is recorded, the chains say the same at every height. -/
theorem rows_recorded (hbefore : List.Forall₂ SameContent before before') (hcopy : WithCopy note block block')
    (hafter : List.Forall₂ SameContent after after') {c : BurnCandidate}
    (hc : BurnCandidate.new C note block.header.blockNum faucet = .ok c)
    (hold : (chainRow C faucet note.id before).isSome = true) (k : Nat) (n : NoteId) :
    chainRow C faucet n ((before' ++ block' :: after').take k) = chainRow C faucet n ((before ++ block :: after).take k) := by
  by_cases hk : k ≤ before.length
  · exact rows_before hbefore hk n
  · obtain ⟨j, rfl⟩ : ∃ j, k = before.length + (j + 1) := ⟨k - before.length - 1, by omega⟩
    rw [List.take_length_add_append, hbefore.length_eq, List.take_length_add_append, List.take_succ_cons,
      List.take_succ_cons, chainRow_append, chainRow_append, chainRow_same hbefore n]
    show chainFold C faucet n (chainStep C faucet n block' _) _ = chainFold C faucet n (chainStep C faucet n block _) _
    rw [hcopy.chainStep hc fun hn => hn ▸ hold, chainFold_same (List.forall₂_take j hafter)]

theorem saved_recorded (hbefore : List.Forall₂ SameContent before before') (hcopy : WithCopy note block block')
    (hafter : List.Forall₂ SameContent after after') {c : BurnCandidate}
    (hc : BurnCandidate.new C note block.header.blockNum faucet = .ok c)
    (hold : (chainRow C faucet note.id before).isSome = true) (i : Nat) :
    Saved C faucet (before' ++ block' :: after') i ↔ Saved C faucet (before ++ block :: after) i := by
  have hrows := rows_recorded hbefore hcopy hafter hc hold i
  have hlen := hbefore.length_eq
  rcases Nat.lt_trichotomy i before.length with hi | rfl | hi
  · exact saved_before hbefore hi
  · rw [saved_at, hlen, saved_at]
    exact admissible_congr (chainRow_same hbefore) (hcopy.skipped hc hold) hcopy.inputs
  · obtain ⟨j, rfl⟩ : ∃ j, i = before.length + (j + 1) := ⟨i - before.length - 1, by omega⟩
    have hget : ∀ {pre rest : List SignedBlock} {x : SignedBlock}, pre.length = before.length →
        (pre ++ x :: rest)[before.length + (j + 1)]? = rest[j]? := by
      intro pre rest x hpre
      rw [← hpre, List.getElem?_append_right (Nat.le_add_right _ _), Nat.add_sub_cancel_left, List.getElem?_cons_succ]
    unfold Saved
    rw [hget hlen.symm, hget rfl]
    by_cases hj : j < after.length
    · have hj' : j < after'.length := hafter.length_eq ▸ hj
      have hsame : SameContent after[j] after'[j] := hafter.get hj hj'
      simp only [List.getElem?_eq_getElem hj, List.getElem?_eq_getElem hj', Option.some.injEq, exists_eq_left']
      exact admissible_congr hrows (by rw [unrecorded, unrecorded, hsame.published]) hsame.inputs
    · have hj' : ¬ j < after'.length := hafter.length_eq ▸ hj
      rw [List.getElem?_eq_none (Nat.not_lt.1 hj), List.getElem?_eq_none (Nat.not_lt.1 hj')]
      simp

/-- A block that cannot be saved, by its place in the chain. -/
theorem stops_iff (after : List SignedBlock) : (∃ pre b rest, before ++ [block] = pre ++ b :: rest ∧
      ¬ Admissible C faucet (fun n => chainRow C faucet n pre) b) ↔
    ∃ i ≤ before.length, ¬ Saved C faucet (before ++ block :: after) i := by
  constructor
  · rintro ⟨pre, b, rest, heq, hno⟩
    have hlen := congrArg List.length heq
    simp only [List.length_append, List.length_cons, List.length_nil] at hlen
    refine ⟨pre.length, by omega, ?_⟩
    rwa [← List.singleton_append, ← List.append_assoc, heq, List.append_assoc, List.cons_append, saved_at]
  · rintro ⟨i, hi, hno⟩
    have hlen : i < (before ++ [block]).length := by
      rw [List.length_append, List.length_singleton]
      omega
    refine ⟨(before ++ [block]).take i, (before ++ [block])[i], (before ++ [block]).drop (i + 1), ?_, ?_⟩
    · rw [← List.drop_eq_getElem_cons hlen, List.take_append_drop]
    · intro hyes
      refine hno ⟨(before ++ [block])[i], ?_, ?_⟩
      · rw [← List.singleton_append, ← List.append_assoc, List.getElem?_append_left hlen, List.getElem?_eq_getElem hlen]
      · rw [← List.singleton_append, ← List.append_assoc, List.take_append_of_le_length hlen.le]
        exact hyes

/-- With the copy, a block that publishes a new note twice is not saved. -/
theorem refused_at_copy (hbefore : List.Forall₂ SameContent before before') (hcopy : WithCopy note block block')
    {c : BurnCandidate} (hc : BurnCandidate.new C note block.header.blockNum faucet = .ok c)
    (hpublished : ∃ b ∈ before ++ [block], OutputNote.isPublic note ∈ b.outputNoteBatches.flatten)
    (hnew : chainRow C faucet note.id before = none) :
    ¬ Saved C faucet (before' ++ block' :: after') before.length := by
  intro hsaved
  rw [hbefore.length_eq, saved_at, funext (chainRow_same hbefore)] at hsaved
  obtain ⟨b, hb, hpub⟩ := hpublished
  rcases List.mem_append.1 hb with hb | hb
  · have hsome := chainRow_published hb hpub (by rw [hc]; rfl)
    rw [hnew] at hsome
    cases hsome
  · rw [List.mem_singleton.1 hb] at hpub
    exact hcopy.refused hc hnew hpub hsaved

/-- What cannot be saved without the copy cannot be saved with it, up to its block. -/
theorem stops_with_copy (hbefore : List.Forall₂ SameContent before before') (hcopy : WithCopy note block block')
    {c : BurnCandidate} (hc : BurnCandidate.new C note block.header.blockNum faucet = .ok c) {k : Nat}
    (hk : k ≤ before.length) (hstop : ¬ Saved C faucet (before ++ block :: after) k) :
    ¬ Saved C faucet (before' ++ block' :: after') k := by
  intro hsaved
  rcases Nat.lt_or_eq_of_le hk with hk | rfl
  · exact hstop ((saved_before hbefore hk).1 hsaved)
  · rw [hbefore.length_eq, saved_at, funext (chainRow_same hbefore)] at hsaved
    rw [saved_at] at hstop
    exact hstop (hcopy.admissible hc hsaved)

/-- How many hold in a row from the start. -/
theorem count_unique {P : Nat → Prop} {k k' : Nat} (h : ∀ m, m ≤ k' ↔ ∀ i < m, P i) (hall : ∀ i < k, P i) (hno : ¬ P k) :
    k' = k := by
  refine le_antisymm ?_ ((h k).2 hall)
  by_contra hlt
  exact hno ((h k').1 le_rfl k (Nat.lt_of_not_le hlt))

theorem not_of_count {P : Nat → Prop} {k : Nat} (h : ∀ m, m ≤ k ↔ ∀ i < m, P i) : ¬ P k := by
  intro hk
  have hmore : k + 1 ≤ k := (h (k + 1)).2 fun i hi => by
    rcases Nat.lt_succ_iff_lt_or_eq.1 hi with hi | rfl
    · exact (h k).1 le_rfl i hi
    · exact hk
  omega

/-- The note is recorded from a block before the one with the copy, or the chain has a block that cannot be saved, at
or before that one: it publishes a new note twice, or two notes with one nullifier, or consumes a note twice. -/
def CopyHarmless (C : Crates) (faucet : AccountId) (note : Note) (before : List SignedBlock) (block : SignedBlock) :
    Prop :=
  (chainRow C faucet note.id before).isSome = true ∨
    ∃ pre b rest, before ++ [block] = pre ++ b :: rest ∧ ¬ Admissible C faucet (fun n => chainRow C faucet n pre) b

/-- **A note published again** changes nothing exactly if it is recorded from an earlier block, or discovery does not
come past its block anyway. -/
theorem republished_iff (hchain : Chain C anchor (before ++ block :: after) tip)
    (hchain' : Chain C anchor' (before' ++ block' :: after') tip') (hbefore : List.Forall₂ SameContent before before')
    (hcopy : WithCopy note block block') (hafter : List.Forall₂ SameContent after after')
    (hpublished : ∃ b ∈ before ++ [block], OutputNote.isPublic note ∈ b.outputNoteBatches.flatten)
    (hburn : (BurnCandidate.new C note block.header.blockNum faucet).isOk = true) :
    Unaffected C faucet anchor anchor' (before ++ block :: after) (before' ++ block' :: after') ↔
      CopyHarmless C faucet note before block := by
  obtain ⟨c, hc⟩ : ∃ c, BurnCandidate.new C note block.header.blockNum faucet = .ok c := by
    cases hc : BurnCandidate.new C note block.header.blockNum faucet with
    | ok c => exact ⟨c, rfl⟩
    | error e =>
      rw [hc] at hburn
      cases hburn
  obtain ⟨hcount, hat⟩ := discoverAll_created faucet hchain
  obtain ⟨hcount', hat'⟩ := discoverAll_created faucet hchain'
  unfold CopyHarmless Unaffected
  rw [stops_iff after]
  generalize discoverAll C faucet (.created faucet anchor) (before ++ block :: after) = found at *
  generalize discoverAll C faucet (.created faucet anchor') (before' ++ block' :: after') = found' at *
  obtain ⟨k, t⟩ := found
  obtain ⟨k', t'⟩ := found'
  simp only at hcount hcount' hat hat' ⊢
  constructor
  · rintro ⟨rfl, -⟩
    by_contra hno
    obtain ⟨hnew, hall⟩ := not_or.1 hno
    have hrecord : chainRow C faucet note.id before = none := by simpa using hnew
    have hsaved : ∀ i ≤ before.length, Saved C faucet (before ++ block :: after) i := by
      intro i hi
      by_contra h
      exact hall ⟨i, hi, h⟩
    -- Without the copy its block is saved, and with the copy it is refused.
    have hreach : before.length + 1 ≤ k' := (hcount _).2 fun i hi => hsaved i (Nat.le_of_lt_succ hi)
    exact refused_at_copy hbefore hcopy hc hpublished hrecord ((hcount' _).1 hreach before.length (Nat.lt_succ_self _))
  · rintro (hold | ⟨i, hi, hno⟩)
    · have hsaved := saved_recorded hbefore hcopy hafter hc hold
      obtain rfl : k' = k := count_unique hcount' (fun i hi => (hsaved i).2 ((hcount k).1 le_rfl i hi))
        fun h => not_of_count hcount ((hsaved k).1 h)
      exact ⟨rfl, hat.burns hat' (rows_recorded hbefore hcopy hafter hc hold k')⟩
    · have hle : k ≤ before.length := by
        by_contra h
        exact hno ((hcount k).1 le_rfl i (by omega))
      obtain rfl : k' = k := count_unique hcount'
        (fun j hj => (saved_before hbefore (hj.trans_le hle)).2 ((hcount k).1 le_rfl j hj))
        (stops_with_copy hbefore hcopy hc hle (not_of_count hcount))
      exact ⟨rfl, hat.burns hat' (rows_before hbefore hle)⟩

end

namespace Sample

/-- The blocks below are signed. -/
def signed : Crates := { crates with validate := fun _ _ => true }

def quietBlock : SignedBlock := { header := header 100, outputNoteBatches := [], transactions := [] }

def noteBlock : SignedBlock := { header := header 101, outputNoteBatches := [[.isPublic Sample.note]], transactions := [] }

/-- The note of `noteBlock` in two batches. -/
def twiceBlock : SignedBlock :=
  { header := ⟨101, 0x1065⟩, outputNoteBatches := [[.isPublic Sample.note], [.isPublic Sample.note]], transactions := [] }

def nextBlock : SignedBlock := { header := ⟨102, 0x1066⟩, outputNoteBatches := [], transactions := [] }

/-- The note of `anchorBlock` again, after `burnBlock` consumed it. -/
def againBlock : SignedBlock :=
  { header := ⟨102, 0x1066⟩, outputNoteBatches := [[.isPublic Sample.note]], transactions := [] }

end Sample

/-- A note in two batches of the block that publishes it: the block is refused, and discovery does not come past it. -/
theorem copied_within_block :
    Chain Sample.signed Sample.config.trustedAnchor [Sample.quietBlock, Sample.noteBlock, Sample.emptyBlock]
        Sample.emptyBlock ∧
      Chain Sample.signed Sample.config.trustedAnchor [Sample.quietBlock, Sample.twiceBlock, Sample.nextBlock]
        Sample.nextBlock ∧
      WithCopy Sample.note Sample.noteBlock Sample.twiceBlock ∧ SameContent Sample.emptyBlock Sample.nextBlock ∧
      (BurnCandidate.new Sample.signed Sample.note 101 Sample.faucet).isOk = true ∧
      (discoverAll Sample.signed Sample.faucet (.created Sample.faucet Sample.config.trustedAnchor)
        [Sample.quietBlock, Sample.noteBlock, Sample.emptyBlock]).1 = 3 ∧
      (discoverAll Sample.signed Sample.faucet (.created Sample.faucet Sample.config.trustedAnchor)
        [Sample.quietBlock, Sample.twiceBlock, Sample.nextBlock]).1 = 1 ∧
      ¬ Unaffected Sample.signed Sample.faucet Sample.config.trustedAnchor Sample.config.trustedAnchor
        [Sample.quietBlock, Sample.noteBlock, Sample.emptyBlock]
        [Sample.quietBlock, Sample.twiceBlock, Sample.nextBlock] := by
  have hpinned : Chain Sample.signed Sample.config.trustedAnchor [Sample.quietBlock] Sample.quietBlock :=
    .pinned ⟨rfl, rfl, rfl⟩
  have h3 : (discoverAll Sample.signed Sample.faucet (.created Sample.faucet Sample.config.trustedAnchor)
      [Sample.quietBlock, Sample.noteBlock, Sample.emptyBlock]).1 = 3 := by decide +kernel
  have h1 : (discoverAll Sample.signed Sample.faucet (.created Sample.faucet Sample.config.trustedAnchor)
      [Sample.quietBlock, Sample.twiceBlock, Sample.nextBlock]).1 = 1 := by decide +kernel
  refine ⟨(hpinned.next ⟨rfl, rfl⟩).next ⟨rfl, rfl⟩, (hpinned.next ⟨rfl, rfl⟩).next ⟨rfl, rfl⟩,
    ⟨rfl, ⟨[.isPublic Sample.note], [], rfl, rfl⟩, rfl⟩, ⟨rfl, rfl, rfl⟩, by decide +kernel, h3, h1, ?_⟩
  rintro ⟨hcount, -⟩
  rw [h3, h1] at hcount
  cases hcount

/-- A note published again after its consumption is skipped. -/
theorem republished_iff_consumed :
    CopyHarmless Sample.signed Sample.faucet Sample.note [Sample.anchorBlock, Sample.burnBlock] Sample.emptyBlock ∧
      Unaffected Sample.signed Sample.faucet Sample.config.trustedAnchor Sample.config.trustedAnchor
        [Sample.anchorBlock, Sample.burnBlock, Sample.emptyBlock]
        [Sample.anchorBlock, Sample.burnBlock, Sample.againBlock] := by
  have hharmless : CopyHarmless Sample.signed Sample.faucet Sample.note [Sample.anchorBlock, Sample.burnBlock]
      Sample.emptyBlock := .inl (by decide +kernel)
  have hpinned : Chain Sample.signed Sample.config.trustedAnchor [Sample.anchorBlock] Sample.anchorBlock :=
    .pinned ⟨rfl, rfl, rfl⟩
  have hsame : ∀ b : SignedBlock, SameContent b b := fun b => ⟨rfl, rfl, rfl⟩
  exact ⟨hharmless, (@republished_iff Sample.signed Sample.faucet _ _ Sample.note [Sample.anchorBlock, Sample.burnBlock] []
    [Sample.anchorBlock, Sample.burnBlock] [] Sample.emptyBlock Sample.againBlock _ _
    ((hpinned.next ⟨rfl, rfl⟩).next ⟨rfl, rfl⟩) ((hpinned.next ⟨rfl, rfl⟩).next ⟨rfl, rfl⟩)
    (.cons (hsame _) (.cons (hsame _) .nil)) ⟨rfl, ⟨[], [], rfl, rfl⟩, rfl⟩ .nil
    ⟨Sample.anchorBlock, by simp, by simp [Sample.anchorBlock]⟩ (by decide +kernel)).2 hharmless⟩

end LightAttester
