import MidenUsdcx.Attester.Limit
/-!
# Discovery (`attester.rs:459-526`, `823-869`, `store.rs:909-939`)

Discovery saves one block at a time, and may be cut off anywhere. What the store then knows of a note
is what the chain says of it, up to the checkpoint: the block that first published it as a burn, and
the first later block whose faucet transactions consumed its nullifier (`chainRow`).

| here | |
| --- | --- |
| `Chain` | the blocks from the pinned anchor on, each the validated child of the one before |
| `chainRow` | the reference: what a chain says of a note |
| `scan_follows` | one saved block moves the table as it moves the reference |
| `discovery_follows_chain`, `deep_burns_only` | the results for every run |
-/
namespace LightAttester
open Checked Interact Keyed Store

variable {C : Crates} {s s' : Store} {L : List Entry} {n : NoteId} {faucet : AccountId} {anchor : TrustedAnchor}

/-! ## What a chain says -/

/-- The burns among the public notes of a block (`attester.rs:833-848`). -/
def published (C : Crates) (faucet : AccountId) (block : SignedBlock) : List BurnCandidate :=
  block.outputNoteBatches.flatten.filterMap fun output => match output with
    | .isPrivate => none
    | .isPublic note => (BurnCandidate.new C note block.header.blockNum faucet).toOption

/-- Whether a faucet transaction of the block consumes the nullifier. -/
def spends (faucet : AccountId) (nullifier : Nullifier) (block : SignedBlock) : Bool :=
  (faucetInputs faucet block).contains nullifier

/-- What is recorded of a note: itself, its creation and its consumption. -/
abbrev Facts := Note × BlockNumber × Option BlockNumber

/-- The reference, over the blocks oldest first: the first block that publishes the note, and the first later one
that consumes its nullifier. -/
def chainRow (C : Crates) (faucet : AccountId) (n : NoteId) : List SignedBlock → Option Facts
  | [] => none
  | block :: later => match (published C faucet block).find? fun c => c.noteId == n with
    | some c => some (c.note, block.header.blockNum,
        (later.find? (spends faucet c.nullifier)).map fun b => b.header.blockNum)
    | none => chainRow C faucet n later

/-- What one more block adds. -/
def chainStep (C : Crates) (faucet : AccountId) (n : NoteId) (block : SignedBlock) : Option Facts → Option Facts
  | none => ((published C faucet block).find? fun c => c.noteId == n).map fun c => (c.note, block.header.blockNum, none)
  | some (note, created, none) =>
    some (note, created, if spends faucet note.nullifier block then some block.header.blockNum else none)
  | some (note, created, some consumed) => some (note, created, some consumed)

theorem chainRow_snoc (blocks : List SignedBlock) (block : SignedBlock) :
    chainRow C faucet n (blocks ++ [block]) = chainStep C faucet n block (chainRow C faucet n blocks) := by
  induction blocks with
  | nil =>
    simp only [List.nil_append, chainRow, chainStep]
    cases (published C faucet block).find? fun c => c.noteId == n with
    | none => rfl
    | some c => simp
  | cons b blocks ih =>
    simp only [List.cons_append, chainRow]
    cases hfirst : (published C faucet b).find? fun c => c.noteId == n with
    | none => simpa using ih
    | some c =>
      simp only [List.find?_append]
      cases hlater : blocks.find? (spends faucet c.nullifier) with
      | some x => simp [chainStep]
      | none =>
        by_cases hspend : spends faucet c.nullifier block = true
        · simp [chainStep, List.find?, hspend, show c.note.nullifier = c.nullifier from rfl]
        · simp [chainStep, List.find?, hspend, show c.note.nullifier = c.nullifier from rfl]

/-- The pinned block. -/
def Pinned (C : Crates) (anchor : TrustedAnchor) (block : SignedBlock) : Prop :=
  block.header.blockNum = anchor.blockNum ∧ block.header.commitment = anchor.commitment ∧ C.validate block none = true

/-- The next block. -/
def Follows (C : Crates) (parent block : SignedBlock) : Prop :=
  block.header.blockNum = parent.header.blockNum + 1 ∧ C.validate block (some parent.header) = true

/-- The blocks from the anchor to a tip, oldest first, each validated against the one before. -/
inductive Chain (C : Crates) (anchor : TrustedAnchor) : List SignedBlock → SignedBlock → Prop where
  | pinned {block : SignedBlock} : Pinned C anchor block → Chain C anchor [block] block
  | next {blocks : List SignedBlock} {parent block : SignedBlock} : Chain C anchor blocks parent →
      Follows C parent block → Chain C anchor (blocks ++ [block]) block

/-- What `SignedBlock::validate` gives: a parent has one child, with its notes and its transactions, and a pinned
header stands for one block. -/
structure Authentic (C : Crates) : Prop where
  child : ∀ parent b b', C.validate b (some parent) = true → C.validate b' (some parent) = true → b = b'
  header : ∀ b b', C.validate b none = true → C.validate b' none = true → b.header = b'.header → b = b'

theorem Chain.height {blocks : List SignedBlock} {tip : SignedBlock} (h : Chain C anchor blocks tip) :
    anchor.blockNum ≤ tip.header.blockNum := by
  induction h with
  | pinned hp => exact hp.1.ge
  | next _ hf ih => exact ih.trans (hf.1 ▸ Nat.le_succ _)

/-- Two chains of one height are one chain. -/
theorem Chain.unique (hC : Authentic C) {bs bs' : List SignedBlock} {tip tip' : SignedBlock}
    (h : Chain C anchor bs tip) (h' : Chain C anchor bs' tip') (hn : tip.header.blockNum = tip'.header.blockNum) :
    bs = bs' ∧ tip = tip' := by
  induction h generalizing bs' tip' with
  | pinned hp =>
    cases h' with
    | pinned hp' =>
      have hheader : ∀ {a b : BlockHeader}, a.blockNum = b.blockNum → a.commitment = b.commitment → a = b := by
        rintro ⟨_, _⟩ ⟨_, _⟩ rfl rfl
        rfl
      have heq := hC.header _ _ hp.2.2 hp'.2.2 (hheader hn (hp.2.1.trans hp'.2.1.symm))
      exact ⟨by rw [heq], heq⟩
    | next hc hf =>
      have hlow := hc.height
      have h1 := hp.1
      have h2 := hf.1
      unfold BlockNumber at *
      omega
  | next hc hf ih =>
    cases h' with
    | pinned hp' =>
      have hlow := hc.height
      have h1 := hp'.1
      have h2 := hf.1
      unfold BlockNumber at *
      omega
    | next hc' hf' =>
      have h1 := hf.1
      have h2 := hf'.1
      obtain ⟨rfl, rfl⟩ := ih hc' (Nat.succ.inj (h1.symm.trans (hn.trans h2)))
      have heq := hC.child _ _ _ hf.2 hf'.2
      exact ⟨by rw [heq], heq⟩

/-! ## One saved block -/

/-- The row of a new candidate (`store.rs:1417`). -/
def candidateRow (c : BurnCandidate) : BurnRow :=
  { note := c.note, creationBlock := c.creationBlock, consumptionBlock := none, holdReason := none, limitRetryAt := none }

theorem burn_insertCandidates {cs : List BurnCandidate} (h : cs.foldlM insertCandidate s = .ok s') (n : NoteId) :
    s'.burn n = (s.burn n).or ((cs.find? fun c => c.noteId == n).map candidateRow) := by
  induction cs generalizing s with
  | nil =>
    cases h
    simp
  | cons c cs ih =>
    rw [List.foldlM_cons, bind_ok] at h
    obtain ⟨s1, h1, h2⟩ := h
    obtain ⟨hnone, -, hs1⟩ := insertCandidate_ok h1
    obtain rfl : s1 = s.putBurn (candidateRow c) := hs1
    have hid : (candidateRow c).noteId = c.noteId := rfl
    rw [ih h2, List.find?_cons]
    by_cases hn : c.noteId = n
    · subst hn
      rw [putBurn_burn_self hid, hnone, beq_self_eq_true]
      rfl
    · rw [Write.putBurn_ne hid (Ne.symm hn), beq_false_of_ne hn]

/-- Promoting recorded candidates sets their consumption. -/
theorem facts_insertBurns {block : BlockNumber} {ds : List DiscoveredBurn} (h : ds.foldlM insertBurn s = .ok s')
    (hknown : ∀ d ∈ ds, (s.burn d.noteId).isSome ∧ d.consumptionBlock = block) (n : NoteId) :
    (s'.burn n).map BurnRow.facts = if n ∈ ds.map DiscoveredBurn.noteId
      then (s.burn n).map fun b => (b.note, b.creationBlock, some block) else (s.burn n).map BurnRow.facts := by
  induction ds generalizing s with
  | nil =>
    cases h
    simp
  | cons d ds ih =>
    rw [List.foldlM_cons, bind_ok] at h
    obtain ⟨s1, h1, h2⟩ := h
    obtain ⟨hsome, hblock⟩ := hknown d List.mem_cons_self
    rcases insertBurn_ok h1 with ⟨-, hnone, -⟩ | ⟨b, hb, -, -, rfl⟩
    · rw [hnone] at hsome
      cases hsome
    · have hid : ({ b with consumptionBlock := some d.consumptionBlock } : BurnRow).noteId = d.noteId :=
        show b.noteId = _ from burn_noteId hb
      have hrest : ∀ e ∈ ds, ((s.putBurn { b with consumptionBlock := some d.consumptionBlock }).burn e.noteId).isSome ∧
          e.consumptionBlock = block := by
        intro e he
        obtain ⟨hs, hbl⟩ := hknown e (List.mem_cons_of_mem _ he)
        refine ⟨?_, hbl⟩
        by_cases hn : e.noteId = d.noteId
        · rw [hn, putBurn_burn_self hid]
          rfl
        · rwa [Write.putBurn_ne hid hn]
      rw [ih h2 hrest, List.map_cons]
      by_cases hn : n = d.noteId
      · subst hn
        rw [putBurn_burn_self hid, hb, if_pos List.mem_cons_self]
        split
        · rfl
        · simp [BurnRow.facts, hblock]
      · rw [Write.putBurn_ne hid hn]
        simp only [List.mem_cons, hn, false_or]

theorem newCandidates_eq (block : SignedBlock) :
    newCandidates C faucet s block = (published C faucet block).filter fun c => !s.noteKnown c.noteId := by
  rw [newCandidates, published, List.filter_filterMap]
  congr 1
  funext output
  cases output with
  | isPrivate => rfl
  | isPublic note =>
    cases hnew : BurnCandidate.new C note block.header.blockNum faucet with
    | error e => simp [hnew, Except.toOption]
    | ok c => cases hk : s.noteKnown c.noteId <;> simp [hnew, Except.toOption, Option.filter, hk]

theorem published_block {block : SignedBlock} {c : BurnCandidate} (h : c ∈ published C faucet block) :
    c.creationBlock = block.header.blockNum := by
  obtain ⟨output, -, hc⟩ := List.mem_filterMap.1 h
  cases output with
  | isPrivate => cases hc
  | isPublic note =>
    cases hnew : BurnCandidate.new C note block.header.blockNum faucet with
    | error e => simp [hnew, Except.toOption] at hc
    | ok c' =>
      simp only [hnew, Except.toOption, Option.some.injEq] at hc
      exact hc ▸ (BurnCandidate.new_ok hnew).2

/-- Each nullifier is looked up, and what it finds is among the burns. -/
theorem consumedBy_finds {block : BlockNumber} {nfs : List Nullifier} {ds : List DiscoveredBurn}
    (h : consumedBy C faucet s block nfs = .ok ds) {nf : Nullifier} (hnf : nf ∈ nfs) :
    ∃ found, s.candidateByNullifier C faucet nf = .ok found ∧ ∀ c, found = some c → c.intoDiscovered block ∈ ds := by
  induction nfs generalizing ds with
  | nil => cases hnf
  | cons x nfs ih =>
    obtain ⟨found, rest, hfound, hrest, rfl⟩ := consumedBy_cons_ok.1 h
    rcases List.mem_cons.1 hnf with rfl | hnf
    · refine ⟨found, hfound, fun c hc => ?_⟩
      subst hc
      exact List.mem_cons_self
    · obtain ⟨found', hfound', hmem⟩ := ih hrest hnf
      refine ⟨found', hfound', fun c hc => ?_⟩
      cases found with
      | none => exact hmem c hc
      | some _ => exact List.mem_cons_of_mem _ (hmem c hc)

/-- The burns of a block are the recorded candidates whose nullifier it consumes. -/
theorem mem_consumedBy_iff (hinv : StoreInv C s) {block : BlockNumber} {nfs : List Nullifier} {ds : List DiscoveredBurn}
    (h : consumedBy C faucet s block nfs = .ok ds) :
    n ∈ ds.map DiscoveredBurn.noteId ↔ ∃ b, s.burn n = some b ∧ b.consumptionBlock = none ∧ b.nullifier ∈ nfs := by
  constructor
  · intro hn
    obtain ⟨d, hd, rfl⟩ := List.mem_map.1 hn
    obtain ⟨nf, c, hnf, hc, rfl⟩ := mem_consumedBy h hd
    obtain ⟨b, hb, hnone, hnull, -⟩ := candidateByNullifier_ok hc
    exact ⟨b, hb, hnone, hnull ▸ hnf⟩
  · rintro ⟨b, hb, hnone, hnf⟩
    obtain ⟨found, hfound, hmem⟩ := consumedBy_finds h hnf
    cases found with
    | none =>
      -- the note itself is a candidate with this nullifier
      rw [candidateByNullifier, bind_ok] at hfound
      obtain ⟨cs, hcs, hlast⟩ := hfound
      have hempty : cs = [] := List.getLast?_eq_none_iff.1 (pure_ok.1 hlast)
      have hlen := (mapM_ok.1 hcs).length_eq
      have hq : b ∈ s.queue fun b' => b'.consumptionBlock.isNone && b'.nullifier == b.nullifier :=
        mem_queue.2 ⟨(burn_noteId hb).symm ▸ hb, by simp [hnone]⟩
      rw [hempty, List.length_nil] at hlen
      rw [List.eq_nil_of_length_eq_zero hlen] at hq
      cases hq
    | some c =>
      obtain ⟨b', hb', -, hnull, hnote, -⟩ := candidateByNullifier_ok hfound
      have hid : c.noteId = n := hinv.nullifier _ _ b' b hb' hb hnull
      exact List.mem_map.2 ⟨_, hmem c rfl, hid⟩

/-- **One saved block** moves the table as it moves the reference. -/
theorem scan_follows (hinv : StoreInv C s) {block : SignedBlock} {cs : List BurnCandidate} {ds : List DiscoveredBurn}
    (hfind : findBurnsInBlock C faucet s block = .ok (cs, ds)) (hsave : s.saveScanProgress cs ds block.header = .ok s')
    (n : NoteId) : (s'.burn n).map BurnRow.facts = chainStep C faucet n block ((s.burn n).map BurnRow.facts) := by
  obtain ⟨rfl, hds⟩ := findBurnsInBlock_ok hfind
  obtain ⟨-, s1, s2, st, h1, h2, -, rfl⟩ := saveScanProgress_ok hsave
  show (s2.burn n).map BurnRow.facts = _
  have hinserted := burn_insertCandidates h1
  have hknown : ∀ d ∈ ds, (s1.burn d.noteId).isSome ∧ d.consumptionBlock = block.header.blockNum := by
    intro d hd
    obtain ⟨b, hb, -⟩ := (mem_consumedBy_iff hinv hds).1 (List.mem_map_of_mem hd)
    obtain ⟨nf, c, -, -, rfl⟩ := mem_consumedBy hds hd
    exact ⟨by rw [hinserted, hb]; rfl, rfl⟩
  rw [facts_insertBurns h2 hknown, hinserted]
  cases hb : s.burn n with
  | none =>
    have hnot : n ∉ ds.map DiscoveredBurn.noteId := by
      intro hn
      obtain ⟨b, hb', -⟩ := (mem_consumedBy_iff hinv hds).1 hn
      rw [hb] at hb'
      cases hb'
    have hsame : ((published C faucet block).filter fun c => !s.noteKnown c.noteId).find? (fun c => c.noteId == n) =
        (published C faucet block).find? fun c => c.noteId == n := by
      rw [List.find?_filter]
      congr 1
      funext c
      by_cases hc : c.noteId = n
      · simp [hc, noteKnown, hb]
      · simp [hc]
    rw [if_neg hnot, newCandidates_eq, hsame]
    cases hc : (published C faucet block).find? fun c => c.noteId == n with
    | none => simp [chainStep, hc]
    | some c =>
      have hblock := published_block (List.mem_of_find?_eq_some hc)
      simp [chainStep, hc, BurnRow.facts, candidateRow, hblock]
  | some b =>
    have hiff := mem_consumedBy_iff (n := n) hinv hds
    simp only [hb, Option.some.injEq, exists_eq_left'] at hiff
    cases hcons : b.consumptionBlock with
    | none =>
      have hspend : n ∈ ds.map DiscoveredBurn.noteId ↔ spends faucet b.note.nullifier block = true := by
        rw [hiff, spends, List.contains_iff_mem]
        exact ⟨fun h => h.2, fun h => ⟨hcons, h⟩⟩
      by_cases hn : n ∈ ds.map DiscoveredBurn.noteId
      · simp [hn, chainStep, BurnRow.facts, hcons, hspend.1 hn]
      · simp [hn, chainStep, BurnRow.facts, hcons, mt hspend.2 hn]
    | some c =>
      have hnot : n ∉ ds.map DiscoveredBurn.noteId := by
        intro hn
        rw [hcons] at hiff
        cases (hiff.1 hn).1
      simp [hnot, chainStep, BurnRow.facts, hcons]

/-! ## Every run -/

/-- The table is what a chain up to the checkpoint says; before the first checkpoint it is empty. -/
structure Traced (C : Crates) (s : Store) : Prop where
  empty : ∀ st, s.state = some st → st.checkpoint = none → ∀ n, s.burn n = none
  chain : ∀ st h, s.state = some st → st.checkpoint = some h → ∃ blocks tip, Chain C st.anchor blocks tip ∧
    tip.header = h ∧ ∀ n, (s.burn n).map BurnRow.facts = chainRow C st.faucetAccountId n blocks

theorem Traced.scan {st : AttesterState} {block : SignedBlock} {cs : List BurnCandidate} {ds : List DiscoveredBurn}
    (h : Traced C s) (hinv : StoreInv C s) (hst : s.state = some st) (hauth : Authenticated C st block)
    (hfind : findBurnsInBlock C st.faucetAccountId s block = .ok (cs, ds))
    (hsave : s.saveScanProgress cs ds block.header = .ok s') : Traced C s' := by
  have hstate := saveScanProgress_state hsave hst
  have hfollow := scan_follows hinv hfind hsave
  constructor
  · intro st' hst' hnone
    rw [hstate] at hst'
    cases hst'
    cases hnone
  · intro st' h' hst' hcp
    rw [hstate] at hst'
    cases hst'
    cases hcp
    cases hold : st.checkpoint with
    | none =>
      rw [Authenticated, hold] at hauth
      refine ⟨[block], block, .pinned hauth, rfl, fun n => ?_⟩
      rw [hfollow, h.empty st hst hold n]
      exact (chainRow_snoc [] block).symm
    | some checkpoint =>
      rw [Authenticated, hold] at hauth
      obtain ⟨blocks, tip, hchain, rfl, hrows⟩ := h.chain st checkpoint hst hold
      refine ⟨blocks ++ [block], block, hchain.next hauth, rfl, fun n => ?_⟩
      rw [hfollow, hrows, chainRow_snoc]

theorem legal_traced (h : Legal C L s) : Traced C s := by
  refine h.store_induct (P := Traced C) ?_ ?_
  · constructor
    · intro st hst
      cases hst
    · intro st h hst
      cases hst
  · intro L s s' w hL hP hw hok
    have hkeep : w.note.isSome ∨ w.isRelease = true → Traced C s' := by
      intro hnote
      obtain ⟨hfacts, hstate, -⟩ := Write.apply_facts hw hnote
      constructor
      · intro st hst hnone n
        have hb := hP.empty st (hstate ▸ hst) hnone n
        have hf := hfacts n
        rw [hb, Option.map_none, Option.map_eq_none_iff] at hf
        exact hf
      · intro st h hst hcp
        obtain ⟨blocks, tip, hchain, htip, hrows⟩ := hP.chain st h (hstate ▸ hst) hcp
        exact ⟨blocks, tip, hchain, htip, fun n => (hfacts n).trans (hrows n)⟩
    cases w with
    | create faucet anchor =>
      cases hw
      constructor
      · intro st _ _ n
        rfl
      · intro st h hst hcp
        cases hst
        cases hcp
    | scan cs ds hd =>
      obtain ⟨block, st, rfl, hst, hauth, hfind⟩ := hok
      exact hP.scan (legal_inv hL) hst hauth hfind hw
    | save | outcome | hold | advance | limit => exact hkeep (Or.inl rfl)
    | release | releaseAll => exact hkeep (Or.inr rfl)

/-- What discovery has saved, against every chain of validated blocks up to the same height. -/
structure Discovered (C : Crates) (s : Store) : Prop extends Traced C s where
  reference : ∀ st h, s.state = some st → st.checkpoint = some h → ∀ blocks tip, Chain C st.anchor blocks tip →
    tip.header.blockNum = h.blockNum →
      h = tip.header ∧ ∀ n, (s.burn n).map BurnRow.facts = chainRow C st.faucetAccountId n blocks

/-- **Discovery is the reference.** Whatever interrupts it, a run that has come to a block of the chain has saved its
header, and of each note what the chain up to it says. -/
theorem discovery_follows_chain (hC : Authentic C) (lifetimes : List Lifetime) :
    Discovered C (runAll C lifetimes).store := by
  have htraced := legal_traced (runs_legal (C := C) lifetimes)
  refine ⟨htraced, ?_⟩
  intro st h hst hcp blocks tip hchain hheight
  obtain ⟨blocks', tip', hchain', rfl, hrows⟩ := htraced.chain st h hst hcp
  obtain ⟨rfl, rfl⟩ := hchain.unique hC hchain' hheight
  exact ⟨rfl, hrows⟩

namespace Sample

/-- The three blocks are the whole chain. -/
def validates (block : SignedBlock) : Option BlockHeader → Bool
  | none => decide (block = anchorBlock)
  | some parent => decide (parent = anchorBlock.header ∧ block = burnBlock ∨ parent = burnBlock.header ∧ block = emptyBlock)

def chained : Crates := { crates with validate := validates }

theorem authentic : Authentic chained where
  child parent b b' h h' := by
    have hne : anchorBlock.header ≠ burnBlock.header := by decide
    have hb := of_decide_eq_true h
    have hb' := of_decide_eq_true h'
    rcases hb with ⟨rfl, rfl⟩ | ⟨rfl, rfl⟩
    · exact (hb'.resolve_right fun e => hne e.1).2.symm
    · exact (hb'.resolve_left fun e => hne e.1.symm).2.symm
  header b b' h h' _ := (of_decide_eq_true h).trans (of_decide_eq_true h').symm

/-- A process that is cut off after its first scan. -/
def scanned : List Lifetime := [.serve config 1 (starting ++ scanning)]

end Sample

/-- The note of the anchor block, consumed in the next. -/
theorem discovery_follows_chain_scanned :
    Authentic Sample.chained ∧ Discovered Sample.chained (runAll Sample.chained Sample.scanned).store ∧
      ((runAll Sample.chained Sample.scanned).store.burn Sample.note.id).map BurnRow.facts =
        some (Sample.note, 100, some 101) :=
  ⟨Sample.authentic, discovery_follows_chain Sample.authentic Sample.scanned, by decide +kernel⟩

/-! ## Only deep burns are withdrawn -/

/-- The act prepares or signs a withdrawal of `n`, or gives it a new `AUTHORIZED` row. -/
def Act.readiesOrSaves (n : NoteId) : Act → Prop
  | .prepare burn _ _ => burn.noteId = n
  | .sign m _ => m = n
  | .commit (.save record) => record.noteId = n
  | _ => False

/-- The log holds the scan of this block, authenticated against the header chain saved so far. -/
def Scanned (C : Crates) (L : List Entry) (st : AttesterState) (block : SignedBlock) : Prop :=
  ∃ newer cs ds s1 older, L = newer ++ ⟨.commit (.scan cs ds block.header), s1⟩ :: older ∧
    (storeOf older).state = some st ∧ Authenticated C st block

theorem Scanned.later {st : AttesterState} {block : SignedBlock} (e : Entry) (h : Scanned C L st block) :
    Scanned C (e :: L) st block := by
  obtain ⟨newer, cs, ds, s1, older, rfl, hst, hauth⟩ := h
  exact ⟨e :: newer, cs, ds, s1, older, rfl, hst, hauth⟩

/-- A checkpoint is the header of an authenticated block, and a consumption is one of a faucet transaction of an
authenticated block. -/
structure Evidenced (C : Crates) (L : List Entry) (s : Store) : Prop where
  checkpoint : ∀ st h, s.state = some st → st.checkpoint = some h → ∃ st0 block, Scanned C L st0 block ∧ block.header = h
  consumption : ∀ n b c, s.burn n = some b → b.consumptionBlock = some c → ∃ st0 block, Scanned C L st0 block ∧
    block.header.blockNum = c ∧ spends st0.faucetAccountId b.nullifier block = true

theorem chainStep_consumed {block : SignedBlock} {note : Note} {created c : BlockNumber} {old : Option Facts}
    (h : chainStep C faucet n block old = some (note, created, some c)) :
    old = some (note, created, some c) ∨ c = block.header.blockNum ∧ spends faucet note.nullifier block = true := by
  unfold chainStep at h
  split at h
  · obtain ⟨_, -, he⟩ := Option.map_eq_some_iff.1 h
    cases he
  · rename_i m k
    simp only [Option.some.injEq, Prod.mk.injEq] at h
    obtain ⟨rfl, rfl, hc⟩ := h
    split at hc
    · rename_i hspend
      exact Or.inr ⟨(Option.some.inj hc).symm, hspend⟩
    · cases hc
  · exact Or.inl h

theorem legal_evidenced (h : Legal C L s) : Evidenced C L s := by
  refine h.induct (P := Evidenced C) ?_ ?_
  · constructor
    · intro st h hst
      cases hst
    · intro n b c hb
      cases hb
  · intro L s s' a hL ih ha
    have hkeep : (∀ m, (s'.burn m).map BurnRow.facts = (s.burn m).map BurnRow.facts) → s'.state = s.state →
        Evidenced C (⟨a, s'⟩ :: L) s' := by
      intro hfacts hstate
      constructor
      · intro st h hst hcp
        obtain ⟨st0, block, hscan, heq⟩ := ih.checkpoint st h (hstate ▸ hst) hcp
        exact ⟨st0, block, hscan.later _, heq⟩
      · intro n b c hb hc
        have hf := hfacts n
        rw [hb] at hf
        obtain ⟨b0, hb0, he⟩ := Option.map_eq_some_iff.1 hf.symm
        simp only [BurnRow.facts, Prod.mk.injEq] at he
        obtain ⟨st0, block, hscan, hnum, hspend⟩ := ih.consumption n b0 c hb0 (he.2.2.trans hc)
        refine ⟨st0, block, hscan.later _, hnum, ?_⟩
        rwa [BurnRow.nullifier, he.1] at hspend
    rcases ha.store with rfl | ⟨w, rfl, hw, hok⟩
    · exact hkeep (fun _ => rfl) rfl
    · cases w with
      | create faucet anchor =>
        cases hw
        constructor
        · intro st h hst hcp
          cases hst
          cases hcp
        · intro n b c hb
          cases hb
      | scan cs ds hd =>
        obtain ⟨block, st, rfl, hst, hauth, hfind⟩ := hok
        have hnow : Scanned C (⟨.commit (.scan cs ds block.header), s'⟩ :: L) st block :=
          ⟨[], cs, ds, s', L, rfl, hL.storeOf_eq.symm ▸ hst, hauth⟩
        constructor
        · intro st' h hst' hcp
          rw [saveScanProgress_state hw hst] at hst'
          cases hst'
          cases hcp
          exact ⟨st, block, hnow, rfl⟩
        · intro n b c hb hc
          have hstep := scan_follows (legal_inv hL) hfind hw n
          rw [hb, Option.map_some, BurnRow.facts, hc] at hstep
          rcases chainStep_consumed hstep.symm with hold | ⟨rfl, hspend⟩
          · obtain ⟨b0, hb0, he⟩ := Option.map_eq_some_iff.1 hold
            simp only [BurnRow.facts, Prod.mk.injEq] at he
            obtain ⟨st0, block0, hscan, hnum, hspend⟩ := ih.consumption n b0 c hb0 he.2.2
            refine ⟨st0, block0, hscan.later _, hnum, ?_⟩
            rwa [BurnRow.nullifier, he.1] at hspend
          · exact ⟨st, block, hnow, rfl, hspend⟩
      | save | outcome | hold | advance | limit =>
        obtain ⟨hfacts, hstate, -⟩ := Write.apply_facts hw (Or.inl rfl)
        exact hkeep hfacts hstate
      | release | releaseAll =>
        obtain ⟨hfacts, hstate, -⟩ := Write.apply_facts hw (Or.inr rfl)
        exact hkeep hfacts hstate

/-- At this point of the log the burn `b` of `n` is deep enough: discovery of the cycle succeeded with proof lag
`lag`, and the work lists were taken from a store with this checkpoint. -/
structure DeepBurn (C : Crates) (L : List Entry) (n : NoteId) (config : Config) (lag : BlockNumber) (b : BurnRow)
    (c : BlockNumber) (checkpoint : BlockHeader) : Prop where
  running : configOf L = some config
  discovered : lagOf L = some lag
  burn : (storeOf L).burn n = some b ∧ b.consumptionBlock = some c
  lists : ∃ newer work s0 older st, L = newer ++ ⟨.snapshot work, s0⟩ :: older ∧ workOf L = some work ∧
    s0.state = some st ∧ st.checkpoint = some checkpoint
  depth : config.minimumFinalityDepthBlocks ≤ checkpoint.blockNum
  deep : c ≤ min lag (checkpoint.blockNum - config.minimumFinalityDepthBlocks)
  checkpointSaved : ∃ st0 block, Scanned C L st0 block ∧ block.header = checkpoint
  consumptionSaved : ∃ st0 block, Scanned C L st0 block ∧ block.header.blockNum = c ∧
    spends st0.faucetAccountId b.nullifier block = true

theorem Scanned.append {newer : List Entry} {st : AttesterState} {block : SignedBlock} (h : Scanned C L st block) :
    Scanned C (newer ++ L) st block := by
  induction newer with
  | nil => exact h
  | cons e newer ih => exact ih.later e

theorem FreshItem.deep {d : DiscoveredBurn} (h : Legal C L s) (hd : FreshItem L s d) :
    ∃ config lag b checkpoint, DeepBurn C L d.noteId config lag b d.consumptionBlock checkpoint := by
  obtain ⟨-, ⟨work, hwork, hmem⟩, ⟨b, hb, -, -, hc, -⟩, -⟩ := hd
  obtain ⟨newer, s0, older, hlog, hs0, hsnap, hcfg, hlag⟩ := legal_snapshot h hwork
  have hL := h
  rw [hlog] at hL
  have hbefore : Legal C older s0 := hs0 ▸ hL.entry.1
  rcases hsnap.2.2.1 with he | ⟨config, lag, hconfig, hlagged, hready⟩
  · rw [he] at hmem
    cases hmem
  · obtain ⟨-, st, checkpoint, hst, hcp, hdepth, hdeep⟩ := mem_burnsReady hready hmem
    obtain ⟨st0, block, hscan, hheader⟩ := (legal_evidenced hbefore).checkpoint st checkpoint hst hcp
    obtain ⟨st1, block1, hscan1, hnum, hspend⟩ := (legal_evidenced h).consumption _ b _ hb hc
    refine ⟨config, lag, b, checkpoint, hcfg.trans hconfig, hlag.trans hlagged, ⟨h.storeOf_eq.symm ▸ hb, hc⟩,
      ⟨newer, work, s0, older, st, hlog, hwork, hst, hcp⟩, hdepth, hdeep, ⟨st0, block, ?_, hheader⟩,
      ⟨st1, block1, hscan1, hnum, hspend⟩⟩
    rw [hlog]
    exact (hscan.later _).append

/-- Every withdrawal step of a run is about a deep burn. -/
def DeepOnly (C : Crates) (w : World) : Prop := ∀ later f earlier n, w.log = later ++ f :: earlier →
  f.act.readiesOrSaves n → ∃ config lag b c checkpoint, DeepBurn C earlier n config lag b c checkpoint

/-- **Only deep, authenticated burns are withdrawn**, whatever the node reports. -/
theorem deep_burns_only (lifetimes : List Lifetime) : DeepOnly C (runAll C lifetimes) := by
  intro later f earlier n hlog hf
  have hlegal := runs_legal (C := C) lifetimes
  rw [hlog] at hlegal
  obtain ⟨hL, ha⟩ := hlegal.entry
  have hdeep : ∀ d, d.noteId = n → FreshItem earlier (storeOf earlier) d →
      ∃ config lag b c checkpoint, DeepBurn C earlier n config lag b c checkpoint := by
    intro d hn hd
    obtain ⟨config, lag, b, checkpoint, h⟩ := hd.deep hL
    exact ⟨config, lag, b, d.consumptionBlock, checkpoint, hn ▸ h⟩
  obtain ⟨act, s1⟩ := f
  cases act with
  | prepare burn fee reply => exact hdeep burn hf ha.2.1
  | sign m digest =>
    obtain ⟨-, d, hd, hitem⟩ := ha
    exact hdeep d (hd.trans hf) hitem
  | commit w =>
    cases w with
    | save record =>
      obtain ⟨-, d, hd, hitem⟩ := ha
      exact hdeep d (hd.trans hf) hitem
    | _ => exact hf.elim
  | _ => exact hf.elim

end LightAttester
