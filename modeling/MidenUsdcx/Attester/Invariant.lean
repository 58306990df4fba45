import MidenUsdcx.Attester.Protocol
/-!
# The store's invariant

`NoteInv` is about one note: its burn and its submission, if they are there. `StoreInv` adds what
ties the notes together and to the chain. `legal_inv` is the induction: every legal log ends in a
store that has it. Each transaction touches one note, so the proof is one case of `NoteInv` for each
transaction and one frame argument for all.
-/
namespace LightAttester
open Checked Keyed Store

structure NoteInv (C : Crates) (b : Option BurnRow) (r : Option SavedSubmission) : Prop where
  /-- A burn is consumed after it is created. -/
  order : ∀ b', b = some b' → ∀ c, b'.consumptionBlock = some c → b'.creationBlock < c
  /-- A waiting burn is consumed and free of a hold, and its submission is still open to a retry. -/
  wait : ∀ b', b = some b' → b'.limitRetryAt.isSome → b'.consumptionBlock.isSome ∧ b'.holdReason = none ∧
    ∀ r', r = some r' → r'.status = .submitting ∨ r'.status = .expired
  /-- A held burn is consumed and has nothing in flight. -/
  hold : ∀ b', b = some b' → b'.holdReason.isSome → b'.consumptionBlock.isSome ∧
    ∀ r', r = some r' → r'.status = .expired
  /-- A submission passes its checks and belongs to a consumed burn; a held one has no ID. -/
  row : ∀ r', r = some r' → submissionOk C r' = true ∧ (r'.status = .held → r'.withdrawalId = none) ∧
    ∃ b', b = some b' ∧ b'.consumptionBlock.isSome

structure StoreInv (C : Crates) (s : Store) : Prop where
  layout : s = .blank ∨ s.version = STORE_VERSION ∧ s.state.isSome
  notes : ∀ n, NoteInv C (s.burn n) (s.row n)
  /-- A recorded note still reads as a burn of the store's faucet. -/
  read : ∀ n b st, s.burn n = some b → s.state = some st →
    ∃ c, BurnCandidate.new C b.note b.creationBlock st.faucetAccountId = .ok c
  nullifier : ∀ n m a b, s.burn n = some a → s.burn m = some b → a.nullifier = b.nullifier → n = m
  anchor : ∀ st h, s.state = some st → st.checkpoint = some h → st.anchor.blockNum ≤ h.blockNum

variable {C : Crates} {s s' : Store} {L : List Entry}

/-! ## One note -/

theorem NoteInv.none_none : NoteInv C none none := ⟨by simp, by simp, by simp, by simp⟩

/-- A fresh authorization over no row or an expired one. -/
theorem NoteInv.save {b : BurnRow} {r : Option SavedSubmission} {rec : SavedSubmission} (h : NoteInv C (some b) r)
    (hc : b.consumptionBlock.isSome) (hh : b.holdReason = none) (hv : submissionOk C rec = true) :
    NoteInv C (some b) (some (authorizedRow rec)) where
  order := h.order
  wait b' hb' hw := by
    cases hb'
    exact ⟨hc, hh, fun r' hr' => by cases hr'; exact Or.inl rfl⟩
  hold b' hb' hw := by
    cases hb'
    rw [hh] at hw
    cases hw
  row r' hr' := by
    cases hr'
    refine ⟨?_, fun _ => rfl, b, rfl, hc⟩
    simp only [submissionOk, Bool.and_eq_true] at hv ⊢
    exact ⟨hv.1, by simp [outcomeOk, authorizedRow]⟩

/-- The checks of a request and those of its outcome are about different columns. -/
theorem submissionOk_withOutcome {r out : SavedSubmission} (hr : submissionOk C r = true) (ho : outcomeOk out = true) :
    submissionOk C (withOutcome r out) = true := by
  simp only [submissionOk, Bool.and_eq_true] at hr ⊢
  exact ⟨hr.1, ho⟩

theorem NoteInv.outcome {b : Option BurnRow} {r out : SavedSubmission} (h : NoteInv C b (some r))
    (hst : r.status = .submitting ∨ r.status = .submitted) (ho : outcomeOk out = true)
    (hheld : out.status = .held → out.withdrawalId = none) :
    NoteInv C (if endsWait out.status then b.map fun b => { b with limitRetryAt := none } else b)
      (some (withOutcome r out)) := by
  obtain ⟨hv, -, b0, rfl, hc⟩ := h.row r rfl
  have hfree : b0.holdReason = none := by
    by_contra hne
    have := (h.hold b0 rfl (Option.isSome_iff_ne_none.2 hne)).2 r rfl
    rcases hst with e | e <;> rw [e] at this <;> cases this
  have hrow : ∀ r', some (withOutcome r out) = some r' → r'.status = out.status := fun r' e => by cases e; rfl
  split
  · refine ⟨fun b' e => ?_, fun b' e hw => ?_, fun b' e hw => ?_, fun r' e => ?_⟩
    · cases e; exact h.order b0 rfl
    · cases e; cases hw
    · cases e
      rw [show ({ b0 with limitRetryAt := none } : BurnRow).holdReason = none from hfree] at hw
      cases hw
    · cases e
      exact ⟨submissionOk_withOutcome hv ho, hheld, _, rfl, hc⟩
  · rename_i hends
    refine ⟨h.order, fun b' e hw => ?_, fun b' e hw => ?_, fun r' e => ?_⟩
    · cases e
      refine ⟨hc, hfree, fun r' e => ?_⟩
      rw [hrow r' e]
      cases hs : out.status <;> simp_all [endsWait]
    · cases e
      rw [hfree] at hw
      cases hw
    · cases e
      exact ⟨submissionOk_withOutcome hv ho, hheld, _, rfl, hc⟩

theorem NoteInv.holdBurn {b : BurnRow} {r : Option SavedSubmission} {reason : BurnHoldReason}
    (h : NoteInv C (some b) r) (hc : b.consumptionBlock.isSome) (hr : ∀ r', r = some r' → r'.status = .expired) :
    NoteInv C (some { b with holdReason := some reason, limitRetryAt := none }) r where
  order b' e := by cases e; exact h.order b rfl
  wait b' e hw := by cases e; cases hw
  hold b' e _ := by cases e; exact ⟨hc, hr⟩
  row r' e := by
    obtain ⟨h1, h2, -⟩ := h.row r' e
    exact ⟨h1, h2, _, rfl, hc⟩

/-- A deadline on a consumed burn without a hold, whose submission is open to a retry. -/
theorem NoteInv.setWait {b : BurnRow} {r : Option SavedSubmission} {t : Nat} (h : NoteInv C (some b) r)
    (hc : b.consumptionBlock.isSome) (hh : b.holdReason = none)
    (hr : ∀ r', r = some r' → r'.status = .submitting ∨ r'.status = .expired) :
    NoteInv C (some { b with limitRetryAt := some t }) r where
  order b' e := by cases e; exact h.order b rfl
  wait b' e _ := by cases e; exact ⟨hc, hh, hr⟩
  hold b' e hw := by
    cases e
    rw [show ({ b with limitRetryAt := some t } : BurnRow).holdReason = none from hh] at hw
    cases hw
  row r' e := by
    obtain ⟨h1, h2, -⟩ := h.row r' e
    exact ⟨h1, h2, _, rfl, hc⟩

theorem NoteInv.dropRow {b : Option BurnRow} {r : Option SavedSubmission} (h : NoteInv C b r) : NoteInv C b none where
  order := h.order
  wait b' e hw := ⟨(h.wait b' e hw).1, (h.wait b' e hw).2.1, by simp⟩
  hold b' e hw := ⟨(h.hold b' e hw).1, by simp⟩
  row := by simp

/-- A resend rejected by the limit keeps its request. -/
theorem NoteInv.limited {b : Option BurnRow} {r : SavedSubmission} {body : Bytes} (h : NoteInv C b (some r))
    (hst : r.status = .submitting) : NoteInv C b (some (limitedRow r body)) where
  order := h.order
  wait b' e hw := by
    obtain ⟨h1, h2, -⟩ := h.wait b' e hw
    exact ⟨h1, h2, fun r' e => by cases e; exact Or.inl hst⟩
  hold b' e hw := by
    have := (h.hold b' e hw).2 r rfl
    rw [hst] at this
    cases this
  row r' e := by
    cases e
    obtain ⟨h1, h2, h3⟩ := h.row r rfl
    refine ⟨?_, h2, h3⟩
    simp only [submissionOk, Bool.and_eq_true, outcomeOk] at h1 ⊢
    exact ⟨h1.1, h1.2.1, by simp [limitedRow]⟩

theorem NoteInv.clearHold {b : BurnRow} {r : Option SavedSubmission} (h : NoteInv C (some b) r)
    (hh : b.holdReason.isSome) : NoteInv C (some { b with holdReason := none }) r where
  order b' e := by cases e; exact h.order b rfl
  wait b' e hw := by
    cases e
    have := (h.wait b rfl hw).2.1
    rw [this] at hh
    cases hh
  hold b' e hw := by cases e; cases hw
  row r' e := by
    obtain ⟨h1, h2, b', hb', hc⟩ := h.row r' e
    cases hb'
    exact ⟨h1, h2, _, rfl, hc⟩

/-- The faucet consumed a candidate: it had no wait, no hold and no submission before. -/
theorem NoteInv.promote {b : BurnRow} {r : Option SavedSubmission} {c : BlockNumber} (h : NoteInv C (some b) r)
    (hb : b.consumptionBlock = none) (hlt : b.creationBlock < c) :
    NoteInv C (some { b with consumptionBlock := some c }) r where
  order b' e c' hc' := by
    cases e
    cases hc'
    exact hlt
  wait b' e hw := by
    cases e
    have := (h.wait b rfl hw).1
    rw [hb] at this
    cases this
  hold b' e hw := by
    cases e
    have := (h.hold b rfl hw).1
    rw [hb] at this
    cases this
  row r' e := by
    obtain ⟨h1, h2, -⟩ := h.row r' e
    exact ⟨h1, h2, _, rfl, rfl⟩

/-- A newly recorded burn. -/
theorem NoteInv.insert {b : BurnRow} {r : Option SavedSubmission} (h : NoteInv C none r)
    (hh : b.holdReason = none) (hw : b.limitRetryAt = none)
    (ho : ∀ c, b.consumptionBlock = some c → b.creationBlock < c) : NoteInv C (some b) r where
  order b' e := by cases e; exact ho
  wait b' e hw' := by
    cases e
    rw [hw] at hw'
    cases hw'
  hold b' e hw' := by
    cases e
    rw [hh] at hw'
    cases hw'
  row r' e := by
    obtain ⟨-, -, b', hb', -⟩ := h.row r' e
    cases hb'

/-! ## A scanned block -/

theorem mem_newCandidates {faucet : AccountId} {block : SignedBlock} {c : BurnCandidate}
    (h : c ∈ newCandidates C faucet s block) :
    BurnCandidate.new C c.note c.creationBlock faucet = .ok c ∧ c.creationBlock = block.header.blockNum := by
  rw [newCandidates, List.mem_filterMap] at h
  obtain ⟨output, -, h⟩ := h
  split at h
  · cases h
  · split at h
    · cases h
    · rename_i note c' hc'
      split at h
      · cases h
      · cases h
        obtain ⟨hnote, hblock⟩ := BurnCandidate.new_ok hc'
        exact ⟨by rw [hnote, hblock]; exact hc', hblock⟩

theorem consumedBy_cons_ok {faucet : AccountId} {block : BlockNumber} {nf : Nullifier} {nfs : List Nullifier}
    {ds : List DiscoveredBurn} :
    consumedBy C faucet s block (nf :: nfs) = .ok ds ↔
      ∃ found rest, s.candidateByNullifier C faucet nf = .ok found ∧ consumedBy C faucet s block nfs = .ok rest ∧
        ds = found.elim rest fun c => c.intoDiscovered block :: rest := by
  rw [consumedBy]
  simp only [bind_ok, pure_ok]
  constructor
  · rintro ⟨found, hfound, rest, hrest, rfl⟩
    refine ⟨found, rest, hfound, hrest, ?_⟩
    cases found <;> rfl
  · rintro ⟨found, rest, hfound, hrest, rfl⟩
    refine ⟨found, hfound, rest, hrest, ?_⟩
    cases found <;> rfl

theorem mem_consumedBy {faucet : AccountId} {block : BlockNumber} {d : DiscoveredBurn} :
    ∀ {nfs : List Nullifier} {ds : List DiscoveredBurn}, consumedBy C faucet s block nfs = .ok ds → d ∈ ds →
      ∃ nf c, nf ∈ nfs ∧ s.candidateByNullifier C faucet nf = .ok (some c) ∧ d = c.intoDiscovered block
  | [], ds, h, hd => by
    rw [consumedBy, pure_ok] at h
    subst h
    cases hd
  | nf :: nfs, ds, h, hd => by
    obtain ⟨found, rest, hfound, hrest, rfl⟩ := consumedBy_cons_ok.1 h
    have hlater : d ∈ rest → ∃ nf' c, nf' ∈ nf :: nfs ∧ s.candidateByNullifier C faucet nf' = .ok (some c) ∧
        d = c.intoDiscovered block := by
      intro hd
      obtain ⟨nf', c, hnf', hc, hdc⟩ := mem_consumedBy hrest hd
      exact ⟨nf', c, List.mem_cons_of_mem _ hnf', hc, hdc⟩
    cases found with
    | none => exact hlater hd
    | some c =>
      rcases List.mem_cons.1 hd with rfl | hd
      · exact ⟨nf, c, List.mem_cons_self, hfound, rfl⟩
      · exact hlater hd

/-- The nullifiers the faucet's transactions of a block consume. -/
def faucetInputs (faucet : AccountId) (block : SignedBlock) : List Nullifier :=
  (block.transactions.filter fun t => t.accountId == faucet).flatMap (·.inputNullifiers)

theorem findBurnsInBlock_ok {faucet : AccountId} {block : SignedBlock} {cs : List BurnCandidate}
    {ds : List DiscoveredBurn} (h : findBurnsInBlock C faucet s block = .ok (cs, ds)) :
    cs = newCandidates C faucet s block ∧
      consumedBy C faucet s block.header.blockNum (faucetInputs faucet block) = .ok ds := by
  rw [findBurnsInBlock, bind_ok] at h
  obtain ⟨ds', hds, h⟩ := h
  obtain ⟨rfl, rfl⟩ := Prod.mk.inj (pure_ok.1 h)
  exact ⟨rfl, hds⟩

/-- A burn found in a block is read from its recorded candidate. -/
theorem mem_burns_read {faucet : AccountId} {block : SignedBlock} {cs : List BurnCandidate}
    {ds : List DiscoveredBurn} (h : findBurnsInBlock C faucet s block = .ok (cs, ds)) {d : DiscoveredBurn} (hd : d ∈ ds) :
    ∃ c, BurnCandidate.new C d.note d.creationBlock faucet = .ok c := by
  obtain ⟨nf, c, -, hc, rfl⟩ := mem_consumedBy (findBurnsInBlock_ok h).2 hd
  obtain ⟨b, -, -, -, hnote, hblock, hnew⟩ := candidateByNullifier_ok hc
  refine ⟨c, ?_⟩
  rw [hnote, hblock] at hnew
  exact hnew

/-- What a scan keeps while it inserts: everything but the new checkpoint. -/
structure ScanInv (C : Crates) (st : AttesterState) (s : Store) : Prop where
  state : s.state = some st
  version : s.version = STORE_VERSION
  notes : ∀ n, NoteInv C (s.burn n) (s.row n)
  read : ∀ n b, s.burn n = some b → ∃ c, BurnCandidate.new C b.note b.creationBlock st.faucetAccountId = .ok c
  nullifier : ∀ n m a b, s.burn n = some a → s.burn m = some b → a.nullifier = b.nullifier → n = m

/-- Recording a note that is new under both keys. -/
theorem ScanInv.insert {st : AttesterState} {b : BurnRow} (h : ScanInv C st s) (hnone : s.burn b.noteId = none)
    (hnull : ∀ b' ∈ s.burns.rows, b'.nullifier ≠ b.nullifier) (hh : b.holdReason = none) (hw : b.limitRetryAt = none)
    (ho : ∀ c, b.consumptionBlock = some c → b.creationBlock < c)
    (hread : ∃ c, BurnCandidate.new C b.note b.creationBlock st.faucetAccountId = .ok c) :
    ScanInv C st (s.putBurn b) where
  state := h.state
  version := h.version
  notes n := by
    rw [putBurn_burn, putBurn_row]
    split
    · rename_i hn
      subst hn
      have := h.notes b.noteId
      rw [hnone] at this
      exact this.insert hh hw ho
    · exact h.notes n
  read n b' hb' := by
    rw [putBurn_burn] at hb'
    split at hb'
    · cases hb'; exact hread
    · exact h.read n b' hb'
  nullifier n m a b' ha hb' hnf := by
    have hother : ∀ k c, s.burn k = some c → c.nullifier ≠ b.nullifier := fun k c hc => hnull c (Table.mem_of_get? hc)
    rw [putBurn_burn] at ha hb'
    split at ha <;> split at hb'
    · rename_i h1 h2; exact h1.symm.trans h2
    · cases ha; exact absurd hnf.symm (hother m b' hb')
    · cases hb'; exact absurd hnf (hother n a ha)
    · exact h.nullifier n m a b' ha hb' hnf

/-- Recording that the faucet consumed a candidate. -/
theorem ScanInv.promote {st : AttesterState} {b : BurnRow} {n : NoteId} {c : BlockNumber} (h : ScanInv C st s)
    (hb : s.burn n = some b) (hnone : b.consumptionBlock = none) (hlt : b.creationBlock < c) :
    ScanInv C st (s.putBurn { b with consumptionBlock := some c }) := by
  have hid : ({ b with consumptionBlock := some c } : BurnRow).noteId = n :=
    show b.noteId = n from burn_noteId hb
  -- every row of the new table has the note of a row of the old one under the same key
  have hold : ∀ k b', (s.putBurn { b with consumptionBlock := some c }).burn k = some b' →
      ∃ b0, s.burn k = some b0 ∧ b'.note = b0.note ∧ b'.creationBlock = b0.creationBlock := by
    intro k b' hk
    rw [putBurn_burn, hid] at hk
    split at hk
    · rename_i e
      subst e
      cases hk
      exact ⟨b, hb, rfl, rfl⟩
    · exact ⟨b', hk, rfl, rfl⟩
  refine ⟨h.state, h.version, fun k => ?_, fun k b' hk => ?_, fun k m a b' ha hb' hnf => ?_⟩
  · rw [putBurn_burn, hid, putBurn_row]
    split
    · rename_i e
      subst e
      have := h.notes n
      rw [hb] at this
      exact this.promote hnone hlt
    · exact h.notes k
  · obtain ⟨b0, hb0, hnote, hblock⟩ := hold k b' hk
    rw [hnote, hblock]
    exact h.read k b0 hb0
  · obtain ⟨a0, ha0, hna, -⟩ := hold k a ha
    obtain ⟨b0, hb0, hnb, -⟩ := hold m b' hb'
    refine h.nullifier k m a0 b0 ha0 hb0 ?_
    simp only [BurnRow.nullifier, hna, hnb] at hnf ⊢
    exact hnf

theorem ScanInv.scan {st : AttesterState} {cs : List BurnCandidate} {ds : List DiscoveredBurn} {s1 s2 : Store}
    (h : ScanInv C st s)
    (hcs : ∀ c ∈ cs, BurnCandidate.new C c.note c.creationBlock st.faucetAccountId = .ok c)
    (hds : ∀ d ∈ ds, ∃ c, BurnCandidate.new C d.note d.creationBlock st.faucetAccountId = .ok c)
    (h1 : cs.foldlM insertCandidate s = .ok s1) (h2 : ds.foldlM insertBurn s1 = .ok s2) : ScanInv C st s2 := by
  refine scan_induct (P := ScanInv C st) (fun a c z hc ha hz => ?_) (fun a d z hd ha hz => ?_) h h1 h2
  · obtain ⟨hnone, hnull, rfl⟩ := insertCandidate_ok hz
    exact ha.insert hnone hnull rfl rfl (by simp) ⟨c, hcs c hc⟩
  · rcases insertBurn_ok hz with ⟨hlt, hnone, hnull, rfl⟩ | ⟨b, hb, hnone, hlt, rfl⟩
    · refine ha.insert hnone hnull rfl rfl ?_ (hds d hd)
      rintro c ⟨⟩
      exact hlt
    · exact ha.promote hb hnone hlt

/-! ## Every transaction -/

/-- A store whose recorded notes stay, and that keeps every note's part. -/
theorem StoreInv.of_facts (h : StoreInv C s) (hblank : s ≠ .blank)
    (hfacts : ∀ n b', s'.burn n = some b' → ∃ b, s.burn n = some b ∧ b'.facts = b.facts) (hstate : s'.state = s.state)
    (hversion : s'.version = s.version) (hnotes : ∀ n, NoteInv C (s'.burn n) (s'.row n)) : StoreInv C s' where
  layout := by
    rw [hversion, hstate]
    exact Or.inr (h.layout.resolve_left hblank)
  notes := hnotes
  read n b' st hn hst := by
    obtain ⟨b, hb, he⟩ := hfacts n b' hn
    obtain ⟨h1, h2, -⟩ := Prod.mk.inj he |>.imp id Prod.mk.inj
    rw [h1, h2]
    exact h.read n b st hb (hstate ▸ hst)
  nullifier n m a b ha hb hnf := by
    obtain ⟨a0, ha0, hea⟩ := hfacts n a ha
    obtain ⟨b0, hb0, heb⟩ := hfacts m b hb
    refine h.nullifier n m a0 b0 ha0 hb0 ?_
    have h1 : a.note = a0.note := congrArg Prod.fst hea
    have h2 : b.note = b0.note := congrArg Prod.fst heb
    simpa only [BurnRow.nullifier, h1, h2] using hnf
  anchor st hd hst hcp := h.anchor st hd (hstate ▸ hst) hcp

/-- A transaction about one note, if it keeps that note's part. -/
theorem StoreInv.of_note {w : Write} {n : NoteId} (h : StoreInv C s) (hw : w.apply C s = .ok s')
    (hn : w.note = some n) (hnote : NoteInv C (s'.burn n) (s'.row n)) (hblank : s ≠ .blank) : StoreInv C s' := by
  obtain ⟨hfacts, hstate, hversion⟩ := Write.apply_facts hw (Or.inl (by rw [hn]; rfl))
  refine h.of_facts hblank (fun k b' hk => ?_) hstate hversion fun m => ?_
  · have := hfacts k
    rw [hk] at this
    obtain ⟨b, hb, he⟩ := Option.map_eq_some_iff.1 this.symm
    exact ⟨b, hb, he.symm⟩
  · by_cases hm : m = n
    · exact hm ▸ hnote
    · obtain ⟨h1, h2⟩ := Write.apply_frame hw hn hm
      rw [h1, h2]
      exact h.notes m

/-- Nothing is recorded in a file without tables. -/
theorem ne_blank_of_burn {n : NoteId} {b : BurnRow} (h : s.burn n = some b) : s ≠ .blank := by
  rintro rfl
  cases h

/-- One release. -/
theorem StoreInv.releaseHold {n : NoteId} {flag : Bool} {k : Nat × Nat} (h : StoreInv C s)
    (hrel : s.releaseHold n flag = .ok (s', k)) : StoreInv C s' := by
  have hframe := releaseHold_frame hrel
  have hblank : s ≠ .blank := by
    rcases releaseHold_ok hrel with ⟨b, hb, -⟩ | ⟨b, r, hb, -⟩
    · exact ne_blank_of_burn hb
    · exact ne_blank_of_burn hb
  refine h.of_facts hblank (fun m b' hm => ?_) (hframe n).2.2.1 (hframe n).2.2.2 fun m => ?_
  · rcases (hframe m).1 with he | ⟨b, hb, -, hb'⟩
    · exact ⟨b', he ▸ hm, rfl⟩
    · rw [hb'] at hm
      cases hm
      exact ⟨b, hb, rfl⟩
  · obtain ⟨hb, hr, -⟩ := hframe m
    have hkept : NoteInv C (s'.burn m) (s.row m) := by
      have hnote := h.notes m
      rcases hb with hb | ⟨b, hb, hheld, hb'⟩
      · rw [hb]
        exact hnote
      · rw [hb']
        rw [hb] at hnote
        exact hnote.clearHold hheld
    rcases hr with hr | ⟨r, -, -, hr⟩
    · rw [hr]
      exact hkept
    · rw [hr]
      exact hkept.dropRow

/-- A fresh burn's row of the burns table. -/
theorem FreshBurn.burn {d : DiscoveredBurn} {n : NoteId} {b : BurnRow} (h : FreshBurn s d) (hd : d.noteId = n)
    (hb : s.burn n = some b) : b.consumptionBlock.isSome ∧ b.holdReason = none := by
  obtain ⟨⟨b', hb', -, -, hc, hh⟩, -⟩ := h
  rw [hd, hb] at hb'
  cases hb'
  exact ⟨by rw [hc]; rfl, hh⟩

/-- The candidates and the burns of an authenticated block. -/
theorem StoreInv.scan {cs : List BurnCandidate} {ds : List DiscoveredBurn} {hd : BlockHeader} (h : StoreInv C s)
    (hw : s.saveScanProgress cs ds hd = .ok s') (hok : WriteOk C L s (.scan cs ds hd)) : StoreInv C s' := by
  obtain ⟨block, st, rfl, hst, hauth, hfind⟩ := hok
  obtain ⟨-, s1, s2, st2, h1, h2, hst2, rfl⟩ := saveScanProgress_ok hw
  have hblank : s ≠ .blank := by rintro rfl; cases hst
  have hscan : ScanInv C st s2 := by
    refine ScanInv.scan ⟨hst, (h.layout.resolve_left hblank).1, h.notes, fun n b hb => h.read n b st hb hst,
      h.nullifier⟩ (fun c hc => ?_) (fun d hd => mem_burns_read hfind hd) h1 h2
    rw [(findBurnsInBlock_ok hfind).1] at hc
    exact (mem_newCandidates hc).1
  obtain rfl : st2 = st := Option.some.inj (hst2.symm.trans hscan.state)
  refine ⟨Or.inr ⟨hscan.version, rfl⟩, hscan.notes, fun n b st' hb hst' => ?_, hscan.nullifier,
    fun st' hd' hst' hcp => ?_⟩
  · cases hst'
    exact hscan.read n b hb
  · cases hst'
    cases hcp
    unfold Authenticated at hauth
    split at hauth
    · rename_i cp hcp
      have := h.anchor st2 cp hst hcp
      rw [hauth.1]
      exact Nat.le_succ_of_le this
    · exact le_of_eq hauth.1.symm

theorem StoreInv.save {record : SavedSubmission} (h : StoreInv C s) (hw : (Write.save record).apply C s = .ok s')
    (hok : WriteOk C L s (.save record)) : StoreInv C s' := by
  obtain ⟨hv, -, b, hb, hs'⟩ := saveSubmission_ok hw
  obtain ⟨d, hd, hfresh⟩ := hok
  obtain ⟨hc, hh⟩ := hfresh.2.2.burn hd hb
  refine h.of_note hw rfl ?_ (ne_blank_of_burn hb)
  have hnote := h.notes record.noteId
  rw [hb] at hnote
  rw [hs', addEvent_burn, addEvent_row, putRow_burn, putRow_row, hb]
  rw [if_pos (show (authorizedRow record).noteId = record.noteId from rfl)]
  exact hnote.save hc hh hv

theorem StoreInv.outcome {out : SavedSubmission} (h : StoreInv C s) (hw : (Write.outcome out).apply C s = .ok s')
    (hok : WriteOk C L s (.outcome out)) : StoreInv C s' := by
  obtain ⟨ho, -⟩ := updateSubmissionOutcome_ok hw
  obtain ⟨r, hleaves⟩ := outcome_leaves hw
  obtain ⟨-, hheld, r', hr', hst, -⟩ := hok
  obtain rfl : r = r' := Option.some.inj (hleaves.stored.symm.trans hr')
  have hnote := h.notes out.noteId
  rw [hr'] at hnote
  obtain ⟨-, -, b, hb, hc⟩ := hnote.row r rfl
  refine h.of_note hw rfl ?_ (ne_blank_of_burn hb)
  have := hnote.outcome hst ho hheld
  rw [hleaves.row, hleaves.burn out.noteId]
  simpa only [true_and] using this

theorem StoreInv.hold {n : NoteId} {reason : BurnHoldReason} {resp : Option (Nat × Bytes)} (h : StoreInv C s)
    (hw : (Write.hold n reason resp).apply C s = .ok s') (hok : WriteOk C L s (.hold n reason resp)) :
    StoreInv C s' := by
  obtain ⟨b, hb, hs'⟩ := holdBurn_ok hw
  obtain ⟨d, hd, hfresh⟩ := hok
  obtain ⟨hc, -⟩ := hfresh.2.2.burn hd hb
  refine h.of_note hw rfl ?_ (ne_blank_of_burn hb)
  have hid : b.noteId = n := burn_noteId hb
  have hnote := h.notes n
  rw [hb] at hnote
  have hburn : s'.burn n = some { b with holdReason := some reason, limitRetryAt := none } := by
    rw [hs', addEvent_burn]
    exact putBurn_burn_self hid
  rw [hburn, hs', addEvent_row, putBurn_row]
  exact hnote.holdBurn hc fun r hr => hfresh.2.2.2 r (hd ▸ hr)

theorem StoreInv.advance {n : NoteId} {t : Nat} (h : StoreInv C s) (hw : (Write.advance n t).apply C s = .ok s') :
    StoreInv C s' := by
  obtain ⟨b, hb, hwait, hs'⟩ := advanceLimitRetry_ok hw
  refine h.of_note hw rfl ?_ (ne_blank_of_burn hb)
  have hid : b.noteId = n := burn_noteId hb
  have hnote := h.notes n
  rw [hb] at hnote
  obtain ⟨hc, hh, hr⟩ := hnote.wait b rfl hwait
  have hburn : s'.burn n = some { b with limitRetryAt := some t } := by
    rw [hs']
    exact putBurn_burn_self hid
  rw [hburn, hs', putBurn_row]
  exact hnote.setWait hc hh hr

/-- A limit rejection: of a prepare, of a first POST, or of a resumed one. -/
theorem StoreInv.limit {n : NoteId} {t : Nat} {body : Bytes} {sub : Option (SavedSubmission × SubmissionAttempt)}
    (h : StoreInv C s) (hw : (Write.limit n t body sub).apply C s = .ok s') (hok : WriteOk C L s (.limit n t body sub)) :
    StoreInv C s' := by
  obtain ⟨b, f, hleaves⟩ := limit_leaves hw
  refine h.of_note hw rfl ?_ (ne_blank_of_burn hleaves.stored)
  have hc := hleaves.consumed
  have hh := hleaves.unheld
  have hnote := h.notes n
  rw [hleaves.stored] at hnote
  rw [hleaves.burn n, if_pos rfl, hleaves.row]
  cases hleaves.source with
  | prepare => exact hnote.setWait hc hh fun r hr => Or.inr (hok.2.2 r hr)
  | first hsame =>
    rw [dropRow_row, if_pos rfl]
    exact hnote.dropRow.setWait hc hh (by simp)
  | recovery hsame =>
    rename_i saved r
    obtain ⟨hr, hst, -⟩ := sameRequest_eq_some hsame
    have hrid : (limitedRow r body).noteId = n := show r.noteId = n from row_noteId hr
    rw [putRow_row, if_pos hrid]
    rw [hr] at hnote
    exact (hnote.limited hst).setWait hc hh fun r' e => by cases e; exact Or.inl hst

theorem StoreInv.commit {w : Write} (h : StoreInv C s) (hw : w.apply C s = .ok s') (hok : WriteOk C L s w) :
    StoreInv C s' := by
  cases w with
  | create faucet anchor =>
    cases hw
    refine ⟨Or.inr ⟨rfl, rfl⟩, fun _ => .none_none, fun n b st hb => ?_, fun n m a b ha => ?_, fun st hd hst hcp => ?_⟩
    · cases hb
    · cases ha
    · cases hst; cases hcp
  | scan cs ds hd => exact h.scan hw hok
  | save record => exact h.save hw hok
  | outcome out => exact h.outcome hw hok
  | hold n reason resp => exact h.hold hw hok
  | advance n t => exact h.advance hw
  | limit n t body sub => exact h.limit hw hok
  | release | releaseAll => exact Write.release_induct (fun hP hrel => StoreInv.releaseHold hP hrel) hw rfl h

theorem StoreInv.blank : StoreInv C .blank where
  layout := Or.inl rfl
  notes _ := .none_none
  read n b st hb := by cases hb
  nullifier n m a b ha := by cases ha
  anchor st h hst := by cases hst

/-- **Every legal log ends in a store with the invariant.** -/
theorem legal_inv (h : Legal C L s) : StoreInv C s :=
  h.store_induct .blank fun _ hP hw hok => hP.commit hw hok

end LightAttester
