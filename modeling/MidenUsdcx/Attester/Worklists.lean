import MidenUsdcx.Attester.Invariant
/-!
# The work lists of a cycle

A cycle takes its three lists once and works through them while operators release holds between the
items. `legal_pending` is why the snapshots can be trusted: until an item's span is opened, its row
(or, for a ready burn, the absence of one) is the one the snapshot saw. `legal_once` counts the
requests of a cycle.
-/
namespace LightAttester
open Checked Keyed Store

variable {C : Crates} {s s' : Store} {L : List Entry}

/-! ## What the lists hold when they are taken -/

theorem mem_selectSubmissions {status : SubmissionStatus} {rows : List SavedSubmission}
    (h : s.selectSubmissions C none (some status) = .ok rows) {r : SavedSubmission} :
    r ∈ rows ↔ s.row r.noteId = some r ∧ r.status = status := by
  simp only [selectSubmissions, ensure_bind_ok, pure_ok] at h
  obtain ⟨-, rfl⟩ := h
  rw [List.mem_filter, Table.mem_rows]
  simp [row]

theorem decodeBurn_ok {faucet : AccountId} {b : BurnRow} {d : DiscoveredBurn}
    (h : decodeBurn C faucet b = .ok d) :
    b.note = d.note ∧ b.creationBlock = d.creationBlock ∧ b.consumptionBlock = some d.consumptionBlock ∧
      ∃ c, BurnCandidate.new C b.note b.creationBlock faucet = .ok c ∧ d = c.intoDiscovered d.consumptionBlock := by
  simp only [decodeBurn, orThrow_bind_ok] at h
  obtain ⟨block, hblock, h⟩ := h
  rw [orThrow_ok, DiscoveredBurn.new] at h
  cases hnew : BurnCandidate.new C b.note b.creationBlock faucet with
  | error e => rw [hnew] at h; cases h
  | ok c =>
    rw [hnew] at h
    cases h
    obtain ⟨h1, h2⟩ := BurnCandidate.new_ok hnew
    exact ⟨h1.symm, h2.symm, hblock, c, rfl, rfl⟩

theorem decodeBurn_noteId {faucet : AccountId} {b : BurnRow} {d : DiscoveredBurn}
    (h : decodeBurn C faucet b = .ok d) : d.noteId = b.noteId := by
  rw [DiscoveredBurn.noteId, ← (decodeBurn_ok h).1]
  rfl

theorem mem_loadBurns {faucet : AccountId} {ds : List DiscoveredBurn} (h : s.loadBurns C faucet false = .ok ds)
    {d : DiscoveredBurn} (hd : d ∈ ds) : FreshBurn s d := by
  obtain ⟨b, hb, hdec⟩ := mem_of_mapM_ok h hd
  obtain ⟨hburn, hp⟩ := mem_queue.1 hb
  simp only [Bool.and_eq_true, Bool.false_or, isFresh, Option.isNone_iff_eq_none] at hp
  obtain ⟨-, hhold, hrow⟩ := hp
  obtain ⟨hnote, hblock, hc, -⟩ := decodeBurn_ok hdec
  have hid := decodeBurn_noteId hdec
  refine ⟨⟨b, hid ▸ hburn, hnote, hblock, hc, hhold⟩, fun r hr => ?_⟩
  rw [hid] at hr
  simpa [hr] using hrow

theorem queue_nodup (s : Store) (p : BurnRow → Bool) : ((s.queue p).map BurnRow.noteId).Nodup := by
  have hperm := (List.perm_insertionSort (fun a b : BurnRow => a.place ≤ b.place) (s.burns.rows.filter p)).map
    BurnRow.noteId
  exact hperm.nodup_iff.2 ((s.burns.nodup_keys).sublist (List.filter_sublist.map _))

theorem loadBurns_nodup {faucet : AccountId} {all : Bool} {ds : List DiscoveredBurn}
    (h : s.loadBurns C faucet all = .ok ds) : (ds.map DiscoveredBurn.noteId).Nodup := by
  rw [map_of_mapM_ok (k := BurnRow.noteId) h fun b d hd => decodeBurn_noteId hd]
  exact queue_nodup s _

/-- The ready burns are burns of the queue, below both bounds. -/
theorem burnsReady_ok {faucet : AccountId} {lag : BlockNumber} {depth : Nat} {ds : List DiscoveredBurn}
    (h : s.burnsReadyForWithdrawal C faucet lag depth = .ok ds) :
    ds = [] ∨ ∃ all st cp, s.loadBurns C faucet false = .ok all ∧ s.state = some st ∧ st.checkpoint = some cp ∧
      depth ≤ cp.blockNum ∧ ds = all.filter fun d => decide (d.consumptionBlock ≤ min lag (cp.blockNum - depth)) := by
  rw [burnsReadyForWithdrawal, bind_ok] at h
  obtain ⟨checkpoint, hcp, h⟩ := h
  simp only [Store.checkpoint, orThrow_bind_ok, pure_ok] at hcp
  obtain ⟨st, hst, rfl⟩ := hcp
  split at h
  · exact Or.inl (pure_ok.1 h).symm
  · rename_i cp hcp
    split at h
    · exact Or.inl (pure_ok.1 h).symm
    · rename_i hdepth
      rw [bind_ok] at h
      obtain ⟨all, hall, h⟩ := h
      exact Or.inr ⟨all, st, cp, hall, hst, hcp, not_lt.1 hdepth, (pure_ok.1 h).symm⟩

/-- A ready burn is fresh, and consumed at or below both bounds. -/
theorem mem_burnsReady {faucet : AccountId} {lag : BlockNumber} {depth : Nat} {ds : List DiscoveredBurn}
    (h : s.burnsReadyForWithdrawal C faucet lag depth = .ok ds) {d : DiscoveredBurn} (hd : d ∈ ds) :
    FreshBurn s d ∧ ∃ st cp, s.state = some st ∧ st.checkpoint = some cp ∧ depth ≤ cp.blockNum ∧
      d.consumptionBlock ≤ min lag (cp.blockNum - depth) := by
  rcases burnsReady_ok h with rfl | ⟨all, st, cp, hall, hst, hcp, hdepth, rfl⟩
  · cases hd
  · obtain ⟨hmem, hle⟩ := List.mem_filter.1 hd
    exact ⟨mem_loadBurns hall hmem, st, cp, hst, hcp, hdepth, of_decide_eq_true hle⟩

theorem burnsReady_nodup {faucet : AccountId} {lag : BlockNumber} {depth : Nat} {ds : List DiscoveredBurn}
    (h : s.burnsReadyForWithdrawal C faucet lag depth = .ok ds) : (ds.map DiscoveredBurn.noteId).Nodup := by
  rcases burnsReady_ok h with rfl | ⟨all, st, cp, hall, -, -, -, rfl⟩
  · exact List.nodup_nil
  · exact (loadBurns_nodup hall).sublist (List.filter_sublist.map _)

theorem selectSubmissions_nodup {status : SubmissionStatus} {rows : List SavedSubmission}
    (h : s.selectSubmissions C none (some status) = .ok rows) : (rows.map SavedSubmission.noteId).Nodup := by
  simp only [selectSubmissions, ensure_bind_ok, pure_ok] at h
  obtain ⟨-, rfl⟩ := h
  exact s.submissions.nodup_keys.sublist (List.filter_sublist.map _)

/-! ## The burn every later one queues behind -/

theorem queue_sorted (s : Store) (p : BurnRow → Bool) : (s.queue p).Pairwise fun a b => a.place ≤ b.place := by
  have : Std.Total fun a b : BurnRow => a.place ≤ b.place := ⟨fun a b => le_total a.place b.place⟩
  have : IsTrans BurnRow fun a b => a.place ≤ b.place := ⟨fun _ _ _ h h' => le_trans h h'⟩
  exact List.pairwise_insertionSort _ _

/-- No two burns have one place. -/
theorem queue_strict (s : Store) (p : BurnRow → Bool) : (s.queue p).Pairwise fun a b => a.place < b.place := by
  have hne : (s.queue p).Pairwise fun a b => a.noteId ≠ b.noteId := List.pairwise_map.1 (queue_nodup s p)
  refine ((queue_sorted s p).and hne).imp fun {a b} h => lt_of_le_of_ne h.1 fun he => h.2 ?_
  exact congrArg (fun x => (ofLex x).2) he

/-- The place of a burn as it is read from its row. -/
def DiscoveredBurn.place (d : DiscoveredBurn) : Lex (Nat × NoteId) := toLex (d.creationBlock, d.noteId)

theorem decodeBurn_place {faucet : AccountId} {b : BurnRow} {d : DiscoveredBurn} (h : decodeBurn C faucet b = .ok d) :
    d.place = b.place := by
  rw [DiscoveredBurn.place, BurnRow.place, decodeBurn_noteId h, (decodeBurn_ok h).2.1]

/-- The ready burns stand in the order they are withdrawn in. -/
theorem burnsReady_sorted {faucet : AccountId} {lag : BlockNumber} {depth : Nat} {ds : List DiscoveredBurn}
    (h : s.burnsReadyForWithdrawal C faucet lag depth = .ok ds) : ds.Pairwise fun a b => a.place < b.place := by
  rcases burnsReady_ok h with rfl | ⟨all, st, cp, hall, -, -, -, rfl⟩
  · exact List.Pairwise.nil
  · have hplaces : (all.map DiscoveredBurn.place).Pairwise (· < ·) := by
      rw [map_of_mapM_ok (k := BurnRow.place) hall fun b d hd => decodeBurn_place hd]
      exact List.pairwise_map.2 (queue_strict s _)
    exact List.Pairwise.sublist List.filter_sublist (List.pairwise_map.1 hplaces)

/-- The head of a queue is in it, and no burn of the queue comes before it. -/
theorem queue_head {p : BurnRow → Bool} {b : BurnRow} (h : (s.queue p).head? = some b) :
    s.burn b.noteId = some b ∧ p b = true ∧ ∀ m c, s.burn m = some c → p c = true → b.place ≤ c.place := by
  obtain ⟨rest, hq⟩ := List.head?_eq_some_iff.1 h
  have hb := mem_queue.1 (hq ▸ List.mem_cons_self : b ∈ s.queue p)
  refine ⟨hb.1, hb.2, fun m c hc hp => ?_⟩
  have hmem : c ∈ s.queue p := mem_queue.2 ⟨(burn_noteId hc).symm ▸ hc, hp⟩
  have hsorted := queue_sorted s p
  rw [hq] at hmem hsorted
  rcases List.mem_cons.1 hmem with rfl | hmem
  · exact le_rfl
  · exact (List.pairwise_cons.1 hsorted).1 c hmem

theorem firstLimitWait_eq_some {wait : LimitWait} (h : s.firstLimitWait = some wait) :
    ∃ b, s.burn wait.noteId = some b ∧ b.limitRetryAt = some wait.retryAt ∧
      b.place = toLex (wait.creationBlock, wait.noteId) ∧
      ∀ m c, s.burn m = some c → c.limitRetryAt.isSome → b.place ≤ c.place := by
  obtain ⟨b, hb, h⟩ := Option.bind_eq_some_iff.1 h
  obtain ⟨t, ht, h⟩ := Option.bind_eq_some_iff.1 h
  obtain ⟨hburn, -, hfirst⟩ := queue_head hb
  cases h
  exact ⟨b, hburn, ht, rfl, hfirst⟩

theorem firstLimitWait_eq_none (h : s.firstLimitWait = none) {m : NoteId} {c : BurnRow} (hc : s.burn m = some c) :
    c.limitRetryAt = none := by
  by_contra hne
  have hsome := Option.isSome_iff_ne_none.2 hne
  have hmem : c ∈ s.queue fun b => b.limitRetryAt.isSome := mem_queue.2 ⟨(burn_noteId hc).symm ▸ hc, hsome⟩
  cases hq : (s.queue fun b => b.limitRetryAt.isSome).head? with
  | none =>
    rw [List.head?_eq_none_iff.1 hq] at hmem
    cases hmem
  | some b =>
    obtain ⟨t, ht⟩ := Option.isSome_iff_exists.1 (queue_head hq).2.1
    simp [firstLimitWait, hq, ht] at h

/-! ## Counting since the cycle began -/

theorem since_cons (p : Act → Bool) (e : Entry) (L : List Entry) :
    since p (e :: L) = if e.act.isCycle then 0 else (if p e.act then 1 else 0) + since p L := rfl

theorem AtHand.worked {n : NoteId} (h : AtHand L n) : Worked L n := by
  obtain ⟨newer, s1, older, rfl, hnew⟩ := h
  unfold Worked
  induction newer with
  | nil => simp [since_cons, Act.isCycle, Act.opens]
  | cons e newer ih =>
    have hrest := ih fun x hx => hnew x (List.mem_cons_of_mem _ hx)
    have hcycle : e.act.isCycle = false := by
      have habout := hnew e List.mem_cons_self
      cases hact : e.act with
      | cycle config => rw [hact] at habout; exact habout.elim
      | _ => rfl
    rw [List.cons_append, since_cons, hcycle]
    simp only [Bool.false_eq_true, if_false]
    omega

/-- A request is sent only for an item. -/
theorem legal_requests (h : Legal C L s) (n : NoteId) (hn : ¬ Worked L n) :
    since (Act.prepares n) L = 0 ∧ since (Act.posts n) L = 0 ∧ since (Act.gets n) L = 0 := by
  revert hn
  refine h.induct (P := fun L _ => ¬ Worked L n →
    since (Act.prepares n) L = 0 ∧ since (Act.posts n) L = 0 ∧ since (Act.gets n) L = 0) (fun _ => ⟨rfl, rfl, rfl⟩) ?_
  intro L s s' a _ ih ha hn
  simp only [Worked, since_cons] at hn ih ⊢
  cases a with
  | cycle config => exact ⟨rfl, rfl, rfl⟩
  | prepare burn fee reply =>
    have hn : ¬ Worked L n := by simpa [Act.isCycle, Act.opens, Worked] using hn
    have hne : burn.noteId ≠ n := fun e => hn (e ▸ ha.2.1.1.worked)
    simpa [Act.isCycle, Act.prepares, Act.posts, Act.gets, hne] using ih hn
  | post m request reply =>
    have hn : ¬ Worked L n := by simpa [Act.isCycle, Act.opens, Worked] using hn
    have hne : m ≠ n := fun e => hn (e ▸ ha.2.1.worked)
    simpa [Act.isCycle, Act.prepares, Act.posts, Act.gets, hne] using ih hn
  | get m request reply =>
    have hn : ¬ Worked L n := by simpa [Act.isCycle, Act.opens, Worked] using hn
    have hne : m ≠ n := fun e => hn (e ▸ ha.2.1.worked)
    simpa [Act.isCycle, Act.prepares, Act.posts, Act.gets, hne] using ih hn
  | withdraw m =>
    have hn : ¬ Worked L n := by
      intro hw
      simp only [Act.isCycle, Bool.false_eq_true, if_false] at hn
      exact hn (by unfold Worked at hw; omega)
    simpa [Act.isCycle, Act.prepares, Act.posts, Act.gets] using ih hn
  | discovered | snapshot | sign | clock | commit | refused =>
    have hn : ¬ Worked L n := by simpa [Act.isCycle, Act.opens, Worked] using hn
    simpa [Act.isCycle, Act.prepares, Act.posts, Act.gets] using ih hn

/-- Nothing is taken up before the work lists are. -/
theorem legal_unworked (h : Legal C L s) (hwork : workOf L = none) (n : NoteId) : ¬ Worked L n := by
  revert hwork
  refine h.induct (P := fun L _ => workOf L = none → ¬ Worked L n) (fun _ h => h rfl) ?_
  intro L s s' a _ ih ha hwork
  cases a with
  | cycle config => exact fun h => h rfl
  | snapshot work => cases hwork
  | withdraw m =>
    obtain ⟨-, -, work, hw, -⟩ := ha
    rw [workOf, hw] at hwork
    cases hwork
  | discovered | prepare | sign | post | get | clock | commit | refused =>
    simpa [Worked, since_cons, Act.isCycle, Act.opens] using ih hwork

/-- **Once a cycle.** Each note is taken up, prepared, posted and looked up at most once. -/
theorem legal_once (h : Legal C L s) (n : NoteId) :
    since (Act.opens n) L ≤ 1 ∧ since (Act.prepares n) L ≤ 1 ∧ since (Act.posts n) L ≤ 1 ∧
      since (Act.gets n) L ≤ 1 := by
  refine h.induct (P := fun L _ => since (Act.opens n) L ≤ 1 ∧ since (Act.prepares n) L ≤ 1 ∧
    since (Act.posts n) L ≤ 1 ∧ since (Act.gets n) L ≤ 1) (by simp [since]) ?_
  intro L s s' a _ ih ha
  simp only [since_cons]
  cases a with
  | cycle config => simp [Act.isCycle]
  | prepare burn fee reply =>
    by_cases hn : burn.noteId = n
    · have h0 : since (Act.prepares n) L = 0 := hn ▸ ha.2.2.1
      simp only [Act.isCycle, Act.opens, Act.prepares, Act.posts, Act.gets, hn, h0]
      simpa using ⟨ih.1, ih.2.2⟩
    · simpa [Act.isCycle, Act.opens, Act.prepares, Act.posts, Act.gets, hn] using ih
  | post m request reply =>
    by_cases hn : m = n
    · have h0 : since (Act.posts n) L = 0 := hn ▸ ha.2.2.1
      simp only [Act.isCycle, Act.opens, Act.prepares, Act.posts, Act.gets, hn, h0]
      simpa using ⟨ih.1, ih.2.1, ih.2.2.2⟩
    · simpa [Act.isCycle, Act.opens, Act.prepares, Act.posts, Act.gets, hn] using ih
  | get m request reply =>
    by_cases hn : m = n
    · have h0 : since (Act.gets n) L = 0 := hn ▸ ha.2.2.1
      simp only [Act.isCycle, Act.opens, Act.prepares, Act.posts, Act.gets, hn, h0]
      simpa using ⟨ih.1, ih.2.1, ih.2.2.1⟩
    · simpa [Act.isCycle, Act.opens, Act.prepares, Act.posts, Act.gets, hn] using ih
  | withdraw m =>
    by_cases hn : m = n
    · have h0 : since (Act.opens n) L = 0 := by
        have := ha.2.1
        rw [hn] at this
        exact not_not.1 this
      simp only [Act.isCycle, Act.opens, Act.prepares, Act.posts, Act.gets, hn, h0]
      simpa using ih.2
    · simpa [Act.isCycle, Act.opens, Act.prepares, Act.posts, Act.gets, hn] using ih
  | discovered | snapshot | sign | clock | commit | refused =>
    simpa [Act.isCycle, Act.opens, Act.prepares, Act.posts, Act.gets] using ih

/-! ## The snapshots stay true -/

/-- What is still known of the items whose turn has not come. -/
structure Pending (L : List Entry) (s : Store) (work : Work) : Prop where
  recover : ∀ r ∈ work.recover, ¬ Worked L r.noteId → s.row r.noteId = some r ∧ r.status = .submitting
  ready : ∀ d ∈ work.ready, ¬ Worked L d.noteId → FreshBurn s d
  poll : ∀ r ∈ work.poll, ¬ Worked L r.noteId → s.row r.noteId = some r ∧ r.status = .submitted

/-- A release touches no submission but a held one and no burn but a held one. -/
theorem row_of_release {w : Write} (hw : w.apply C s = .ok s') (hrel : w.isRelease = true) {n : NoteId}
    {r : SavedSubmission} (hr : s.row n = some r) (hst : r.status ≠ .held) : s'.row n = some r := by
  rcases (Write.release_frame hw hrel n).2 with he | ⟨r', hr', hh, -⟩
  · rw [he, hr]
  · rw [hr] at hr'
    cases hr'
    exact absurd hh hst

theorem fresh_of_release {w : Write} (hw : w.apply C s = .ok s') (hrel : w.isRelease = true) {d : DiscoveredBurn}
    (hd : FreshBurn s d) : FreshBurn s' d := by
  obtain ⟨⟨b, hb, hnote, hblock, hc, hh⟩, hrow⟩ := hd
  obtain ⟨hburn, hr⟩ := Write.release_frame hw hrel d.noteId
  constructor
  · rcases hburn with he | ⟨b', hb', hheld, -⟩
    · exact ⟨b, he ▸ hb, hnote, hblock, hc, hh⟩
    · rw [hb] at hb'
      cases hb'
      rw [hh] at hheld
      cases hheld
  · intro r hr'
    rcases hr with he | ⟨r', -, -, hnone⟩
    · exact hrow r (he ▸ hr')
    · rw [hnone] at hr'
      cases hr'

/-- Scanning a block keeps the submissions and every consumed burn. -/
theorem scan_keeps {cs : List BurnCandidate} {ds : List DiscoveredBurn} {hd : BlockHeader}
    (h : s.saveScanProgress cs ds hd = .ok s') :
    (∀ n, s'.row n = s.row n) ∧
      ∀ n b, s.burn n = some b → b.consumptionBlock.isSome → s'.burn n = some b := by
  obtain ⟨-, s1, s2, st, h1, h2, -, rfl⟩ := saveScanProgress_ok h
  show (∀ n, s2.row n = s.row n) ∧ ∀ n b, s.burn n = some b → b.consumptionBlock.isSome → s2.burn n = some b
  refine scan_induct (P := fun z => (∀ n, z.row n = s.row n) ∧
    ∀ n b, s.burn n = some b → b.consumptionBlock.isSome → z.burn n = some b)
    (fun a c z _ ha hz => ?_) (fun a d z _ ha hz => ?_) ⟨fun _ => rfl, fun _ _ hb _ => hb⟩ h1 h2
  · obtain ⟨hnone, -, rfl⟩ := insertCandidate_ok hz
    refine ⟨ha.1, fun n b hb hc => ?_⟩
    have hk := ha.2 n b hb hc
    refine (Write.putBurn_ne (n := c.noteId) rfl fun e => ?_).trans hk
    rw [e, hnone] at hk
    cases hk
  · rcases insertBurn_ok hz with ⟨-, hnone, -, rfl⟩ | ⟨b0, hb0, hnone, -, rfl⟩
    · refine ⟨ha.1, fun n b hb hc => ?_⟩
      have hk := ha.2 n b hb hc
      refine (Write.putBurn_ne (n := d.noteId) rfl fun e => ?_).trans hk
      rw [e, hnone] at hk
      cases hk
    · refine ⟨ha.1, fun n b hb hc => ?_⟩
      have hk := ha.2 n b hb hc
      have hid : ({ b0 with consumptionBlock := some d.consumptionBlock } : BurnRow).noteId = d.noteId :=
        show b0.noteId = _ from burn_noteId hb0
      refine (Write.putBurn_ne hid fun e => ?_).trans hk
      rw [e, hb0] at hk
      cases hk
      rw [hnone] at hc
      cases hc

/-- What was recorded of a burn stays; only its consumption may still be added. -/
def Recorded (b b' : BurnRow) : Prop :=
  b'.note = b.note ∧ b'.creationBlock = b.creationBlock ∧
    (b.consumptionBlock.isSome → b'.consumptionBlock = b.consumptionBlock)

theorem Recorded.trans {a b c : BurnRow} (h : Recorded a b) (h' : Recorded b c) : Recorded a c := by
  refine ⟨h'.1.trans h.1, h'.2.1.trans h.2.1, fun hs => ?_⟩
  have hab := h.2.2 hs
  exact (h'.2.2 (hab ▸ hs)).trans hab

theorem scan_recorded {cs : List BurnCandidate} {ds : List DiscoveredBurn} {hd : BlockHeader} {n : NoteId}
    {b : BurnRow} (h : s.saveScanProgress cs ds hd = .ok s') (hb : s.burn n = some b) :
    ∃ b', s'.burn n = some b' ∧ Recorded b b' := by
  obtain ⟨-, s1, s2, st, h1, h2, -, rfl⟩ := saveScanProgress_ok h
  show ∃ b', s2.burn n = some b' ∧ Recorded b b'
  refine scan_induct (P := fun z => ∃ b', z.burn n = some b' ∧ Recorded b b') (fun a c z _ ha hz => ?_)
    (fun a d z _ ha hz => ?_) ⟨b, hb, rfl, rfl, fun _ => rfl⟩ h1 h2
  · obtain ⟨b', hb', hrec⟩ := ha
    obtain ⟨hnone, -, rfl⟩ := insertCandidate_ok hz
    refine ⟨b', (Write.putBurn_ne (n := c.noteId) rfl fun e => ?_).trans hb', hrec⟩
    rw [← e, hb'] at hnone
    cases hnone
  · obtain ⟨b', hb', hrec⟩ := ha
    rcases insertBurn_ok hz with ⟨-, hnone, -, rfl⟩ | ⟨b0, hb0, hnone, -, rfl⟩
    · refine ⟨b', (Write.putBurn_ne (n := d.noteId) rfl fun e => ?_).trans hb', hrec⟩
      rw [← e, hb'] at hnone
      cases hnone
    · have hid : ({ b0 with consumptionBlock := some d.consumptionBlock } : BurnRow).noteId = d.noteId :=
        show b0.noteId = _ from burn_noteId hb0
      by_cases hn : n = d.noteId
      · subst hn
        obtain rfl : b' = b0 := Option.some.inj (hb'.symm.trans hb0)
        refine ⟨_, putBurn_burn_self hid, hrec.trans ⟨rfl, rfl, fun hs => ?_⟩⟩
        rw [hnone] at hs
        cases hs
      · exact ⟨b', (Write.putBurn_ne hid hn).trans hb', hrec⟩

theorem recorded_of_commit {w : Write} {n : NoteId} {b : BurnRow} (hw : w.apply C s = .ok s') (hok : WriteOk C L s w)
    (hb : s.burn n = some b) : ∃ b', s'.burn n = some b' ∧ Recorded b b' := by
  have hfacts : w.note.isSome ∨ w.isRelease = true → ∃ b', s'.burn n = some b' ∧ Recorded b b' := by
    intro hnote
    have hf := (Write.apply_facts hw hnote).1 n
    rw [hb] at hf
    obtain ⟨b', hb', hfb⟩ := Option.map_eq_some_iff.1 hf
    simp only [BurnRow.facts, Prod.mk.injEq] at hfb
    exact ⟨b', hb', hfb.1, hfb.2.1, fun _ => hfb.2.2⟩
  cases w with
  | create faucet anchor => rw [show s = .blank from hok] at hb; cases hb
  | scan cs ds hd => exact scan_recorded hw hb
  | save | outcome | hold | advance | limit => exact hfacts (Or.inl rfl)
  | release | releaseAll => exact hfacts (Or.inr rfl)

/-- A recorded burn is recorded for good. -/
theorem legal_recorded {later : List Entry} {n : NoteId} {b : BurnRow} (h : Legal C (later ++ L) s)
    (hb : (storeOf L).burn n = some b) : ∃ b', s.burn n = some b' ∧ Recorded b b' := by
  refine h.forward (P := fun _ s => ∃ b', s.burn n = some b' ∧ Recorded b b')
    ⟨b, hb, rfl, rfl, fun _ => rfl⟩ fun _ _ ⟨b', hb', hrec⟩ ha => ?_
  rcases ha.store with rfl | ⟨w, -, hw, hok⟩
  · exact ⟨b', hb', hrec⟩
  · obtain ⟨b2, hb2, hrec2⟩ := recorded_of_commit hw hok hb'
    exact ⟨b2, hb2, hrec.trans hrec2⟩

/-- A step of an item is a step of a note already taken up, or a new deadline. -/
theorem WriteOk.worked {w : Write} {n : NoteId} (h : WriteOk C L s w) (hn : w.note = some n) :
    Worked L n ∨ ∃ t, w = .advance n t := by
  cases w with
  | save rec =>
    cases hn
    obtain ⟨d, hd, hf⟩ := h
    exact Or.inl (hd ▸ hf.1.worked)
  | outcome out => cases hn; exact Or.inl h.1.worked
  | hold k reason resp =>
    cases hn
    obtain ⟨d, hd, hf⟩ := h
    exact Or.inl (hd ▸ hf.1.worked)
  | advance k t => cases hn; exact Or.inr ⟨t, rfl⟩
  | limit k t body sub => cases hn; exact Or.inl h.1.worked
  | create | scan | release | releaseAll => cases hn

/-- The row of a note whose turn has not come changes only by an operator's release of a held one. -/
theorem row_of_commit {w : Write} (hw : w.apply C s = .ok s') (hok : WriteOk C L s w) {n : NoteId}
    (hn : ¬ Worked L n) {r : SavedSubmission} (hr : s.row n = some r) (hst : r.status ≠ .held) :
    s'.row n = some r := by
  cases hnote : w.note with
  | some m =>
    by_cases hm : n = m
    · rcases hok.worked hnote with hwork | ⟨t, rfl⟩
      · exact absurd (hm ▸ hwork) hn
      · obtain ⟨b, -, -, rfl⟩ := advanceLimitRetry_ok hw
        exact hr
    · rw [(Write.apply_frame hw hnote hm).2, hr]
  | none =>
    cases w with
    | create faucet anchor => rw [show s = .blank from hok] at hr; cases hr
    | scan cs ds hd => rw [(scan_keeps hw).1, hr]
    | release | releaseAll => exact row_of_release hw rfl hr hst
    | save | outcome | hold | advance | limit => cases hnote

theorem fresh_of_commit {w : Write} (hw : w.apply C s = .ok s') (hok : WriteOk C L s w) {d : DiscoveredBurn}
    (hn : ¬ Worked L d.noteId) (hd : FreshBurn s d) : FreshBurn s' d := by
  cases hnote : w.note with
  | some m =>
    by_cases hm : d.noteId = m
    · rcases hok.worked hnote with hwork | ⟨t, rfl⟩
      · exact absurd (hm ▸ hwork) hn
      · obtain ⟨⟨b, hb, hnt, hblock, hc, hh⟩, hrow⟩ := hd
        obtain ⟨b', hb', -, rfl⟩ := advanceLimitRetry_ok hw
        cases hnote
        rw [hm, hb'] at hb
        cases hb
        refine ⟨⟨{ b with limitRetryAt := some t }, ?_, hnt, hblock, hc, hh⟩, hrow⟩
        rw [hm]
        exact putBurn_burn_self (burn_noteId (s := s) (b := b) hb')
    · obtain ⟨h1, h2⟩ := Write.apply_frame hw hnote hm
      unfold FreshBurn
      rw [h1, h2]
      exact hd
  | none =>
    cases w with
    | create faucet anchor =>
      obtain ⟨⟨b, hb, -⟩, -⟩ := hd
      rw [show s = .blank from hok] at hb
      cases hb
    | scan cs ds hdr =>
      obtain ⟨⟨b, hb, hnt, hblock, hc, hh⟩, hrow⟩ := hd
      obtain ⟨h1, h2⟩ := scan_keeps hw
      exact ⟨⟨b, h2 _ b hb (by rw [hc]; rfl), hnt, hblock, hc, hh⟩, fun r hr => hrow r (h1 _ ▸ hr)⟩
    | release | releaseAll => exact fresh_of_release hw rfl hd
    | save | outcome | hold | advance | limit => cases hnote

theorem Pending.commit {work : Work} {w : Write} (h : Pending L s work) (hw : w.apply C s = .ok s')
    (hok : WriteOk C L s w) {e : Entry} (he : e.act = .commit w) : Pending (e :: L) s' work := by
  have hworked : ∀ n, ¬ Worked (e :: L) n → ¬ Worked L n := by
    intro n hn
    simpa [Worked, since_cons, he, Act.isCycle, Act.opens] using hn
  refine ⟨fun r hr hn => ?_, fun d hd hn => ?_, fun r hr hn => ?_⟩
  · obtain ⟨hrow, hst⟩ := h.recover r hr (hworked _ hn)
    exact ⟨row_of_commit hw hok (hworked _ hn) hrow (by rw [hst]; decide), hst⟩
  · exact fresh_of_commit hw hok (hworked _ hn) (h.ready d hd (hworked _ hn))
  · obtain ⟨hrow, hst⟩ := h.poll r hr (hworked _ hn)
    exact ⟨row_of_commit hw hok (hworked _ hn) hrow (by rw [hst]; decide), hst⟩

/-- Acts that leave the store alone only add to what has been taken up. -/
theorem Pending.skip {work : Work} (h : Pending L s work) {e : Entry} (he : e.act.isCycle = false) :
    Pending (e :: L) s work := by
  have hworked : ∀ n, ¬ Worked (e :: L) n → ¬ Worked L n := by
    intro n hn hw
    refine hn ?_
    simp only [Worked, since_cons, he, Bool.false_eq_true, if_false] at hw ⊢
    omega
  exact ⟨fun r hr hn => h.recover r hr (hworked _ hn), fun d hd hn => h.ready d hd (hworked _ hn),
    fun r hr hn => h.poll r hr (hworked _ hn)⟩

/-- The work lists of a cycle are those of its one snapshot. -/
theorem legal_snapshot (h : Legal C L s) {work : Work} (hwork : workOf L = some work) :
    ∃ newer s0 older, L = newer ++ ⟨.snapshot work, s0⟩ :: older ∧ s0 = storeOf older ∧ Snapshot C older s0 work ∧
      configOf L = configOf older ∧ lagOf L = lagOf older := by
  revert work
  refine h.induct (P := fun L _ => ∀ {work : Work}, workOf L = some work → ∃ newer s0 older,
    L = newer ++ ⟨.snapshot work, s0⟩ :: older ∧ s0 = storeOf older ∧ Snapshot C older s0 work ∧
      configOf L = configOf older ∧ lagOf L = lagOf older) (fun hwork => by cases hwork) ?_
  intro L s s' a hL ih ha work hwork
  cases a with
  | cycle config => cases hwork
  | snapshot work' =>
    cases hwork
    obtain ⟨rfl, -, hsnap⟩ := ha
    exact ⟨[], s', L, rfl, hL.storeOf_eq.symm, hsnap, rfl, rfl⟩
  | discovered lag =>
    rw [workOf, ha.2] at hwork
    cases hwork
  | withdraw | prepare | sign | post | get | clock | commit | refused =>
    obtain ⟨newer, s0, older, hlog, hs0, hsnap, hcfg, hlag⟩ := ih hwork
    exact ⟨_ :: newer, s0, older, by rw [hlog]; rfl, hs0, hsnap, hcfg, hlag⟩

/-- **The snapshots stay true** until an item's turn comes. -/
theorem legal_pending (h : Legal C L s) {work : Work} (hwork : workOf L = some work) : Pending L s work := by
  revert work
  refine h.induct (P := fun L s => ∀ {work : Work}, workOf L = some work → Pending L s work)
    (fun hwork => by cases hwork) ?_
  intro L s s' a _ ih ha work hwork
  cases a with
  | cycle config => cases hwork
  | snapshot work' =>
    cases hwork
    obtain ⟨rfl, -, hrec, hpoll, hready, -⟩ := ha
    refine ⟨fun r hr _ => (mem_selectSubmissions hrec).1 hr, fun d hd _ => ?_,
      fun r hr _ => (mem_selectSubmissions hpoll).1 hr⟩
    rcases hready with he | ⟨config, lag, -, -, hready⟩
    · rw [he] at hd; cases hd
    · exact (mem_burnsReady hready hd).1
  | commit w => exact (ih hwork).commit ha.1 ha.2 rfl
  | clock now =>
    obtain rfl := ha
    exact (ih hwork).skip rfl
  | discovered | withdraw | prepare | sign | post | get | refused =>
    obtain rfl := ha.1
    exact (ih hwork).skip rfl

/-- The three lists name different notes, and each note once. -/
theorem Snapshot.nodup {work : Work} (h : Snapshot C L s work) : work.notes.Nodup := by
  obtain ⟨hrec, hpoll, hready, -⟩ := h
  have hfresh : ∀ d ∈ work.ready, FreshBurn s d := by
    intro d hd
    rcases hready with he | ⟨config, lag, -, -, hready⟩
    · rw [he] at hd; cases hd
    · exact (mem_burnsReady hready hd).1
  have hnodup : (work.ready.map DiscoveredBurn.noteId).Nodup := by
    rcases hready with he | ⟨config, lag, -, -, hready⟩
    · rw [he]; exact List.nodup_nil
    · exact burnsReady_nodup hready
  -- the lists differ in the status of the row
  have hne : ∀ {n : NoteId} {r : SavedSubmission} {d : DiscoveredBurn}, d ∈ work.ready → d.noteId = n →
      s.row n = some r → r.status = .expired := fun hd hn hr => (hfresh _ hd).2 _ (hn ▸ hr)
  refine List.nodup_append.2 ⟨List.nodup_append.2 ⟨selectSubmissions_nodup hrec, hnodup, ?_⟩,
    selectSubmissions_nodup hpoll, ?_⟩
  · intro n hn m hm e
    obtain ⟨r, hr, rfl⟩ := List.mem_map.1 hn
    obtain ⟨d, hd, rfl⟩ := List.mem_map.1 hm
    obtain ⟨hrow, hst⟩ := (mem_selectSubmissions hrec).1 hr
    have := hne hd e.symm hrow
    rw [hst] at this
    cases this
  · intro n hn m hm e
    obtain ⟨r, hr, rfl⟩ := List.mem_map.1 hm
    obtain ⟨hrow, hst⟩ := (mem_selectSubmissions hpoll).1 hr
    rcases List.mem_append.1 hn with hn | hn
    · obtain ⟨r', hr', rfl⟩ := List.mem_map.1 hn
      obtain ⟨hrow', hst'⟩ := (mem_selectSubmissions hrec).1 hr'
      rw [e, hrow] at hrow'
      cases hrow'
      rw [hst] at hst'
      cases hst'
    · obtain ⟨d, hd, rfl⟩ := List.mem_map.1 hn
      have := hne hd e hrow
      rw [hst] at this
      cases this

end LightAttester
