import MidenUsdcx.Attester.Refinement
import MidenUsdcx.Attester.Calls
/-!
# No withdrawals on a diverged chain (`attester.rs:140-178`, `372-402`, `459-526`, `721-773`)

| here | there |
| --- | --- |
| `Diverges` | what `DiscoverError::ChainDiverged` stands for: a shorter tip, another block at the checkpoint's height, a next block that does not authenticate |
| `Unread` | `DiscoverError::Chain`: the node did not answer |
| `Confirms` | the node's block at the checkpoint's height is the saved one |

The results are about the calls of one process, started on any store that earlier processes left.
Discovery reads the chain, and what it read last decides what the process may still call: nothing
after a diverging answer, only what is known already after a missing one.
-/
namespace LightAttester
open Checked Interact Keyed Store

/-- The answer shows that the node is not on the chain of the saved checkpoint. -/
def Diverges (C : Crates) (config : Config) : CallEvent → Prop
  | ⟨.scanLimits, answer, w⟩ => ∃ h limits, w.store.checkpoint = .ok (some h) ∧ answer = Except.ok limits ∧
      limits.latestCommittedBlock < h.blockNum ∧ config.trustedAnchor.blockNum < h.blockNum
  | ⟨.blockByNumber k, answer, w⟩ => ∃ h block, w.store.checkpoint = .ok (some h) ∧ answer = Except.ok block ∧
      (k = h.blockNum ∧ block.header.commitment ≠ h.commitment ∨
        k = h.blockNum + 1 ∧ (block.header.blockNum ≠ k ∨ C.validate block (some h) = false))
  | _ => False

/-- The node did not answer. -/
def Unread : CallEvent → Prop
  | ⟨.scanLimits, answer, _⟩ => ∃ e : ChainError, answer = Except.error e
  | ⟨.blockByNumber _, answer, _⟩ => ∃ e : ChainError, answer = Except.error e
  | _ => False

/-- The node has the saved block at its height. -/
def Confirms (h : BlockHeader) : CallEvent → Prop
  | ⟨.blockByNumber k, answer, _⟩ => k = h.blockNum ∧ ∃ block, answer = Except.ok block ∧
      block.header.commitment = h.commitment
  | _ => False

/-- The calls of the current cycle, newest first. -/
def sinceCycle (T : List CallEvent) : List CallEvent := T.takeWhile fun ev => !ev.op.isCycle

/-- A cycle in which the chain could not be read takes up no new burn. -/
def Quiet (T : List CallEvent) : Prop :=
  (∃ ev ∈ sinceCycle T, Unread ev) → ∀ ev ∈ sinceCycle T, ev.op.isFresh = false

/-- What holds of one process over the store it finds. -/
structure StopsOnDivergence (C : Crates) (config : Config) (cycles : Nat) (w : World) (env : List Env) : Prop where
  /-- A diverging answer in a cycle is the last call. The process ends with the store it had then. -/
  halted : ∀ newer ev older, Prog.trace (handler C) (serve C config cycles).run env w = newer ++ ev :: older →
    (∃ m ∈ older, m.op.isCycle = true) → Diverges C config ev →
    newer = [] ∧ (Prog.run (handler C) (serve C config cycles).run env w).1.isSome = true ∧
      (Prog.run (handler C) (serve C config cycles).run env w).2.2.store = ev.state.store
  /-- While the node does not confirm the checkpoint, a start ends with nothing sent and nothing saved. -/
  silent : ∀ h, w.store.checkpoint = .ok (some h) →
    (∀ ev ∈ Prog.trace (handler C) (serve C config cycles).run env w, ¬ Confirms h ev) →
    (∀ ev ∈ Prog.trace (handler C) (serve C config cycles).run env w, ev.op.isTraffic = false) ∧
      (Prog.run (handler C) (serve C config cycles).run env w).2.2.store = w.store ∧
      ∀ r, (Prog.run (handler C) (serve C config cycles).run env w).1 = some r → ∃ e, r = .error e
  /-- At every point: a cycle with an unanswered read has taken up no new burn. -/
  quiet : ∀ newer older, Prog.trace (handler C) (serve C config cycles).run env w = newer ++ older → Quiet older

variable {C : Crates} {config : Config} {ρ α β : Type}

/-! ## What a call adds to the trace -/

/-- No answer that a cycle read was diverging. -/
def Clean (C : Crates) (config : Config) (T : List CallEvent) : Prop :=
  ∀ newer ev older, T = newer ++ ev :: older → (∃ m ∈ older, m.op.isCycle = true) → ¬ Diverges C config ev

def Orderly (T : List CallEvent) : Prop := ∀ newer older, T = newer ++ older → Quiet older

structure Proper (C : Crates) (config : Config) (T : List CallEvent) : Prop where
  clean : Clean C config T
  orderly : Orderly T

/-- The last call may have been answered by a diverging chain. The store is as it was then. -/
def Halted (C : Crates) (config : Config) (s : Watched) : Prop :=
  ∃ ev older, s.2 = ev :: older ∧ Clean C config older ∧ s.1.store = ev.state.store

def NoFresh (T : List CallEvent) : Prop := ∀ ev ∈ sinceCycle T, ev.op.isFresh = false

def AllRead (T : List CallEvent) : Prop := ∀ ev ∈ sinceCycle T, ¬ Unread ev

section
variable {T : List CallEvent} {ev : CallEvent} {s : Watched}

theorem Clean.cons (h : Clean C config T) (hev : ¬ Diverges C config ev) : Clean C config (ev :: T) := by
  intro newer ev' older heq hm
  cases newer with
  | nil =>
    cases heq
    exact hev
  | cons x newer =>
    cases heq
    exact h newer ev' older rfl hm

theorem Orderly.cons (h : Orderly T) (hev : Quiet (ev :: T)) : Orderly (ev :: T) := by
  intro newer older heq
  cases newer with
  | nil =>
    cases heq
    exact hev
  | cons x newer =>
    cases heq
    exact h newer older rfl

theorem NoFresh.quiet (h : NoFresh T) : Quiet T := fun _ => h

theorem AllRead.quiet (h : AllRead T) : Quiet T := fun ⟨ev, hev, hu⟩ => absurd hu (h ev hev)

theorem mem_sinceCycle {ev' : CallEvent} (h : ev' ∈ sinceCycle (ev :: T)) : ev' = ev ∨ ev' ∈ sinceCycle T := by
  unfold sinceCycle at h
  rw [List.takeWhile_cons] at h
  split at h
  · exact List.mem_cons.1 h
  · cases h

theorem sinceCycle_mark (h : ev.op.isCycle = true) : sinceCycle (ev :: T) = [] := by
  unfold sinceCycle
  rw [List.takeWhile_cons]
  simp [h]

theorem NoFresh.cons (h : NoFresh T) (hev : ev.op.isFresh = false) : NoFresh (ev :: T) := by
  intro ev' hmem
  rcases mem_sinceCycle hmem with rfl | hmem
  · exact hev
  · exact h ev' hmem

theorem AllRead.cons (h : AllRead T) (hev : ¬ Unread ev) : AllRead (ev :: T) := by
  intro ev' hmem
  rcases mem_sinceCycle hmem with rfl | hmem
  · exact hev
  · exact h ev' hmem

theorem not_diverges (h : ev.op.isChain = false) : ¬ Diverges C config ev := by
  obtain ⟨o, answer, w⟩ := ev
  intro hd
  cases o <;> first | exact hd | cases h

theorem not_unread (h : ev.op.isChain = false) : ¬ Unread ev := by
  obtain ⟨o, answer, w⟩ := ev
  intro hu
  cases o <;> first | exact hu | cases h

theorem Call.works_iff {o : Call} : o.works = true ↔ o.isChain = false ∧ o.isCycle = false := by
  simp [Call.works]

theorem Call.follows_iff {o : Call} : o.follows = true ↔ o.isChain = false ∧ o.isCycle = false ∧ o.isFresh = false := by
  simp [Call.follows, Call.works, and_assoc]

theorem Proper.follow (h : Proper C config T) (hev : ev.op.follows = true) : Proper C config (ev :: T) := by
  obtain ⟨hchain, hcycle, hfresh⟩ := Call.follows_iff.1 hev
  refine ⟨h.clean.cons (not_diverges hchain), h.orderly.cons ?_⟩
  rintro ⟨u, hu, hunread⟩
  rcases mem_sinceCycle hu with rfl | hu
  · exact absurd hunread (not_unread hchain)
  · exact NoFresh.cons (h.orderly [] T rfl ⟨u, hu, hunread⟩) hfresh

theorem Proper.work (h : Proper C config T) (hread : AllRead T) (hev : ev.op.works = true) :
    Proper C config (ev :: T) ∧ AllRead (ev :: T) := by
  obtain ⟨hchain, hcycle⟩ := Call.works_iff.1 hev
  have hread' := hread.cons (not_unread hchain)
  exact ⟨⟨h.clean.cons (not_diverges hchain), h.orderly.cons hread'.quiet⟩, hread'⟩

theorem FollowsUp.meets {t : Task ρ α} (ht : FollowsUp t) (hs : Proper C config s.2) :
    Meets (handler C).traced (fun s => Proper C config s.2) t (fun _ s' => Proper C config s'.2) s :=
  Calls.meets ht (fun _ _ _ ho hs => hs.follow ho) hs

/-- After a discovery that read all it asked for, anything may follow but a new cycle. -/
theorem Works.meets {t : Task ρ α} (ht : Works t) (hs : Proper C config s.2) (hread : AllRead s.2) :
    Meets (handler C).traced (fun s => Proper C config s.2) t
      (fun _ s' => Proper C config s'.2 ∧ AllRead s'.2) s := by
  have h := Calls.meets (H := (handler C).traced) (I := fun s => Proper C config s.2 ∧ AllRead s.2) ht
    (fun _ _ _ ho hs => hs.1.work hs.2 ho) ⟨hs, hread⟩
  exact h.weaken fun _ hs => hs.1

end

/-! ## Discovery -/

/-- Discovery goes on from the saved header `h`. -/
structure Discovering (C : Crates) (config : Config) (h : BlockHeader) (s : Watched) : Prop where
  proper : Proper C config s.2
  fresh : NoFresh s.2
  read : AllRead s.2
  saved : s.1.store.checkpoint = .ok (some h)

/-- What a step of discovery leaves, by its result. -/
def Outcome (C : Crates) (config : Config) (P : α → Watched → Prop) : Except DiscoverError α → Watched → Prop
  | .ok a, s => P a s
  | .error .chainDiverged, s => Orderly s.2 ∧ (Clean C config s.2 ∨ Halted C config s)
  | .error _, s => Proper C config s.2

theorem Outcome.error {P : α → Watched → Prop} {R : β → Watched → Prop} {e : DiscoverError} {s : Watched}
    (h : Outcome C config P (.error e) s) : Outcome C config R (.error e) s := by
  cases e <;> exact h

theorem Proper.outcome {P : α → Watched → Prop} {s : Watched} (h : Proper C config s.2) (e : DiscoverError) :
    Outcome C config P (.error e) s := by
  cases e with
  | chain error => exact h
  | chainDiverged => exact ⟨h.orderly, .inl h.clean⟩
  | store error => exact h

/-- The state after a chain read, by what was answered. -/
structure Asked (C : Crates) (config : Config) (h : BlockHeader) (ev : CallEvent) (s : Watched) : Prop where
  halts : Orderly s.2 ∧ (Clean C config s.2 ∨ Halted C config s)
  proper : ¬ Diverges C config ev → Proper C config s.2
  goes : ¬ Diverges C config ev → ¬ Unread ev → Discovering C config h s

section
variable {h : BlockHeader} {s : Watched}

theorem Discovering.asked {o : Call} (hD : Discovering C config h s) (ho : o.isChain = true) (e : Env) :
    Asked C config h ⟨o, ((handler C).traced.step o e s).1, s.1⟩ ((handler C).traced.step o e s).2 := by
  have hquiet : o.isQuiet = true := by cases o <;> first | rfl | cases ho
  have hfresh : o.isFresh = false := by cases o <;> first | rfl | cases ho
  have hworld : ((handler C).traced.step o e s).2.1 = s.1 := step_quiet hquiet e s.1
  have hfresh' : NoFresh ((handler C).traced.step o e s).2.2 := hD.fresh.cons hfresh
  have horderly := hD.proper.orderly.cons hfresh'.quiet
  refine ⟨⟨horderly, .inr ⟨_, _, rfl, hD.proper.clean, congrArg World.store hworld⟩⟩, fun hd => ?_, fun hd hu => ?_⟩
  · exact ⟨hD.proper.clean.cons hd, horderly⟩
  · exact ⟨⟨hD.proper.clean.cons hd, horderly⟩, hfresh', hD.read.cons hu,
      (congrArg (·.store.checkpoint) hworld).trans hD.saved⟩

/-- A call that is no chain read and leaves the checkpoint alone. -/
theorem Discovering.follow {o : Call} {e : Env} (hD : Discovering C config h s) (ho : o.follows = true)
    (hsaved : ((handler C).step o e s.1).2.store.checkpoint = s.1.store.checkpoint) :
    Discovering C config h ((handler C).traced.step o e s).2 := by
  obtain ⟨hchain, hcycle, hfresh⟩ := Call.follows_iff.1 ho
  exact ⟨hD.proper.follow ho, hD.fresh.cons hfresh, hD.read.cons (not_unread hchain), hsaved.trans hD.saved⟩

theorem checkpoint_congr {s s' : Store} (h : s'.state = s.state) : s'.checkpoint = s.checkpoint := by
  rw [Store.checkpoint, Store.checkpoint, h]

theorem step_admin_checkpoint {o : Call} (ho : o.isAdmin = true) (e : Env) (w : World) :
    ((handler C).step o e w).2.store.checkpoint = w.store.checkpoint := by
  cases o <;> first | rfl | cases ho | skip
  case write x =>
    have hx : x.isRelease = true := by cases x <;> first | rfl | cases ho
    show (w.transact C x e.storeFails).2.store.checkpoint = _
    unfold World.transact
    split
    · rfl
    · split
      · rename_i s' hs'
        exact checkpoint_congr (Write.apply_facts hs' (.inr hx)).2.1
      · rfl

theorem Discovering.admin (hD : Discovering C config h s) :
    Meets (handler C).traced (fun s => Proper C config s.2) (adminCheckpoint : Task ρ Unit)
      (fun _ s' => Discovering C config h s') s := by
  have h := Calls.meets (H := (handler C).traced) (I := Discovering C config h) (adminCheckpoint_admin (ρ := ρ))
    (fun o e s ho hs => hs.follow (Call.follows_of_isAdmin ho) (step_admin_checkpoint ho e s.1)) hD
  exact h.weaken fun _ hs => hs.proper

/-- An answered read goes on; a failed one ends discovery. -/
theorem meets_answer {A : Type} {answer : Except ChainError A} {f : A → Task DiscoverError β} {Q : β → Watched → Prop}
    (hf : ∀ a, answer = .ok a → Meets (handler C).traced (fun s => Proper C config s.2) (f a) (Outcome C config Q) s)
    (herr : ∀ e, answer = .error e → Proper C config s.2) :
    Meets (handler C).traced (fun s => Proper C config s.2) (attempt DiscoverError.chain answer >>= f)
      (Outcome C config Q) s := by
  cases answer with
  | ok a => exact hf a rfl
  | error e => exact herr e rfl

theorem meets_block {k : BlockNumber} {f : SignedBlock → Task DiscoverError β} {Q : β → Watched → Prop}
    (hD : Discovering C config h s)
    (hf : ∀ block s', Asked C config h ⟨.blockByNumber k, (Except.ok block : Except ChainError SignedBlock), s.1⟩ s' →
      Meets (handler C).traced (fun s => Proper C config s.2) (f block) (Outcome C config Q) s') :
    Meets (handler C).traced (fun s => Proper C config s.2)
      (call (.blockByNumber k) >>= fun answer => attempt DiscoverError.chain answer >>= f) (Outcome C config Q) s := by
  refine Meets.seq (R := fun r s' => ∃ answer, r = .ok answer ∧ Asked C config h ⟨.blockByNumber k, answer, s.1⟩ s')
    (meets_call hD.proper fun e => ⟨_, rfl, hD.asked rfl e⟩) ?_ ?_
  · rintro answer s' ⟨_, hr, hasked⟩
    cases hr
    refine meets_answer (fun block hok => ?_) fun e herr => ?_
    · subst hok
      exact hf block s' hasked
    · subst herr
      exact hasked.proper (by rintro ⟨_, _, -, hok, -⟩; cases hok)
  · rintro e s' ⟨_, hr, -⟩
    cases hr

theorem meets_fetch (hD : Discovering C config h s) :
    Meets (handler C).traced (fun s => Proper C config s.2) (fetchAndVerifyBlock C (h.blockNum + 1) h)
      (Outcome C config fun block s' => Discovering C config h s' ∧ block.header.blockNum = h.blockNum + 1) s := by
  refine meets_block hD fun block s' hasked => ?_
  split
  · exact meets_throw hasked.halts
  · rename_i hok
    refine meets_pure ⟨hasked.goes ?_ ?_, Decidable.not_not.1 fun hne => hok (.inl hne)⟩
    · rintro ⟨h', block', hsaved, hblock, hcase⟩
      cases hblock
      obtain rfl : h = h' := Option.some.inj (Except.ok.inj (hD.saved.symm.trans hsaved))
      rcases hcase with ⟨hk, -⟩ | ⟨-, hbad⟩
      · exact absurd hk (Nat.succ_ne_self h.blockNum)
      · exact hok hbad
    · rintro ⟨e, he⟩
      cases he

theorem meets_check (hD : Discovering C config h s) :
    Meets (handler C).traced (fun s => Proper C config s.2) (checkCheckpoint h)
      (Outcome C config fun _ s' => Discovering C config h s') s := by
  refine meets_block hD fun block s' hasked => ?_
  split
  · exact meets_throw hasked.halts
  · rename_i hok
    refine meets_pure (hasked.goes ?_ ?_)
    · rintro ⟨h', block', hsaved, hblock, hcase⟩
      cases hblock
      obtain rfl : h = h' := Option.some.inj (Except.ok.inj (hD.saved.symm.trans hsaved))
      rcases hcase with ⟨-, hbad⟩ | ⟨hk, -⟩
      · exact hok hbad
      · exact absurd hk.symm (Nat.succ_ne_self h.blockNum)
    · rintro ⟨e, he⟩
      cases he

/-- A read of the store adds a call and changes nothing. -/
theorem meets_query {I : Watched → Prop} {read : Store → Except StoreError α} {f : StoreError → ρ}
    {Q : Except ρ α → Watched → Prop} (hs : I s)
    (hok : ∀ a answer, read s.1.store = .ok a → Q (.ok a) (s.1, ⟨.query, answer, s.1⟩ :: s.2))
    (herr : ∀ e answer, Q (.error (f e)) (s.1, ⟨.query, answer, s.1⟩ :: s.2)) :
    Meets (handler C).traced I (query f read) Q s := by
  refine Meets.seq (R := fun r s' => ∃ e, r = .ok ((handler C).traced.step .query e s).1 ∧
    s' = ((handler C).traced.step .query e s).2) (meets_call hs fun e => ⟨e, rfl, rfl⟩) ?_ ?_
  · rintro answer s' ⟨e, hr, rfl⟩
    cases hr
    cases hfails : e.storeFails with
    | true =>
      have hanswer : ((handler C).traced.step .query e s).1 = (Except.error .io : Except StoreError Store) :=
        if_pos hfails
      rw [hanswer]
      exact herr .io _
    | false =>
      have hanswer : ((handler C).traced.step .query e s).1 = (Except.ok s.1.store : Except StoreError Store) :=
        if_neg (Bool.eq_false_iff.1 hfails)
      rw [hanswer]
      exact meets_attempt (fun a ha => hok a _ ha) fun e _ => herr e _
  · rintro e s' ⟨_, hr, -⟩
    cases hr

theorem Discovering.queried {answer : Except StoreError Store} (hD : Discovering C config h s) :
    Discovering C config h (s.1, ⟨.query, answer, s.1⟩ :: s.2) :=
  ⟨hD.proper.follow rfl, hD.fresh.cons rfl, hD.read.cons (not_unread rfl), hD.saved⟩

theorem transact_ok {x : Write} {fails : Bool} {w : World} (h : (w.transact C x fails).1 = .ok ()) :
    x.apply C w.store = .ok (w.transact C x fails).2.store := by
  unfold World.transact at h ⊢
  split at h
  · cases h
  · rename_i hfails
    rw [if_neg hfails]
    split at h
    · rename_i s' hs'
      rw [hs']
      rfl
    · cases h

theorem checkpoint_state {s : Store} (hs : s.checkpoint = .ok (some h)) : ∃ st, s.state = some st := by
  cases hst : s.state with
  | none =>
    rw [Store.checkpoint, hst] at hs
    cases hs
  | some st => exact ⟨st, rfl⟩

/-- Saving a block moves the checkpoint to it. -/
theorem meets_save (hD : Discovering C config h s) (block : SignedBlock) :
    Meets (handler C).traced (fun s => Proper C config s.2) (saveBlock C config block)
      (Outcome C config fun _ s' => Discovering C config block.header s') s := by
  refine Meets.seq (R := Outcome C config fun _ s' => Discovering C config h s')
    (meets_query hD.proper (fun _ _ _ => hD.queried) fun _ _ => hD.queried.proper) ?_ fun e s' he => he.error
  rintro ⟨cs, ds⟩ s1 hD1
  refine Meets.seq (R := fun r s' => ∃ e, r = .ok ((handler C).traced.step (.write (.scan cs ds block.header)) e s1).1 ∧
    s' = ((handler C).traced.step (.write (.scan cs ds block.header)) e s1).2)
    (meets_call hD1.proper fun e => ⟨e, rfl, rfl⟩) ?_ ?_
  · rintro answer s' ⟨e, hr, rfl⟩
    cases hr
    refine meets_attempt (fun _ hok => ?_) fun _ _ => ?_
    · refine ⟨hD1.proper.follow rfl, hD1.fresh.cons rfl, hD1.read.cons (not_unread rfl), ?_⟩
      obtain ⟨st, hst⟩ := checkpoint_state hD1.saved
      have happly : s1.1.store.saveScanProgress cs ds block.header = .ok _ := transact_ok hok
      show (s1.1.transact C (.scan cs ds block.header) e.storeFails).2.store.checkpoint = _
      rw [Store.checkpoint, saveScanProgress_state happly hst]
      rfl
    · exact hD1.proper.follow rfl
  · rintro e s' ⟨_, hr, -⟩
    cases hr

theorem meets_scanBlocks (n : Nat) : ∀ {h : BlockHeader} {s : Watched}, Discovering C config h s →
    Meets (handler C).traced (fun s => Proper C config s.2) (scanBlocks C config h (List.range' (h.blockNum + 1) n))
      (Outcome C config fun _ s' => Proper C config s'.2 ∧ AllRead s'.2) s := by
  induction n with
  | zero => exact fun hD => meets_pure ⟨hD.proper, hD.read⟩
  | succ n ih =>
    intro h s hD
    rw [List.range'_succ]
    refine Meets.seq hD.admin (fun _ s1 hD1 => ?_) fun e s1 hD1 => hD1.proper.outcome e
    refine Meets.seq (meets_fetch hD1) (fun block s2 hD2 => ?_) fun e s2 he => he.error
    refine Meets.seq (meets_save hD2.1 block) (fun _ s3 hD3 => ?_) fun e s3 he => he.error
    have hrest := ih hD3
    rwa [hD2.2] at hrest

theorem meets_discoverBurns (hs : Proper C config s.2) (hfresh : NoFresh s.2) (hread : AllRead s.2) :
    Meets (handler C).traced (fun s => Proper C config s.2) (discoverBurns C config)
      (Outcome C config fun _ s' => Proper C config s'.2 ∧ AllRead s'.2) s := by
  refine Meets.seq (R := Outcome C config (Discovering C config)) (meets_query hs ?_ fun _ _ => hs.follow rfl) ?_
    fun e s' he => he.error
  · intro h answer hok
    refine ⟨hs.follow rfl, hfresh.cons rfl, hread.cons (not_unread rfl), ?_⟩
    obtain ⟨saved, hsaved, hsome⟩ := bind_ok.1 hok
    rw [hsaved, (orThrow_ok.1 hsome)]
  · intro h s1 hD
    refine Meets.seq (R := fun r s' => ∃ answer, r = .ok answer ∧ Asked C config h ⟨.scanLimits, answer, s1.1⟩ s')
      (meets_call hD.proper fun e => ⟨_, rfl, hD.asked rfl e⟩) ?_ ?_
    · rintro answer s2 ⟨_, hr, hasked⟩
      cases hr
      refine meets_answer (fun limits hok => ?_) fun e herr => ?_
      · subst hok
        have hgoes : ¬ (limits.latestCommittedBlock < h.blockNum ∧ config.trustedAnchor.blockNum < h.blockNum) →
            Discovering C config h s2 := fun hno => hasked.goes
          (by
            rintro ⟨h', limits', hsaved, hlimits, hbad⟩
            cases hlimits
            obtain rfl : h = h' := Option.some.inj (Except.ok.inj (hD.saved.symm.trans hsaved))
            exact hno hbad)
          (by rintro ⟨e, he⟩; cases he)
        dsimp only
        split
        · split
          · rename_i hanchor
            have hD2 := hgoes fun hbad => absurd hanchor (Nat.ne_of_gt hbad.2)
            exact meets_pure ⟨hD2.proper, hD2.read⟩
          · exact meets_throw hasked.halts
        · rename_i hlow
          have hD2 := hgoes fun hbad => hlow hbad.1
          split
          · exact Meets.seq (meets_check hD2) (fun _ s3 hD3 => meets_pure ⟨hD3.proper, hD3.read⟩)
              fun e s3 he => he.error
          · exact Meets.seq (meets_scanBlocks _ hD2) (fun _ s3 hs3 => meets_pure hs3) fun e s3 he => he.error
      · subst herr
        exact hasked.proper (by rintro ⟨_, _, -, hok, -⟩; cases hok)
    · rintro e s' ⟨_, hr, -⟩
      cases hr

/-! ## A cycle, and the process -/

/-- What discovery came to is passed on, and a failed read leaves nothing to prepare from. -/
theorem meets_discoveryOutcome {d : Except DiscoverError BlockNumber}
    (hd : Outcome C config (fun _ s' => Proper C config s'.2 ∧ AllRead s'.2) d s) :
    Meets (handler C).traced (fun s => Proper C config s.2) (discoveryOutcome d)
      (Outcome C config fun lag s' => Proper C config s'.2 ∧ (lag.isSome = true → AllRead s'.2)) s := by
  rcases d with (error | _ | error) | lag
  · exact meets_pure ⟨hd, fun hsome => by cases hsome⟩
  · exact meets_throw hd
  · exact meets_throw hd
  · have hworks : Works (discoveryOutcome (.ok lag)) := calls_bind (calls_one rfl) fun _ => calls_pure
    refine (hworks.meets hd.1 hd.2).mono fun r s' hs' => ?_
    cases r with
    | ok lag => exact ⟨hs'.1, fun _ => hs'.2⟩
    | error e => exact hs'.1.outcome e

theorem snapshot_works {lag : Option BlockNumber} : Works (snapshot C config lag) := by
  refine calls_bind (calls_query rfl) fun recover => calls_bind (calls_query rfl) fun poll => ?_
  cases lag with
  | none => exact calls_bind calls_pure fun _ => calls_bind (calls_one rfl) fun _ => calls_pure
  | some lag => exact calls_bind (calls_query rfl) fun _ => calls_bind (calls_one rfl) fun _ => calls_pure

theorem meets_snapshot {lag : Option BlockNumber} (hs : Proper C config s.2) (hread : lag.isSome = true → AllRead s.2) :
    Meets (handler C).traced (fun s => Proper C config s.2) (snapshot C config lag)
      (Outcome C config fun work s' => Proper C config s'.2 ∧ (AllRead s'.2 ∨ work.ready = [])) s := by
  cases lag with
  | some lag =>
    refine (snapshot_works.meets hs (hread rfl)).mono fun r s' hs' => ?_
    cases r with
    | ok work => exact ⟨hs'.1, .inl hs'.2⟩
    | error e => exact hs'.1.outcome e
  | none =>
    have hquery : ∀ {α : Type} {read : Store → Except StoreError α}, FollowsUp (query DiscoverError.store read) :=
      calls_query rfl
    refine Meets.seq (hquery.meets hs) (fun recover s1 hs1 => ?_) fun e _ h => h.outcome e
    refine Meets.seq (hquery.meets hs1) (fun poll s2 hs2 => ?_) fun e _ h => h.outcome e
    refine Meets.seq (R := fun r s' => r = .ok [] ∧ Proper C config s'.2) (meets_pure ⟨rfl, hs2⟩) ?_ ?_
    · rintro ready s3 ⟨hready, hs3⟩
      cases hready
      refine Meets.seq (R := fun _ s' => Proper C config s'.2) (meets_call hs3 fun e => hs3.follow rfl)
        (fun _ s4 hs4 => meets_pure ⟨hs4, .inr rfl⟩) fun e _ h => h.outcome e
    · rintro e _ ⟨hr, -⟩
      cases hr

theorem Proper.adapted {Q : β → Watched → Prop} {r : Except SubmitError β} {s' : Watched} (h : Proper C config s'.2)
    (hQ : ∀ b, r = .ok b → Q b s') : Outcome C config Q (r.mapError SubmitError.asStore) s' := by
  cases r with
  | ok b => exact hQ b rfl
  | error e => exact h.outcome _

theorem meets_cycle (hs : Proper C config s.2) :
    Meets (handler C).traced (fun s => Proper C config s.2) (cycle C config)
      (Outcome C config fun _ s' => Proper C config s'.2) s := by
  refine Meets.seq (R := fun _ s' => Proper C config s'.2 ∧ NoFresh s'.2 ∧ AllRead s'.2) (meets_call hs fun e => ?_)
    (fun _ s1 h1 => ?_) fun e _ h => h.1.outcome e
  · have hsince : sinceCycle ((handler C).traced.step (.mark (.cycle config)) e s).2.2 = [] := sinceCycle_mark rfl
    have hfresh : NoFresh ((handler C).traced.step (.mark (.cycle config)) e s).2.2 := by
      unfold NoFresh
      rw [hsince]
      exact fun _ h => by cases h
    refine ⟨⟨hs.clean.cons (not_diverges rfl), hs.orderly.cons hfresh.quiet⟩, hfresh, ?_⟩
    unfold AllRead
    rw [hsince]
    exact fun _ h => by cases h
  refine Meets.seq (R := fun _ s' => Proper C config s'.2 ∧ NoFresh s'.2 ∧ AllRead s'.2)
    (meets_call h1.1 fun e => ⟨h1.1.follow rfl, h1.2.1.cons rfl, h1.2.2.cons (not_unread rfl)⟩) (fun _ s2 h2 => ?_)
    fun e _ h => h.1.outcome e
  refine Meets.seq (R := fun r s' => ∃ d, r = .ok d ∧
    Outcome C config (fun _ s' => Proper C config s'.2 ∧ AllRead s'.2) d s')
    (meets_lift ((meets_discoverBurns h2.1 h2.2.1 h2.2.2).mono fun d _ hd => ⟨d, rfl, hd⟩)) ?_ ?_
  · rintro d s3 ⟨_, hr, hd⟩
    cases hr
    refine Meets.seq (meets_discoveryOutcome hd) (fun lag s4 h4 => ?_) fun e _ he => he.error
    refine Meets.seq (meets_snapshot h4.1 h4.2) (fun work s5 h5 => ?_) fun e _ he => he.error
    have hadvance : ∀ {list : List SavedSubmission} {s : Watched}, Proper C config s.2 →
        Meets (handler C).traced (fun s => Proper C config s.2)
          ((advanceSubmissions C config list).adapt SubmitError.asStore)
          (Outcome C config fun _ s' => Proper C config s'.2) s := fun hs =>
      meets_adapt (((advanceSubmissions_follows _).meets hs).mono fun r s' h => h.adapted fun _ _ => h)
    rcases h5.2 with hread | hready
    · refine Meets.seq (R := Outcome C config fun _ s' => Proper C config s'.2 ∧ AllRead s'.2)
        (meets_adapt (((advanceSubmissions_follows _).works.meets h5.1 hread).mono
          fun r s' h => h.1.adapted fun _ _ => h)) (fun _ s6 h6 => ?_) fun e _ he => he.error
      refine Meets.seq (R := Outcome C config fun _ s' => Proper C config s'.2)
        (meets_adapt (((submitWithdrawals_works _ _).meets h6.1 h6.2).mono fun r s' h => h.1.adapted fun _ _ => h.1))
        (fun _ s7 h7 => hadvance h7) fun e _ he => he.error
    · rw [hready]
      refine Meets.seq (hadvance h5.1) (fun _ s6 h6 => ?_) fun e _ he => he.error
      exact Meets.seq (R := Outcome C config fun _ s' => Proper C config s'.2) (meets_pure h6)
        (fun _ s7 h7 => hadvance h7) fun e _ he => he.error
  · rintro e _ ⟨_, hr, -⟩
    cases hr

theorem meets_run (cycles : Nat) : ∀ {s : Watched}, Proper C config s.2 →
    Meets (handler C).traced (fun s => Proper C config s.2) (run C config cycles)
      (fun _ s' => Orderly s'.2 ∧ (Clean C config s'.2 ∨ Halted C config s')) s := by
  induction cycles with
  | zero => exact fun hs => meets_pure ⟨hs.orderly, .inl hs.clean⟩
  | succ cycles ih =>
    intro s hs
    have hend : ∀ {s' : Watched}, Proper C config s'.2 → Orderly s'.2 ∧ (Clean C config s'.2 ∨ Halted C config s') :=
      fun h => ⟨h.orderly, .inl h.clean⟩
    refine Meets.seq (adminCheckpoint_follows.meets hs) (fun _ s1 h1 => ?_) fun _ _ h => hend h
    refine Meets.seq (R := fun r s' => ∃ d, r = .ok d ∧ Outcome C config (fun _ s' => Proper C config s'.2) d s')
      (meets_lift ((meets_cycle h1).mono fun d _ hd => ⟨d, rfl, hd⟩)) ?_ ?_
    · rintro d s2 ⟨_, hr, hd⟩
      cases hr
      have hnext : Proper C config s2.2 → Meets (handler C).traced (fun s => Proper C config s.2)
          (do
            let commands : List Command ← call .inbox
            handleEach commands
            run C config cycles)
          (fun _ s' => Orderly s'.2 ∧ (Clean C config s'.2 ∨ Halted C config s')) s2 := by
        intro h2
        refine Meets.seq (R := fun _ s' => Proper C config s'.2) (meets_call h2 fun e => h2.follow rfl)
          (fun commands s3 h3 => ?_) fun _ _ h => hend h
        exact Meets.seq ((handleEach_follows commands).meets h3) (fun _ s4 h4 => ih h4) fun _ _ h => hend h
      rcases d with (error | _ | error) | _
      · exact hnext hd
      · exact meets_pure hd
      · exact hnext hd
      · exact hnext hd
    · rintro e _ ⟨_, hr, -⟩
      cases hr

/-! ## Startup -/

/-- What startup calls: no cycle is begun and no burn taken up. -/
def Call.starts (o : Call) : Bool := !o.isCycle && !o.isFresh && !o.isTraffic

theorem saveBlock_starts {block : SignedBlock} :
    Calls (S := calls) (fun o => Call.starts o = true) (saveBlock C config block) :=
  calls_bind (calls_query rfl) fun _ => calls_write rfl

theorem openOrCreate_starts : Calls (S := calls) (fun o => Call.starts o = true) (openOrCreate C config) :=
  calls_bind (calls_one rfl) fun _ => calls_bind calls_attempt fun _ => calls_bind (calls_one rfl) fun _ =>
    calls_bind calls_attempt fun _ => calls_ite (calls_query rfl) (calls_write rfl)

theorem fetchAnchor_starts : Calls (S := calls) (fun o => Call.starts o = true) (fetchAnchor C config) :=
  calls_bind (calls_one rfl) fun _ => calls_bind calls_attempt fun _ => calls_ite calls_throw calls_pure

theorem checkCheckpoint_starts {h : BlockHeader} :
    Calls (S := calls) (fun o => Call.starts o = true) (checkCheckpoint h) :=
  calls_bind (calls_one rfl) fun _ => calls_bind calls_attempt fun _ => calls_ite calls_throw calls_pure

theorem start_starts : Calls (S := calls) (fun o => Call.starts o = true) (start C config) := by
  refine calls_bind (calls_one rfl) fun _ => calls_bind calls_attempt fun _ => calls_bind calls_attempt fun _ => ?_
  refine calls_bind fetchAnchor_starts fun block => calls_bind (calls_one rfl) fun _ => ?_
  refine calls_bind calls_attempt fun _ => ?_
  refine calls_bind (calls_one rfl) fun _ => calls_bind calls_attempt fun _ => ?_
  refine calls_bind (calls_adapt openOrCreate_starts) fun _ => calls_bind (calls_query rfl) fun _ => ?_
  refine calls_bind calls_attempt fun _ => calls_bind (calls_query rfl) fun checkpoint => ?_
  cases checkpoint with
  | none => exact calls_adapt saveBlock_starts
  | some h => exact calls_adapt checkCheckpoint_starts

theorem Proper.starting {T : List CallEvent} (h : ∀ ev ∈ T, ev.op.starts = true) : Proper C config T := by
  have hno : ∀ ev ∈ T, ev.op.isCycle = false ∧ ev.op.isFresh = false := fun ev hev => by
    have := h ev hev
    simp only [Call.starts, Bool.and_eq_true, Bool.not_eq_true'] at this
    exact this.1
  refine ⟨?_, ?_⟩
  · rintro newer ev older rfl ⟨m, hm, hcycle⟩
    rw [(hno m (by simp [hm])).1] at hcycle
    cases hcycle
  · rintro newer older rfl
    have hfresh : NoFresh older := fun ev hev =>
      (hno ev (List.mem_append_right _ ((List.takeWhile_sublist _).subset hev))).2
    exact hfresh.quiet

theorem meets_serve (cycles : Nat) (w : World) :
    Meets (handler C).traced (fun s => Proper C config s.2) (serve C config cycles)
      (fun _ s' => Orderly s'.2 ∧ (Clean C config s'.2 ∨ Halted C config s')) (w, []) := by
  have hstart : Meets (handler C).traced (fun s => ∀ ev ∈ s.2, ev.op.starts = true) (start C config)
      (fun _ s' => ∀ ev ∈ s'.2, ev.op.starts = true) (w, []) :=
    start_starts.meets (fun _ _ _ ho hs => List.forall_mem_cons.2 ⟨ho, hs⟩) fun _ h => by cases h
  refine Meets.seq (hstart.weaken fun _ h => .starting h) (fun _ s1 h1 => ?_) fun _ s1 h1 => ?_
  · exact meets_adapt (meets_run cycles (.starting h1))
  · have hs1 : Proper C config s1.2 := .starting h1
    exact ⟨hs1.orderly, .inl hs1.clean⟩

/-- Nothing was sent or saved, over the store `found`. -/
structure Unsent (found : Store) (s : Watched) : Prop where
  starts : ∀ ev ∈ s.2, ev.op.starts = true
  store : s.1.store = found
  file : s.1.fileExists = true

def Confirmed (h : BlockHeader) (s : Watched) : Prop := ∃ ev ∈ s.2, Confirms h ev

theorem Confirmed.meets {found : Store} (hs : Confirmed h s) (t : Task ρ α) :
    Meets (handler C).traced (fun s => Confirmed h s ∨ Unsent found s) t (fun _ s' => Confirmed h s') s := by
  have hall : Calls (S := calls) (fun _ => True) t := Prog.only_true t.run
  have hkeeps := Calls.meets (H := (handler C).traced) (I := Confirmed h) hall
    (fun _ _ _ _ ⟨ev, hev, hc⟩ => ⟨ev, List.mem_cons_of_mem _ hev, hc⟩) hs
  exact hkeeps.weaken fun _ => .inl

/-- Of startup's calls, the reads. -/
def Call.looks (o : Call) : Bool := o.starts && o.isQuiet

theorem Unsent.asks {found : Store} {ev : CallEvent} (hs : Unsent found s) (hev : ev.op.starts = true) :
    Unsent found (s.1, ev :: s.2) := ⟨List.forall_mem_cons.2 ⟨hev, hs.starts⟩, hs.store, hs.file⟩

theorem Unsent.look {found : Store} {o : Call} (hs : Unsent found s) (ho : o.looks = true) (e : Env) :
    Unsent found ((handler C).traced.step o e s).2 := by
  obtain ⟨hstarts, hquiet⟩ := Bool.and_eq_true_iff.1 ho
  have hworld : ((handler C).traced.step o e s).2.1 = s.1 := step_quiet hquiet e s.1
  exact ⟨List.forall_mem_cons.2 ⟨hstarts, hs.starts⟩, by rw [hworld]; exact hs.store, by rw [hworld]; exact hs.file⟩

theorem Unsent.meets {found : Store} {t : Task ρ α} (hs : Unsent found s)
    (ht : Calls (S := calls) (fun o => Call.looks o = true) t) :
    Meets (handler C).traced (fun s => Confirmed h s ∨ Unsent found s) t (fun _ s' => Unsent found s') s := by
  have hkeeps := Calls.meets (H := (handler C).traced) (I := Unsent found) ht (fun o e s ho hs => hs.look ho e) hs
  exact hkeeps.weaken fun _ => .inr

theorem Unsent.opened {found : Store} (hs : Unsent found s) :
    Meets (handler C).traced (fun s => Confirmed h s ∨ Unsent found s) (openOrCreate C config)
      (fun _ s' => Unsent found s') s := by
  refine Meets.seq (R := fun r s' => ∃ e, r = .ok ((handler C).traced.step .fileExists e s).1 ∧
    s' = ((handler C).traced.step .fileExists e s).2) (meets_call (.inr hs) fun e => ⟨e, rfl, rfl⟩) ?_ ?_
  · rintro answer s1 ⟨e, hr, rfl⟩
    cases hr
    have hs1 := hs.look (C := C) (o := .fileExists) rfl e
    refine Meets.seq (R := fun r s' => Unsent found s' ∧ ∀ exist, r = .ok exist → exist = true)
      (meets_attempt (fun exist hexist => ⟨hs1, fun _ h => ?_⟩) fun _ _ => ⟨hs1, fun _ h => by cases h⟩) ?_
      fun _ _ h => h.1
    · cases h
      have hanswer : (if e.storeFails then .error .io else .ok s.1.fileExists : Except StoreError Bool) = .ok exist :=
        hexist
      split at hanswer
      · cases hanswer
      · rw [← Except.ok.inj hanswer, hs.file]
    · rintro exist s2 ⟨hs2, hexist⟩
      cases hexist exist rfl
      refine Meets.seq (R := fun _ s' => Unsent found s') (meets_call (.inr hs2) fun e => ?_) (fun _ s3 hs3 => ?_)
        fun _ _ h => h
      · exact ⟨List.forall_mem_cons.2 ⟨rfl, hs2.starts⟩, hs2.store, rfl⟩
      · exact hs3.meets (calls_bind calls_attempt fun _ => calls_query rfl)
  · rintro e s' ⟨_, hr, -⟩
    cases hr

/-- Startup ends without a checkpoint confirmed unless the node has the saved block. -/
theorem meets_start {found : Store} (hs : Unsent found s) (hfound : found.checkpoint = .ok (some h)) :
    Meets (handler C).traced (fun s => Confirmed h s ∨ Unsent found s) (start C config)
      (fun r s' => Confirmed h s' ∨ Unsent found s' ∧ ∃ e, r = .error e) s := by
  have herr : ∀ (e : String) (s' : Watched), Unsent found s' →
      Confirmed h s' ∨ Unsent found s' ∧ ∃ e' : String, (.error e : Except String Unit) = .error e' :=
    fun e _ h => .inr ⟨h, e, rfl⟩
  have hensure : ∀ {ε : Type} {x : Except ε Unit} {f : ε → String},
      Calls (S := calls) (fun o => Call.looks o = true) (attempt f x) := calls_attempt
  refine Meets.seq (hs.meets (calls_one rfl)) (fun _ s1 h1 => ?_) herr
  refine Meets.seq (h1.meets calls_attempt) (fun _ s2 h2 => ?_) herr
  refine Meets.seq (h2.meets hensure) (fun _ s3 h3 => ?_) herr
  refine Meets.seq (h3.meets (calls_bind (calls_one rfl) fun _ => calls_bind calls_attempt fun _ =>
    calls_ite calls_throw calls_pure)) (fun block s4 h4 => ?_) herr
  refine Meets.seq (h4.meets (calls_one rfl)) (fun _ s5 h5 => ?_) herr
  refine Meets.seq (h5.meets hensure) (fun _ s6 h6 => ?_) herr
  refine Meets.seq (h6.meets (calls_one rfl)) (fun _ s7 h7 => ?_) herr
  refine Meets.seq (h7.meets hensure) (fun _ s8 h8 => ?_) herr
  refine Meets.seq (R := fun _ s' => Unsent found s') (meets_adapt h8.opened) (fun _ s9 h9 => ?_) herr
  refine Meets.seq (h9.meets (calls_query rfl)) (fun _ s10 h10 => ?_) herr
  refine Meets.seq (h10.meets hensure) (fun _ s11 h11 => ?_) herr
  refine Meets.seq (R := fun r s' => Unsent found s' ∧ ∀ saved, r = .ok saved → saved = some h)
    (meets_query (.inr h11) (fun saved answer hsaved => ?_) fun _ _ => ?_) ?_ fun e _ h => herr e _ h.1
  · rw [h11.store, hfound] at hsaved
    cases hsaved
    exact ⟨h11.asks rfl, fun _ hr => (Except.ok.inj hr).symm⟩
  · exact ⟨h11.asks rfl, fun _ hr => by cases hr⟩
  · rintro saved s12 ⟨h12, hsaved⟩
    cases hsaved saved rfl
    refine meets_adapt (Meets.seq (R := fun r s' => ∃ answer, r = .ok answer ∧
      s' = (s12.1, ⟨.blockByNumber h.blockNum, answer, s12.1⟩ :: s12.2))
      (meets_call (.inr h12) fun e => ⟨_, rfl, rfl⟩) ?_ ?_)
    · rintro answer s13 ⟨_, hr, rfl⟩
      cases hr
      cases answer with
      | error e => exact .inr ⟨h12.asks rfl, _, rfl⟩
      | ok block =>
        change Meets _ _ (if block.header.commitment ≠ h.commitment then throw DiscoverError.chainDiverged
          else pure ()) _ _
        split
        · exact meets_throw (.inr ⟨h12.asks rfl, _, rfl⟩)
        · rename_i hsame
          exact meets_pure (.inl ⟨_, List.mem_cons_self, rfl, block, rfl, Decidable.not_not.1 hsame⟩)
    · rintro e _ ⟨_, hr, -⟩
      cases hr

end

theorem checkpoint_blank {h : BlockHeader} : Store.blank.checkpoint ≠ .ok (some h) := fun hs => by cases hs

/-- **No withdrawal traffic on a diverged chain.** Every process, on the store any processes before it left and with
any answers: a diverging answer is the last thing a cycle asks for and the store keeps nothing of the refused block;
a start whose checkpoint the node does not confirm sends nothing and ends; a cycle that could not read the chain
takes up no burn. -/
theorem diverged_chain_silent (C : Crates) (past : List Lifetime) (config : Config) (cycles : Nat) (env : List Env) :
    StopsOnDivergence C config cycles (runAll C past) env := by
  have hsound := runs_sound (C := C) past
  generalize runAll C past = w at hsound
  obtain ⟨hvalue, hworld⟩ := Prog.run_traced (handler C) (serve C config cycles).run env w []
  have hserves : Meets (handler C).traced (fun s => Proper C config s.2) (serve C config cycles)
      (fun _ s' => Orderly s'.2 ∧ (Clean C config s'.2 ∨ Halted C config s')) (w, []) := meets_serve cycles w
  have hcut := hserves.run env
  refine { halted := ?_, silent := ?_, quiet := ?_ }
  · intro newer ev older hT hm hd
    have hdirty : ¬ Clean C config (Prog.trace (handler C) (serve C config cycles).run env w) := fun hclean =>
      hclean newer ev older hT hm hd
    cases hrun : (Prog.run (handler C) (serve C config cycles).run env w).1 with
    | none => exact absurd (hcut.1 (hvalue.trans hrun)).clean hdirty
    | some r =>
      obtain ⟨-, hclean | ⟨last, rest, htrace, hclean, hstore⟩⟩ := hcut.2 r (hvalue.trans hrun)
      · exact absurd hclean hdirty
      · have heq : newer ++ ev :: older = last :: rest := hT.symm.trans htrace
        cases newer with
        | nil =>
          cases heq
          rw [hworld] at hstore
          exact ⟨rfl, rfl, hstore⟩
        | cons x newer =>
          cases heq
          exact absurd hd (hclean newer ev older rfl hm)
  · intro h hsaved hno
    have hfile : w.fileExists = true := by
      cases hfile : w.fileExists with
      | true => rfl
      | false => exact absurd (hsound.2 hfile ▸ hsaved) checkpoint_blank
    have hunsent : Unsent w.store (w, []) := ⟨fun _ hev => (by cases hev), rfl, hfile⟩
    have hserve : Meets (handler C).traced (fun s => Confirmed h s ∨ Unsent w.store s) (serve C config cycles)
        (fun r s' => Confirmed h s' ∨ Unsent w.store s' ∧ ∃ e, r = .error e) (w, []) := by
      refine Meets.seq (R := fun r s' => Confirmed h s' ∨ Unsent w.store s' ∧ ∃ e, r = .error e)
        (meets_start hunsent hsaved) (fun _ s1 h1 => ?_) fun e s1 h1 => ?_
      · rcases h1 with hconf | ⟨-, e, he⟩
        · exact (hconf.meets _).mono fun _ _ => .inl
        · cases he
      · exact h1.imp id fun hu => ⟨hu.1, e, rfl⟩
    have hend := hserve.run env
    have hnot : ¬ Confirmed h (Prog.run (handler C).traced (serve C config cycles).run env (w, [])).2.2 :=
      fun ⟨ev, hev, hc⟩ => hno ev hev hc
    have hleft : Unsent w.store (Prog.run (handler C).traced (serve C config cycles).run env (w, [])).2.2 ∧
        ∀ r, (Prog.run (handler C) (serve C config cycles).run env w).1 = some r → ∃ e, r = .error e := by
      rw [← hvalue]
      cases hrun : (Prog.run (handler C).traced (serve C config cycles).run env (w, [])).1 with
      | none => exact ⟨(hend.1 hrun).resolve_left hnot, fun _ h => by cases h⟩
      | some r =>
        obtain ⟨hu, he⟩ := (hend.2 r hrun).resolve_left hnot
        exact ⟨hu, fun _ hr => Option.some.inj hr ▸ he⟩
    refine ⟨fun ev hev => ?_, hworld ▸ hleft.1.store, hleft.2⟩
    have hstarts := hleft.1.starts ev hev
    simp only [Call.starts, Bool.and_eq_true, Bool.not_eq_true'] at hstarts
    exact hstarts.2
  · exact hserves.always (fun _ h => h.orderly) (fun _ _ h => h.1) env

end LightAttester
