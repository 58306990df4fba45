import MidenUsdcx.Attester.Conversation
/-!
# The program keeps to the rules (`attester.rs`)

One lemma for each function of `Service.lean` above the conversation, up to the whole process. A loop
over a work list keeps `Turn`: the items that are left have not been taken up, so the snapshot still
tells the truth about them. `runs_legal` at the end is the refinement: the log of every run is legal.
-/
namespace LightAttester
open Checked Interact Keyed Store

variable {C : Crates} {config : Config} {w : World} {s : Store} {n : NoteId}

/-! ## Between the items -/

/-- Acts that take up no note but these. -/
def Act.within (ns : List NoteId) (a : Act) : Prop := a.isPlain = true ∧ ∀ m, a.opens m = true → m ∈ ns

theorem Act.about.within {a : Act} (h : a.about n) : a.within [n] := by
  refine ⟨h.isPlain, fun m hm => ?_⟩
  cases a with
  | withdraw k =>
    have hk : k = m := by simpa [Act.opens] using hm
    simpa using hk.symm.trans h
  | _ => cases hm

namespace Grew
variable {ns : List NoteId} {w1 w2 : World}

theorem plain (h : Grew (Act.within ns) w1 w2) : Grew (fun a => a.isPlain = true) w1 w2 := h.mono fun _ ha => ha.1

theorem widen {ms : List NoteId} (h : Grew (Act.within ns) w1 w2) (hs : ∀ m ∈ ns, m ∈ ms) :
    Grew (Act.within ms) w1 w2 := h.mono fun _ ha => ⟨ha.1, fun m hm => hs m (ha.2 m hm)⟩

theorem aside (h : Grew (Act.within []) w1 w2) : Grew (Act.within ns) w1 w2 := h.widen fun _ hm => by cases hm

theorem item (h : Steps n w1 w2) : Grew (Act.within (n :: ns)) w1 w2 :=
  Grew.mono h fun _ ha => ⟨ha.isPlain, fun m hm => List.mem_cons.2 (Or.inl (List.mem_singleton.1 (ha.within.2 m hm)))⟩

theorem later (h : Grew (Act.within ns) w1 w2) : Grew (Act.within (n :: ns)) w1 w2 :=
  h.widen fun _ hm => List.mem_cons_of_mem _ hm

/-- A note that is none of these is as far as it was. -/
theorem opens_eq (h : Grew (Act.within ns) w1 w2) {m : NoteId} (hm : m ∉ ns) :
    since (Act.opens m) w2.log = since (Act.opens m) w1.log := by
  obtain ⟨newer, he, hn⟩ := h.log
  rw [he, since_append (fun e hmem => (hn e hmem).1) fun e hmem => ?_]
  by_contra hne
  exact hm ((hn e hmem).2 m (Bool.not_eq_false _ ▸ hne))

end Grew

/-- A commit or a refusal takes up no note. -/
theorem Act.within_commit (x : Write) : (Act.commit x).within [] := ⟨rfl, fun _ h => by cases h⟩

theorem Act.within_refused (x : Write) (e : StoreError) : (Act.refused x e).within [] := ⟨rfl, fun _ h => by cases h⟩

theorem ensures_handleAdmin {ρ : Type} {command : Command} (hw : Sound C w) :
    Ensures C (handleAdmin (ρ := ρ) command) (fun _ w' => Grew (Act.within []) w w') w := by
  unfold handleAdmin
  split
  · exact ensures_pure hw (Grew.refl w)
  · split
    · exact ensures_pure hw (Grew.refl w)
    · rename_i selection _
      refine ensures_seq (ensures_transaction (x := .release selection) hw (by simp) (fun _ _ => trivial)
        (by simp [Write.isStep]) (fun s' hs' hw' => ?_) fun e hw' => ?_)
      · exact ensures_pure hw' (Grew.commit (Act.within_commit _) hs' (Or.inr rfl))
      · exact ensures_pure hw' (Grew.record (Act.within_refused _ _))

theorem ensures_handleEach {ρ : Type} : ∀ {commands : List Command} {w : World}, Sound C w →
    Ensures C (handleEach (ρ := ρ) commands) (fun _ w' => Grew (Act.within []) w w') w
  | [], w, hw => ensures_pure hw (Grew.refl w)
  | command :: rest, w, hw => by
    unfold handleEach
    refine ensures_bind (ensures_handleAdmin hw) (fun _ w1 hw1 h1 => ?_) fun _ _ _ h => h
    exact (ensures_handleEach hw1).mono fun _ _ _ h => h1.trans h

/-- Commands come between the items and take up none. -/
theorem ensures_adminCheckpoint {ρ : Type} (hw : Sound C w) :
    Ensures C (adminCheckpoint (ρ := ρ)) (fun _ w' => Grew (Act.within []) w w') w :=
  ensures_seq (ensures_quiet hw rfl fun _ => ensures_handleEach hw)

/-! ## The limit -/

theorem Barrier.putBurn {b : BurnRow} {t : Nat} (hb : s.burn n = some b) (hfirst : ∀ m c, s.burn m = some c →
    c.limitRetryAt.isSome → b.place ≤ c.place) : Barrier (s.putBurn { b with limitRetryAt := some t }) n := by
  have hid : b.noteId = n := burn_noteId hb
  refine ⟨_, putBurn_burn_self (b := { b with limitRetryAt := some t }) hid, fun c m hc hw => ?_⟩
  by_cases hm : m = n
  · rw [hm, putBurn_burn_self (b := { b with limitRetryAt := some t }) hid] at hc
    cases hc
    exact le_rfl
  · rw [Write.putBurn_ne (n := n) (b := { b with limitRetryAt := some t }) hid hm] at hc
    exact hfirst m c hc hw

/-- What of the burns decides who waits behind whom. -/
def waits (s : Store) (m : NoteId) : Option (Lex (Nat × NoteId) × Bool) :=
  (s.burn m).map fun b => (b.place, b.limitRetryAt.isSome)

theorem waits_putBurn {b : BurnRow} {t : Nat} (hb : s.burn n = some b) (hw : b.limitRetryAt.isSome) (m : NoteId) :
    waits (s.putBurn { b with limitRetryAt := some t }) m = waits s m := by
  have hid : b.noteId = n := burn_noteId hb
  by_cases hm : m = n
  · subst hm
    rw [waits, waits, putBurn_burn_self (b := { b with limitRetryAt := some t }) hid, hb]
    simp [BurnRow.place, BurnRow.noteId, hw]
  · rw [waits, waits, Write.putBurn_ne (n := n) (b := { b with limitRetryAt := some t }) hid hm]

/-- What `limit_allows` answers: a burn it lets through is ahead of every waiting one, and has a new deadline if
it waits itself; one it keeps back is not ahead of some waiting one. -/
def Decided (n : NoteId) (b : BurnRow) (w : World) (res : Except StoreError Bool) (w' : World) : Prop :=
  Grew (Act.within []) w w' ∧ (∀ m, waits w'.store m = waits w.store m) ∧
    (res = .ok true → Admitted w'.log w'.store n) ∧
    (res = .ok false → ∃ m c, w.store.burn m = some c ∧ c.limitRetryAt.isSome ∧ c.place ≤ b.place)

theorem Decided.error {b : BurnRow} {e : StoreError} {w' : World} (h : Grew (Act.within []) w w')
    (hs : ∀ m, waits w'.store m = waits w.store m) : Decided n b w (.error e) w' :=
  ⟨h, hs, nofun, nofun⟩

theorem ensures_limitAllows {b : BurnRow} (hw : Sound C w) (hcfg : configOf w.log = some config)
    (hb : w.store.burn n = some b) : Ensures C (limitAllows config n) (Decided n b w) w := by
  unfold limitAllows
  refine ensures_seq (ensures_query hw (fun first hfirst => ?_) fun e => .error (Grew.refl w) fun _ => rfl)
  obtain hfirst : w.store.firstLimitWait = first := Except.ok.inj hfirst
  cases first with
  | none =>
    have hno : ∀ m c, w.store.burn m = some c → c.limitRetryAt.isSome → False := fun m c hc hs => by
      rw [firstLimitWait_eq_none hfirst hc] at hs
      cases hs
    refine ensures_pure hw ⟨Grew.refl w, fun _ => rfl, fun _ => ⟨⟨b, hb, fun c m hc hs => (hno m c hc hs).elim⟩, ?_⟩,
      fun h => by cases h⟩
    rintro ⟨c, hc, hs⟩
    exact (hno n c hc hs).elim
  | some wait =>
    obtain ⟨c, hc, hretry, hplace, hle⟩ := firstLimitWait_eq_some hfirst
    have hwait : c.limitRetryAt.isSome := by rw [hretry]; rfl
    show Ensures C (if wait.noteId ≠ n then _ else _) _ w
    split
    · refine ensures_seq (ensures_query hw (fun block hblock => ?_) fun e => .error (Grew.refl w) fun _ => rfl)
      simp only [burnCreationBlock, orThrow_bind_ok, pure_ok] at hblock
      obtain ⟨b', hb', rfl⟩ := hblock
      obtain rfl : b = b' := Option.some.inj (hb.symm.trans hb')
      have hb_place : b.place = toLex (b.creationBlock, n) := by rw [BurnRow.place, burn_noteId hb]
      refine ensures_pure hw ⟨Grew.refl w, fun _ => rfl, fun h => ?_, fun h => ⟨_, c, hc, hwait, ?_⟩⟩
      · have hlt : b.place < c.place := by
          rw [hplace, hb_place]
          exact of_decide_eq_true (Except.ok.inj h)
        refine ⟨⟨b, hb, fun d m hd hs => (hlt.trans_le (hle m d hd hs)).le⟩, ?_⟩
        rintro ⟨d, hd, hs⟩
        rw [hb] at hd
        cases hd
        exact absurd (hle n b hb hs) (not_le.2 hlt)
      · rw [hplace, hb_place]
        exact not_lt.1 (of_decide_eq_false (Except.ok.inj h))
    · rename_i hself
      obtain rfl := not_not.1 hself
      obtain rfl : b = c := Option.some.inj (hb.symm.trans hc)
      refine ensures_seq (ensures_now hw fun now hw1 => ?_)
      have hclock : Grew (Act.within []) w (w.record (.clock now)) := Grew.record ⟨rfl, fun _ h => by cases h⟩
      have herr : ∀ {e : StoreError}, Decided wait.noteId b w (.error e) (w.record (.clock now)) :=
        .error hclock fun _ => rfl
      refine ensures_seq (ensures_attempt hw1 (fun since hsince => ?_) fun _ => herr)
      show Ensures C (if asSecs since < wait.retryAt then _ else _) _ _
      split
      · exact ensures_pure hw1 ⟨hclock, fun _ => rfl, (fun h => by cases h), fun _ => ⟨_, b, hc, hwait, le_rfl⟩⟩
      · rename_i hpast
        refine ensures_seq (ensures_attempt hw1 (fun policy hpolicy => ?_) fun _ => herr)
        refine ensures_seq (ensures_attempt hw1 (fun t ht => ?_) fun _ => herr)
        have htimed : Timed (w.record (.clock now)).log w.store t now :=
          ⟨w.log, config, policy, rfl, hcfg, orThrow_ok.1 hpolicy, ht⟩
        refine ensures_seq (ensures_write (x := .advance wait.noteId t) hw1 (by simp)
          (fun s' _ => ⟨now, since, b, wait.retryAt, htimed, orThrow_ok.1 hsince, hc, hretry, not_lt.1 hpast⟩)
          (by simp [Write.isStep]) (fun s' hs' hw2 => ?_)
          fun e => .error (hclock.trans (Grew.record (Act.within_refused _ _))) fun _ => rfl)
        have hgrew := hclock.trans (Grew.commit (Act.within_commit _) hs' (Or.inl rfl))
        obtain ⟨c', hc', -, rfl⟩ := advanceLimitRetry_ok hs'
        obtain rfl : b = c' := Option.some.inj (hc.symm.trans hc')
        exact ensures_pure hw2 ⟨hgrew, waits_putBurn hc hwait,
          fun _ => ⟨Barrier.putBurn hc hle, fun _ => ⟨[], _, _, t, rfl, by simp⟩⟩, fun h => by cases h⟩

theorem ensures_admitted {b : BurnRow} (hw : Sound C w) (hcfg : configOf w.log = some config)
    (hb : w.store.burn n = some b) :
    Ensures C ((limitAllows config n).adapt SubmitError.store)
      (fun res w' => Grew (Act.within []) w w' ∧ (res = .ok true → Admitted w'.log w'.store n)) w := by
  refine ensures_adapt ((ensures_limitAllows hw hcfg hb).mono fun res w' _ h => ⟨h.1, fun hres => h.2.2.1 ?_⟩)
  cases res with
  | ok v => exact congrArg Except.ok (Except.ok.inj hres)
  | error e => cases hres

/-! ## Withdrawing a burn -/

/-- What `n` was admitted for holds on through its own steps while the burns stay. -/
theorem Admitted.steps {w1 w2 : World} (h : Admitted w1.log w1.store n) (hs : Steps n w1 w2)
    (hburn : ∀ m, w2.store.burn m = w1.store.burn m) : Admitted w2.log w2.store n := by
  obtain ⟨⟨b, hb, hle⟩, hadv⟩ := h
  refine ⟨⟨b, (hburn n).trans hb, fun c m hc => hle c m (hburn m ▸ hc)⟩, fun ⟨c, hc, hwait⟩ => ?_⟩
  obtain ⟨newer, older, s1, t, hlog, hnew⟩ := hadv ⟨c, hburn n ▸ hc, hwait⟩
  obtain ⟨newest, hlog2, hnewest⟩ := hs.log
  refine ⟨newest ++ newer, older, s1, t, by rw [hlog2, hlog, List.append_assoc], fun e he => ?_⟩
  rcases List.mem_append.1 he with he | he
  · exact hnewest e he
  · exact hnew e he

/-- The burn at hand, before its authorization is saved. -/
structure Open (config : Config) (d : DiscoveredBurn) (w : World) : Prop where
  config : configOf w.log = some config
  item : FreshItem w.log w.store d
  posts : since (Act.posts d.noteId) w.log = 0
  gets : since (Act.gets d.noteId) w.log = 0
  admitted : Admitted w.log w.store d.noteId

/-- The steps before that: the preparation and the two signatures. -/
def Act.readies (n : NoteId) : Act → Prop
  | .prepare burn _ _ => burn.noteId = n
  | .sign m _ => m = n
  | _ => False

theorem Act.readies.about {a : Act} (h : a.readies n) : a.about n := by
  cases a <;> first | exact h | exact h.elim

theorem Open.readies {d : DiscoveredBurn} {w1 w2 : World} (h : Open config d w1)
    (hs : Grew (Act.readies d.noteId) w1 w2) (hstore : w2.store = w1.store) : Open config d w2 := by
  have hsteps : Steps d.noteId w1 w2 := hs.mono fun _ ha => ha.about
  obtain ⟨newer, hlog, hnew⟩ := hs.log
  have hzero : ∀ p : Act → Bool, (∀ a, Act.readies d.noteId a → p a = false) → since p w2.log = since p w1.log := by
    intro p hp
    rw [hlog, since_append (fun e he => (hnew e he).about.isPlain) fun e he => hp _ (hnew e he)]
  refine ⟨hsteps.plain.configOf.trans h.config, ⟨hsteps.atHand h.item.1, ?_, hstore ▸ h.item.2.2⟩, ?_, ?_,
    h.admitted.steps hsteps fun m => by rw [hstore]⟩
  · rw [hsteps.plain.workOf]
    exact h.item.2.1
  · rw [hzero _ fun a ha => by cases a <;> first | rfl | exact ha.elim, h.posts]
  · rw [hzero _ fun a ha => by cases a <;> first | rfl | exact ha.elim, h.gets]

/-- What an attempt leaves: its own steps, and the burn as it was unless the store failed. -/
def Tried {α : Type} (config : Config) (d : DiscoveredBurn) (w : World) (res : Except SubmitError α) (w' : World) : Prop :=
  Steps d.noteId w w' ∧ ∀ e, res = .error e → e.isFatal = true ∨ Open config d w'

theorem ensures_signDigest {d : DiscoveredBurn} {digest : B256} (hw : Sound C w) (ho : Open config d w)
    (hn : n = d.noteId) :
    Ensures C (signDigest n digest) (fun _ w' => Steps d.noteId w w' ∧ Open config d w') w := by
  subst hn
  refine ensures_seq (ensures_sign hw ⟨rfl, d, rfl, ho.item⟩ fun signature hw1 => ?_)
  have hpost : Steps d.noteId w (w.record (.sign d.noteId digest)) ∧ Open config d (w.record (.sign d.noteId digest)) :=
    ⟨Grew.record rfl, ho.readies (Grew.record rfl) rfl⟩
  exact ensures_attempt hw1 (fun _ _ => hpost) fun _ => hpost

theorem ensures_prepareWithdrawal {d : DiscoveredBurn} {fee : UInt64} (hw : Sound C w) (ho : Open config d w)
    (hprep : since (Act.prepares d.noteId) w.log = 0) :
    Ensures C (prepareWithdrawal config d fee) (fun _ w' => Steps d.noteId w w' ∧ Open config d w') w := by
  refine ensures_seq (ensures_attempt hw (fun _ _ => ?_) fun _ => ⟨Grew.refl w, ho⟩)
  refine ensures_seq (ensures_prepare hw (fun _ => ⟨rfl, ho.item, hprep, ho.admitted⟩) fun reply hw1 => ?_)
  have hsteps : Steps d.noteId w (w.record (.prepare d fee reply)) := Grew.record rfl
  have hopen : Open config d (w.record (.prepare d fee reply)) := ho.readies (Grew.record rfl) rfl
  cases reply with
  | ok prepared => exact ensures_pure hw1 ⟨hsteps, hopen⟩
  | error e =>
    show Ensures C (if e.isRateLimited = true then _ else _) _ _
    split
    · refine ensures_seq (ensures_setRateLimited hw1 ?_)
      exact ensures_throw hw1 ⟨⟨hsteps.log, hsteps.state⟩,
        ⟨hopen.config, hopen.item, hopen.posts, hopen.gets, hopen.admitted⟩⟩
    · exact ensures_throw hw1 ⟨hsteps, hopen⟩

/-- The authorization is saved before it is sent, and the send is the first. -/
theorem ensures_submitSignedWithdrawal {d : DiscoveredBurn} {v : VerifiedWithdrawal} {signatures : Signature × Signature}
    (hw : Sound C w) (ho : Open config d w) (hv : v.noteId = d.noteId) :
    Ensures C (submitSignedWithdrawal C config v signatures) (Tried config d w) w := by
  have hsame : ∀ {e : SubmitError}, Tried (α := Unit) config d w (.error e) w :=
    ⟨Grew.refl w, fun _ _ => Or.inr ho⟩
  refine ensures_seq (ensures_attempt hw (fun endpoint _ => ?_) fun _ => hsame)
  refine ensures_seq (ensures_attempt hw (fun saved hsaved => ?_) fun _ => hsame)
  refine ensures_seq (ensures_query hw (fun _ _ => ?_) fun _ => hsame)
  obtain ⟨body, -, hsaved⟩ := Option.bind_eq_some_iff.1 (orThrow_ok.1 hsaved)
  have hauth : authorizedRow saved = saved := by cases hsaved; rfl
  have hid : saved.noteId = d.noteId := by cases hsaved; exact hv
  have hst : saved.status = .submitting := by cases hsaved; rfl
  refine ensures_seq (ensures_write (x := .save saved) hw (by simp) (fun _ _ => ⟨d, hid.symm, ho.item⟩)
    (fun _ => save_no_conflict (legal_inv hw.1) hid.symm ho.item.2.2) (fun s' hs' hw1 => ?_)
    fun e => ⟨Grew.record (show _ = some d.noteId by rw [← hid]; rfl), fun _ he => by cases he; exact Or.inl rfl⟩)
  have hsteps : Steps d.noteId w { w with store := s', log := ⟨.commit (.save saved), s'⟩ :: w.log } :=
    Grew.commit (show _ = some d.noteId by rw [← hid]; rfl) hs' (Or.inl rfl)
  obtain ⟨-, -, b, -, rfl⟩ := saveSubmission_ok hs'
  refine (ensures_advanceSubmission .first hw1 (hsteps.plain.configOf.trans ho.config)
    (hsteps.atHand ho.item.1) (by rw [since_skip rfl rfl, ho.gets]) ?_ (Or.inl hst)
    (fun _ => ⟨hst, by rw [since_skip rfl rfl, ho.posts], ho.admitted.steps hsteps fun _ => rfl⟩)
    ⟨saved, _, _, hid, rfl⟩).mono fun _ _ _ h => ⟨hsteps.trans h.1, fun e he => Or.inl (h.2 e he)⟩
  rw [addEvent_row, putRow_row, hauth, if_pos hid]

theorem ensures_withdraw {d : DiscoveredBurn} (hw : Sound C w) (ho : Open config d w)
    (hprep : since (Act.prepares d.noteId) w.log = 0) :
    Ensures C (withdraw C config d) (Tried config d w) w := by
  refine ensures_seq (ensures_attempt hw (fun fee _ => ?_) fun _ => ⟨Grew.refl w, fun _ _ => Or.inr ho⟩)
  refine ensures_bind (ensures_prepareWithdrawal hw ho hprep) (fun prepared w1 hw1 h1 => ?_)
    fun _ _ _ h => ⟨h.1, fun _ _ => Or.inr h.2⟩
  refine ensures_seq (ensures_attempt hw1 (fun v hv => ?_) fun _ => ⟨h1.1, fun _ _ => Or.inr h1.2⟩)
  have hid := verify_noteId hv
  refine ensures_bind (ensures_signDigest hw1 h1.2 hid) (fun first w2 hw2 h2 => ?_)
    fun _ _ _ h => ⟨h1.1.trans h.1, fun _ _ => Or.inr h.2⟩
  refine ensures_bind (ensures_signDigest hw2 h2.2 hid) (fun second w3 hw3 h3 => ?_)
    fun _ _ _ h => ⟨h1.1.trans (h2.1.trans h.1), fun _ _ => Or.inr h.2⟩
  exact (ensures_submitSignedWithdrawal hw3 h3.2 hid).mono fun _ _ _ h =>
    ⟨h1.1.trans (h2.1.trans (h3.1.trans h.1)), h.2⟩

theorem ensures_holdAndThrow {d : DiscoveredBurn} {e : SubmitError} (hw : Sound C w)
    (ho : e.isFatal = true ∨ Open config d w) :
    Ensures C (holdAndThrow d.noteId e) (fun _ w' => Steps d.noteId w w') w := by
  unfold holdAndThrow
  split
  · rename_i reason resp hhold
    have hopen : Open config d w := ho.resolve_left fun hf => by
      cases e <;> first | (cases hf; done) | cases hhold
    obtain ⟨⟨b, hb, -⟩, -⟩ := hopen.item.2.2
    refine ensures_seq (ensures_write (x := .hold d.noteId reason resp) hw (by simp) (fun _ _ => ⟨d, rfl, hopen.item⟩)
      (fun _ => hold_no_conflict hb) (fun s' hs' hw1 => ?_) fun _ => Grew.record rfl)
    exact ensures_throw hw1 (Grew.commit rfl hs' (Or.inl rfl))
  · exact ensures_throw hw (Grew.refl w)

theorem ensures_settleFailure {d : DiscoveredBurn} {e : SubmitError} (hw : Sound C w)
    (ho : e.isFatal = true ∨ Open config d w) :
    Ensures C (settleFailure C config d.noteId e) (fun _ w' => Steps d.noteId w w') w := by
  unfold settleFailure
  split
  · exact ensures_throw hw (Grew.refl w)
  · rename_i status body
    have hopen : Open config d w := ho.resolve_left (by simp [SubmitError.isFatal])
    obtain ⟨⟨b, hb, -, -, hc, hh⟩, hrow⟩ := hopen.item.2.2
    refine ensures_bind (ensures_wait hw hopen.config hopen.item.1
      (fun t => limit_no_conflict hb (by rw [hc]; rfl) hh trivial) fun _ _ => hrow) (fun waits w1 hw1 hR => ?_)
      fun _ _ _ hR => hR.1.1
    cases waits with
    | true => exact ensures_pure hw1 hR.1.1
    | false =>
      obtain rfl := hR.2 rfl
      exact ensures_holdAndThrow hw1 (Or.inr hopen)
  · exact ensures_holdAndThrow hw ho

theorem ensures_attemptWithdrawal {d : DiscoveredBurn} {work : Work} (hw : Sound C w)
    (hcfg : configOf w.log = some config) (hwork : workOf w.log = some work) (hd : d ∈ work.ready)
    (hnew : ¬ Worked w.log d.noteId) (hadm : Admitted w.log w.store d.noteId) :
    Ensures C (attemptWithdrawal C config d) (fun _ w' => Steps d.noteId w w') w := by
  have hmem : d.noteId ∈ work.notes :=
    List.mem_append_left _ (List.mem_append_right _ (List.mem_map_of_mem hd))
  obtain ⟨hprep, hposts, hgets⟩ := legal_requests hw.1 d.noteId hnew
  refine ensures_seq (ensures_mark hw ⟨rfl, hnew, work, hwork, hmem⟩ fun hw1 => ?_)
  have hsteps : Steps d.noteId w (w.record (.withdraw d.noteId)) := Grew.record rfl
  have hworked : AtHand (w.record (.withdraw d.noteId)).log d.noteId :=
    ⟨[], _, w.log, rfl, by simp⟩
  have hopen : Open config d (w.record (.withdraw d.noteId)) := by
    refine ⟨hcfg, ⟨hworked, ⟨work, hwork, hd⟩, (legal_pending hw.1 hwork).ready d hd hnew⟩, ?_, ?_,
      hadm.steps hsteps fun _ => rfl⟩
    · exact (since_skip rfl rfl).trans hposts
    · exact (since_skip rfl rfl).trans hgets
  refine ensures_tryCatch ((ensures_withdraw hw1 hopen ((since_skip rfl rfl).trans hprep)).mono ?_)
  intro res w2 hw2 htried
  cases res with
  | ok _ => exact hsteps.trans htried.1
  | error e => exact (ensures_settleFailure hw2 (htried.2 e rfl)).mono fun _ _ _ h => hsteps.trans (htried.1.trans h)

/-! ## The work lists -/

/-- The items that are left of a list: each will be taken up once, and none was yet. -/
structure Turn (config : Config) (work : Work) (ns : List NoteId) (w : World) : Prop where
  config : configOf w.log = some config
  work : workOf w.log = some work
  nodup : ns.Nodup
  left : ∀ n ∈ ns, ¬ Worked w.log n

theorem Turn.grew {work : Work} {ns ms : List NoteId} {w1 w2 : World} (h : Turn config work ns w1)
    (hs : Grew (Act.within ms) w1 w2) (hd : ∀ n ∈ ns, n ∉ ms) : Turn config work ns w2 where
  config := hs.plain.configOf.trans h.config
  work := hs.plain.workOf.trans h.work
  nodup := h.nodup
  left n hn := by
    unfold Worked
    rw [hs.opens_eq (hd n hn)]
    exact h.left n hn

theorem Turn.aside {work : Work} {ns : List NoteId} {w1 w2 : World} (h : Turn config work ns w1)
    (hs : Grew (Act.within []) w1 w2) : Turn config work ns w2 := h.grew hs fun _ _ hm => by cases hm

theorem Turn.tail {work : Work} {ns : List NoteId} {w1 w2 : World} (h : Turn config work (n :: ns) w1)
    (hs : Grew (Act.within [n]) w1 w2) : Turn config work ns w2 := by
  obtain ⟨hn, hnodup⟩ := List.nodup_cons.1 h.nodup
  have hrest : Turn config work ns w1 := ⟨h.config, h.work, hnodup, fun m hm => h.left m (List.mem_cons_of_mem _ hm)⟩
  exact hrest.grew hs fun m hm he => hn (List.mem_singleton.1 he ▸ hm)

/-- A request without an ID is one that was never answered. -/
theorem submitting_of_none (hinv : StoreInv C s) {r : SavedSubmission} (hrow : s.row n = some r)
    (hst : r.status = .submitting ∨ r.status = .submitted) (hnone : r.withdrawalId = none) : r.status = .submitting := by
  rcases hst with h | h
  · exact h
  · have hok := ((hinv.notes n).row r hrow).1
    simp only [submissionOk, outcomeOk, Bool.and_eq_true, h, hnone] at hok
    simp at hok

/-- An item of the recovery list or of the poll list that is let through, and what follows it. -/
theorem ensures_resume {saved : SavedSubmission} {work : Work} {ns : List NoteId} {f : Unit → Task SubmitError Unit}
    {Q : Except SubmitError Unit → World → Prop} (hw : Sound C w) (ht : Turn config work (saved.noteId :: ns) w)
    (hs : saved ∈ work.recover ∨ saved ∈ work.poll)
    (hadm : saved.withdrawalId = none → Admitted w.log w.store saved.noteId)
    (hok : ∀ w', Sound C w' → Steps saved.noteId w w' → Ensures C (f ()) Q w')
    (herr : ∀ e w', Steps saved.noteId w w' → Q (.error e) w') :
    Ensures C (do
      call (.mark (.withdraw saved.noteId))
      advanceSubmission C config saved .recovery
      f ()) Q w := by
  have hnew := ht.left saved.noteId List.mem_cons_self
  have hpending := legal_pending hw.1 ht.work
  obtain ⟨hrow, hst, hmem⟩ : w.store.row saved.noteId = some saved ∧
      (saved.status = .submitting ∨ saved.status = .submitted) ∧ saved.noteId ∈ work.notes := by
    rcases hs with hs | hs
    · obtain ⟨hrow, hst⟩ := hpending.recover saved hs hnew
      exact ⟨hrow, Or.inl hst, List.mem_append_left _ (List.mem_append_left _ (List.mem_map_of_mem hs))⟩
    · obtain ⟨hrow, hst⟩ := hpending.poll saved hs hnew
      exact ⟨hrow, Or.inr hst, List.mem_append_right _ (List.mem_map_of_mem hs)⟩
  obtain ⟨-, hposts, hgets⟩ := legal_requests hw.1 saved.noteId hnew
  refine ensures_seq (ensures_mark hw ⟨rfl, hnew, work, ht.work, hmem⟩ fun hw1 => ?_)
  have hsteps : Steps saved.noteId w (w.record (.withdraw saved.noteId)) := Grew.record rfl
  have hworked : AtHand (w.record (.withdraw saved.noteId)).log saved.noteId :=
    ⟨[], _, w.log, rfl, by simp⟩
  refine ensures_bind (ensures_advanceSubmission .recovery hw1 ht.config hworked
    ((since_skip rfl rfl).trans hgets) hrow hst (fun hnone => ⟨submitting_of_none (legal_inv hw.1) hrow hst hnone,
      (since_skip rfl rfl).trans hposts, (hadm hnone).steps hsteps fun _ => rfl⟩) trivial) ?_ ?_
  · exact fun _ w2 hw2 h => hok w2 hw2 (hsteps.trans h.1)
  · exact fun e w2 _ h => herr e w2 (hsteps.trans h.1)

/-- Before an item the commands are handled, and a cycle that was answered 429 stops. -/
theorem ensures_checkpoint {α : Type} {ns : List NoteId} {stopped : α} {f : Task SubmitError α} (hw : Sound C w)
    (hgo : ∀ w1, Sound C w1 → Grew (Act.within []) w w1 → Ensures C f (fun _ w' => Grew (Act.within ns) w w') w1) :
    Ensures C (do
      adminCheckpoint
      let limited : Bool ← call .rateLimited
      if limited then pure stopped else f) (fun _ w' => Grew (Act.within ns) w w') w := by
  refine ensures_bind (ensures_adminCheckpoint hw) (fun _ w1 hw1 h1 => ?_) fun _ _ _ h => h.aside
  refine ensures_seq (ensures_quiet hw1 rfl fun limited => ?_)
  change Bool at limited
  cases limited with
  | true => exact ensures_pure hw1 h1.aside
  | false => exact hgo w1 hw1 h1

/-- `advance_submissions` (`submission.rs:155`), over what is left of its list. -/
theorem ensures_advanceSubmissions {work : Work} : ∀ {rest : List SavedSubmission} {w : World}, Sound C w →
    Turn config work (rest.map (·.noteId)) w → (∀ r ∈ rest, r ∈ work.recover ∨ r ∈ work.poll) →
    Ensures C (advanceSubmissions C config rest) (fun _ w' => Grew (Act.within (rest.map (·.noteId))) w w') w
  | [], w, hw, _, _ => ensures_pure hw (Grew.refl w)
  | saved :: rest, w, hw, ht, hs => by
    have hmem := hs saved List.mem_cons_self
    have hrest : ∀ r ∈ rest, r ∈ work.recover ∨ r ∈ work.poll := fun r hr => hs r (List.mem_cons_of_mem _ hr)
    refine ensures_checkpoint hw fun w1 hw1 h1 => ?_
    have ht1 := ht.aside h1
    have hburn : ∃ b, w1.store.burn saved.noteId = some b := by
      have hpending := legal_pending hw1.1 ht1.work
      have hnew := ht1.left _ List.mem_cons_self
      have hrow : w1.store.row saved.noteId = some saved :=
        hmem.elim (fun h => (hpending.recover saved h hnew).1) fun h => (hpending.poll saved h hnew).1
      obtain ⟨-, -, b, hb, -⟩ := ((legal_inv hw1.1).notes saved.noteId).row saved hrow
      exact ⟨b, hb⟩
    have hgo : ∀ (admitted : Bool) (w2 : World), Sound C w2 → Grew (Act.within []) w w2 →
        (admitted = true → saved.withdrawalId = none → Admitted w2.log w2.store saved.noteId) →
        Ensures C (if admitted = true then do
            call (.mark (.withdraw saved.noteId))
            advanceSubmission C config saved .recovery
            advanceSubmissions C config rest
          else advanceSubmissions C config rest)
          (fun _ w' => Grew (Act.within ((saved :: rest).map (·.noteId))) w w') w2 := by
      intro admitted w2 hw2 h2 hadm
      have ht2 := ht.aside h2
      cases admitted with
      | true =>
        refine ensures_resume (f := fun _ => advanceSubmissions C config rest) hw2 ht2 hmem (hadm rfl)
          (fun w3 hw3 h3 => ?_) fun _ _ h => h2.aside.trans (Grew.item h)
        refine (ensures_advanceSubmissions hw3 (ht2.tail (Grew.item h3)) hrest).mono fun _ _ _ h => ?_
        exact h2.aside.trans ((Grew.item h3).trans h.later)
      | false =>
        refine (ensures_advanceSubmissions hw2 (Turn.mk ht2.config ht2.work (List.nodup_cons.1 ht2.nodup).2
          fun m hm => ht2.left m (List.mem_cons_of_mem _ hm)) hrest).mono fun _ _ _ h => h2.aside.trans h.later
    -- an item that has its ID is let through, and one without is put to the limit
    split
    · obtain ⟨b, hb⟩ := hburn
      exact ensures_bind (ensures_admitted hw1 ht1.config hb) (fun admitted w2 hw2 h => hgo admitted w2 hw2 (h1.trans h.1)
        fun hres _ => h.2 (by rw [hres])) fun _ _ _ h => (h1.trans h.1).aside
    · rename_i hid
      exact ensures_seq (ensures_pure hw1 (hgo true w1 hw1 h1 fun _ hnone => absurd (by rw [hnone]; rfl) hid))

/-- `submit_withdrawals` (`attester.rs:571`), over what is left of its list. -/
theorem ensures_submitWithdrawals {work : Work} : ∀ {rest : List DiscoveredBurn} {firstError : Option SubmitError}
    {w : World}, Sound C w → Turn config work (rest.map (·.noteId)) w → (∀ d ∈ rest, d ∈ work.ready) →
    Ensures C (submitWithdrawals C config firstError rest)
      (fun _ w' => Grew (Act.within (rest.map (·.noteId))) w w') w
  | [], _, w, hw, _, _ => ensures_pure hw (Grew.refl w)
  | burn :: rest, firstError, w, hw, ht, hs => by
    have hmem := hs burn List.mem_cons_self
    have hrest : ∀ d ∈ rest, d ∈ work.ready := fun d hd => hs d (List.mem_cons_of_mem _ hd)
    refine ensures_checkpoint hw fun w1 hw1 h1 => ?_
    have ht1 := ht.aside h1
    obtain ⟨⟨b, hb, -⟩, -⟩ := (legal_pending hw1.1 ht1.work).ready burn hmem (ht1.left _ List.mem_cons_self)
    refine ensures_bind (ensures_admitted hw1 ht1.config hb) (fun admitted w2 hw2 hR => ?_) fun _ _ _ h =>
      (h1.trans h.1).aside
    obtain ⟨h2, hadm⟩ := hR
    replace h2 := h1.trans h2
    have ht2 := ht.aside h2
    cases admitted with
    | false => exact ensures_pure hw2 h2.aside
    | true =>
      refine ensures_seq (ensures_lift ((ensures_attemptWithdrawal hw2 ht2.config ht2.work hmem
        (ht2.left _ List.mem_cons_self) (hadm rfl)).mono fun res w3 hw3 h3 => ?_))
      have hlater : ∀ firstError, Ensures C (submitWithdrawals C config firstError rest)
          (fun _ w' => Grew (Act.within ((burn :: rest).map (·.noteId))) w w') w3 := fun firstError =>
        (ensures_submitWithdrawals hw3 (ht2.tail (Grew.item h3)) hrest).mono fun _ _ _ h =>
          h2.aside.trans ((Grew.item h3).trans h.later)
      cases res with
      | ok _ => exact hlater firstError
      | error e =>
        show Ensures C (if e.isFatal = true then _ else _) _ w3
        split
        · exact ensures_throw hw3 (h2.aside.trans (Grew.item h3))
        · exact hlater _

/-! ## Discovery -/

/-- A cycle whose work lists are not taken yet. -/
structure Scanning (config : Config) (w : World) : Prop where
  attached : Attached config w.store
  config : configOf w.log = some config
  work : workOf w.log = none

theorem Attached.grew {P : Act → Prop} {w1 w2 : World} (h : Attached config w1.store) (hs : Grew P w1 w2) :
    Attached config w2.store := by
  unfold Attached
  rw [hs.state]
  exact h

theorem Scanning.aside {w1 w2 : World} (h : Scanning config w1) (hs : Grew (Act.within []) w1 w2) : Scanning config w2 :=
  ⟨h.attached.grew hs, hs.plain.configOf.trans h.config, hs.plain.workOf.trans h.work⟩

/-- `save_block` commits an authenticated block as the next checkpoint, or nothing. -/
theorem ensures_saveBlock {block : SignedBlock} {st : AttesterState} (hw : Sound C w) (hst : w.store.state = some st)
    (hfaucet : st.faucetAccountId = config.faucetAccountId) (hauth : Authenticated C st block) :
    Ensures C (saveBlock C config block) (fun res w' => (∃ newer, w'.log = newer ++ w.log ∧
      ∀ e ∈ newer, e.act.isPlain = true) ∧ (res = .ok () → w'.store.state = some { st with checkpoint := block.header }) ∧
      ∀ e, res = .error e → w'.store.state = some st) w := by
  refine ensures_seq (ensures_query hw (fun found hfound => ?_) fun e => ⟨⟨[], rfl, by simp⟩, by simp, fun _ _ => hst⟩)
  obtain ⟨candidates, burns⟩ := found
  refine ensures_write (x := .scan candidates burns block.header) hw (by simp)
    (fun _ _ => ⟨block, st, rfl, hst, hauth, by rw [hfaucet]; exact hfound⟩) (by simp [Write.isStep])
    (fun s' hs' _ => ⟨⟨[_], rfl, by simp [Act.isPlain]⟩, fun _ => saveScanProgress_state hs' hst, by simp⟩)
    fun e => ⟨⟨[_], rfl, by simp [Act.isPlain]⟩, by simp, fun _ _ => hst⟩

/-- The loop of `discover_burns`: the parent is the saved checkpoint. -/
theorem ensures_scanBlocks : ∀ {blocks : List BlockNumber} {parent : BlockHeader} {st : AttesterState} {w : World},
    Sound C w → Scanning config w → w.store.state = some st → st.checkpoint = some parent →
    blocks = List.range' (parent.blockNum + 1) blocks.length →
    Ensures C (scanBlocks C config parent blocks) (fun _ w' => Scanning config w') w
  | [], parent, st, w, hw, hsc, _, _, _ => ensures_pure hw hsc
  | blockNum :: rest, parent, st, w, hw, hsc, hst, hparent, hblocks => by
    rw [List.length_cons, List.range'_succ] at hblocks
    obtain ⟨hnum, hrest⟩ := List.cons.inj hblocks
    refine ensures_bind (ensures_adminCheckpoint hw) (fun _ w1 hw1 h1 => ?_) fun _ _ _ h => hsc.aside h
    have hsc1 := hsc.aside h1
    have hst1 : w1.store.state = some st := h1.state.trans hst
    refine ensures_bind (R := fun res w2 => w2 = w1 ∧ ∀ block, res = .ok block →
      block.header.blockNum = blockNum ∧ C.validate block (some parent) = true) ?_ (fun block w2 hw2 hR => ?_)
      fun _ _ _ h => h.1 ▸ hsc1
    · refine ensures_seq (ensures_quiet hw1 rfl fun answer => ?_)
      refine ensures_seq (ensures_attempt hw1 (fun block _ => ?_) fun _ => ⟨rfl, by simp⟩)
      show Ensures C (if _ then _ else _) _ w1
      split
      · exact ensures_throw hw1 ⟨rfl, by simp⟩
      · rename_i hok
        obtain ⟨hnumber, hvalid⟩ := not_or.1 hok
        refine ensures_pure hw1 ⟨rfl, fun b hb => ?_⟩
        cases hb
        exact ⟨not_not.1 hnumber, by simpa using hvalid⟩
    · obtain ⟨rfl, hblock⟩ := hR
      obtain ⟨hnumber, hvalid⟩ := hblock block rfl
      obtain ⟨st', hst', hfaucet, hanchor, -⟩ := hsc1.attached
      obtain rfl : st = st' := Option.some.inj (hst1.symm.trans hst')
      have hauth : Authenticated C st block := by
        unfold Authenticated
        rw [hparent]
        exact ⟨hnumber.trans hnum, hvalid⟩
      refine ensures_bind (ensures_saveBlock hw2 hst1 hfaucet hauth) (fun _ w3 hw3 h3 => ?_) (fun e w3 _ h3 => ?_)
      · obtain ⟨⟨newer, hlog, hplain⟩, hstate, -⟩ := h3
        have hsc3 : Scanning config w3 :=
          ⟨⟨_, hstate rfl, hfaucet, hanchor, rfl⟩, by rw [hlog, configOf_append hplain, hsc1.config],
            by rw [hlog, workOf_append hplain, hsc1.work]⟩
        refine ensures_scanBlocks hw3 hsc3 (hstate rfl) rfl ?_
        rw [hnumber, hnum]
        exact hrest
      · obtain ⟨⟨newer, hlog, hplain⟩, -, hstate⟩ := h3
        exact ⟨⟨st, hstate e rfl, hfaucet, hanchor, by rw [hparent]; rfl⟩,
          by rw [hlog, configOf_append hplain, hsc1.config], by rw [hlog, workOf_append hplain, hsc1.work]⟩

/-- Comparing the checkpoint with the node's block changes nothing. -/
theorem ensures_checkCheckpoint {checkpoint : BlockHeader} (hw : Sound C w) :
    Ensures C (checkCheckpoint checkpoint) (fun _ w' => w' = w) w := by
  refine ensures_seq (ensures_quiet hw rfl fun answer => ?_)
  refine ensures_seq (ensures_attempt hw (fun block _ => ?_) fun _ => rfl)
  show Ensures C (if _ then _ else _) _ w
  split
  · exact ensures_throw hw rfl
  · exact ensures_pure hw rfl

theorem ensures_discoverBurns (hw : Sound C w) (hsc : Scanning config w) :
    Ensures C (discoverBurns C config) (fun _ w' => Scanning config w') w := by
  refine ensures_seq (ensures_query hw (fun checkpoint hcp => ?_) fun _ => hsc)
  obtain ⟨st, hst, hcheck⟩ : ∃ st, w.store.state = some st ∧ st.checkpoint = some checkpoint := by
    rw [currentCheckpoint, bind_ok] at hcp
    obtain ⟨found, hfound, hcp⟩ := hcp
    simp only [Store.checkpoint, orThrow_bind_ok, pure_ok] at hfound
    obtain ⟨st, hst, rfl⟩ := hfound
    exact ⟨st, hst, orThrow_ok.1 hcp⟩
  refine ensures_seq (ensures_quiet hw rfl fun answer => ?_)
  refine ensures_seq (ensures_attempt hw (fun limits _ => ?_) fun _ => hsc)
  show Ensures C (if _ then _ else _) _ w
  split
  · split
    · exact ensures_pure hw hsc
    · exact ensures_throw hw hsc
  · split
    · refine ensures_bind (ensures_checkCheckpoint hw) (fun _ w1 hw1 h => ?_) fun _ _ _ h => h ▸ hsc
      exact ensures_pure hw1 (h ▸ hsc)
    · refine ensures_bind (ensures_scanBlocks hw hsc hst hcheck (by simp)) (fun _ w1 hw1 h => ?_) fun _ _ _ h => h
      exact ensures_pure hw1 h

/-! ## A cycle -/

theorem ensures_discoveryOutcome {found : Except DiscoverError BlockNumber} (hw : Sound C w) (hsc : Scanning config w) :
    Ensures C (discoveryOutcome found) (fun res w' => Scanning config w' ∧
      ∀ lag, res = .ok (some lag) → lagOf w'.log = some lag) w := by
  unfold discoveryOutcome
  split
  · rename_i lag
    refine ensures_seq (ensures_mark hw ⟨rfl, hsc.work⟩ fun hw1 => ensures_pure hw1 ⟨?_, fun _ h => by cases h; rfl⟩)
    exact ⟨hsc.attached, hsc.config, hsc.work⟩
  · exact ensures_pure hw ⟨hsc, fun _ h => by cases h⟩
  · exact ensures_throw hw ⟨hsc, fun _ h => by cases h⟩

/-- The lists are taken from one committed store, before anything is taken up. -/
theorem ensures_snapshot {lag : Option BlockNumber} (hw : Sound C w) (hsc : Scanning config w)
    (hlag : ∀ l, lag = some l → lagOf w.log = some l) :
    Ensures C (snapshot C config lag) (fun res w' => Attached config w'.store ∧
      ∀ work, res = .ok work → Turn config work work.notes w') w := by
  have herr : ∀ {e : DiscoverError}, Attached config w.store ∧
      ∀ work, (Except.error e : Except DiscoverError Work) = .ok work → Turn config work work.notes w :=
    ⟨hsc.attached, fun _ h => by cases h⟩
  refine ensures_seq (ensures_query hw (fun recover hrec => ?_) fun _ => herr)
  refine ensures_seq (ensures_query hw (fun poll hpoll => ?_) fun _ => herr)
  have hgo : ∀ ready : List DiscoveredBurn, (ready = [] ∨ ∃ config lag, configOf w.log = some config ∧
      lagOf w.log = some lag ∧ w.store.burnsReadyForWithdrawal C config.faucetAccountId lag
        config.minimumFinalityDepthBlocks = .ok ready) →
      Ensures C (do
        call (.mark (.snapshot { recover := recover, ready := ready, poll := poll }))
        (pure { recover := recover, ready := ready, poll := poll } : Task DiscoverError Work))
        (fun res w' => Attached config w'.store ∧ ∀ work, res = .ok work → Turn config work work.notes w') w := by
    intro ready hready
    have hsnap : Snapshot C w.log w.store ⟨recover, ready, poll⟩ :=
      ⟨hrec, hpoll, hready, config, hsc.config, hsc.attached⟩
    refine ensures_seq (ensures_mark hw ⟨rfl, hsc.work, hsnap⟩ fun hw1 => ensures_pure hw1 ⟨hsc.attached, ?_⟩)
    rintro work hwork
    cases hwork
    refine ⟨hsc.config, rfl, hsnap.nodup, fun n _ => ?_⟩
    exact fun h => legal_unworked hw.1 hsc.work n (by simpa [Worked, World.record, Mark.act, since_cons, Act.isCycle,
      Act.opens] using h)
  split
  · rename_i l
    refine ensures_seq (ensures_query hw (fun ready hready => hgo ready ?_) fun _ => herr)
    exact Or.inr ⟨config, l, hsc.config, hlag l rfl, hready⟩
  · exact hgo [] (Or.inl rfl)

theorem Turn.first {work : Work} {ns ms : List NoteId} (h : Turn config work (ns ++ ms) w) : Turn config work ns w :=
  ⟨h.config, h.work, (List.nodup_append.1 h.nodup).1, fun n hn => h.left n (List.mem_append_left _ hn)⟩

theorem Turn.second {work : Work} {ns ms : List NoteId} {w1 w2 : World} (h : Turn config work (ns ++ ms) w1)
    (hs : Grew (Act.within ns) w1 w2) : Turn config work ms w2 := by
  obtain ⟨-, hms, hne⟩ := List.nodup_append.1 h.nodup
  have hlater : Turn config work ms w1 := ⟨h.config, h.work, hms, fun n hn => h.left n (List.mem_append_right _ hn)⟩
  exact hlater.grew hs fun n hn hm => hne n hm n hn rfl

theorem ensures_cycle (hw : Sound C w) (hatt : Attached config w.store) :
    Ensures C (cycle C config) (fun _ w' => Attached config w'.store) w := by
  refine ensures_seq (ensures_mark hw ⟨rfl, hatt⟩ fun hw1 => ?_)
  refine ensures_seq (ensures_setRateLimited hw1 ?_)
  have hsc : Scanning config { w.record (Mark.act (.cycle config)) with rateLimited := false } := ⟨hatt, rfl, rfl⟩
  have hfound := ensures_discoverBurns (w := { w.record _ with rateLimited := false }) hw1 hsc
  refine ensures_seq (ensures_lift (hfound.mono fun found w2 hw2 h2 => ?_))
  refine ensures_bind (ensures_discoveryOutcome hw2 h2) (fun lag w3 hw3 h3 => ?_) fun _ _ _ h => h.1.attached
  refine ensures_bind (ensures_snapshot hw3 h3.1 fun l hl => h3.2 l (by rw [hl])) (fun work w4 hw4 h4 => ?_)
    fun _ _ _ h => h.1
  obtain ⟨hatt4, hturn⟩ := h4
  have ht := hturn work rfl
  refine ensures_bind (R := fun _ w' => Grew (Act.within (work.recover.map (·.noteId))) w4 w')
    (ensures_adapt (ensures_advanceSubmissions hw4 ht.first.first fun r hr => Or.inl hr))
    (fun _ w5 hw5 h5 => ?_) fun _ _ _ h => hatt4.grew h
  have hatt5 := hatt4.grew h5
  have ht5 : Turn config work (work.ready.map (·.noteId) ++ work.poll.map (·.noteId)) w5 := by
    refine Turn.second ?_ h5
    rw [← List.append_assoc]
    exact ht
  refine ensures_bind (R := fun _ w' => Grew (Act.within (work.ready.map (·.noteId))) w5 w')
    (ensures_adapt (ensures_submitWithdrawals hw5 ht5.first fun d hd => hd))
    (fun _ w6 hw6 h6 => ?_) fun _ _ _ h => hatt5.grew h
  exact ensures_adapt ((ensures_advanceSubmissions hw6 (ht5.second h6) fun r hr => Or.inr hr).mono
    fun _ _ _ h => (hatt5.grew h6).grew h)

theorem ensures_run : ∀ {cycles : Nat} {w : World}, Sound C w → Attached config w.store →
    Ensures C (run C config cycles) (fun _ _ => True) w
  | 0, w, hw, _ => ensures_pure hw trivial
  | cycles + 1, w, hw, hatt => by
    refine ensures_bind (ensures_adminCheckpoint hw) (fun _ w1 hw1 h1 => ?_) fun _ _ _ _ => trivial
    refine ensures_seq (ensures_lift ((ensures_cycle hw1 (hatt.grew h1)).mono fun res w2 hw2 h2 => ?_))
    have hnext : Ensures C (do
        let commands : List Command ← call .inbox
        handleEach commands
        run C config cycles) (fun _ _ => True) w2 := by
      refine ensures_seq (ensures_quiet hw2 rfl fun commands => ?_)
      refine ensures_bind (ensures_handleEach hw2) (fun _ w3 hw3 h3 => ?_) fun _ _ _ _ => trivial
      exact ensures_run hw3 (h2.grew h3)
    show Ensures C _ _ w2
    beta_reduce
    split
    · exact ensures_pure hw2 trivial
    · exact hnext

/-! ## A process -/

/-- A store that opens belongs to this faucet and anchor. -/
theorem openExisting_ok {faucet : AccountId} {anchor : TrustedAnchor} (h : s.openExisting C faucet anchor = .ok ()) :
    ∃ st, s.state = some st ∧ st.faucetAccountId = faucet ∧ st.anchor = anchor := by
  simp only [openExisting, validateStore, ensure_bind_ok, orThrow_bind_ok] at h
  obtain ⟨-, -, -, -, st, hst, hfaucet, hanchor, -⟩ := h
  exact ⟨st, hst, hfaucet, hanchor⟩

theorem ensures_openFile {ρ : Type} {create : Bool} {Q : Except ρ (Except StoreError Unit) → World → Prop}
    (hw : Sound C w) (hQ : ∀ answer w', Sound C w' → w'.store = w.store → (create = true → w'.fileExists = true) →
      Q (.ok answer) w') : Ensures C (call (.openFile create)) Q w := by
  have hsound : Sound C (if create = true then { w with fileExists := true } else w) := by
    split
    · exact ⟨hw.1, fun h => by cases h⟩
    · exact hw
  refine ensures_call hw fun e => ⟨hsound, hQ _ _ hsound ?_ fun h => ?_⟩
  · show (if create = true then { w with fileExists := true } else w).store = w.store
    split <;> rfl
  · show (if create = true then { w with fileExists := true } else w).fileExists = true
    rw [if_pos h]

/-- `open_or_create` writes the first tables only into a file it made itself. -/
theorem ensures_openOrCreate (hw : Sound C w) : Ensures C (openOrCreate C config) (fun res w' => res = .ok () →
    ∃ st, w'.store.state = some st ∧ st.faucetAccountId = config.faucetAccountId ∧ st.anchor = config.trustedAnchor) w := by
  refine ensures_seq (ensures_call hw fun e => ⟨hw, ?_⟩)
  refine ensures_seq (ensures_attempt (x := if e.storeFails then .error StoreError.io else .ok w.fileExists) hw
    (fun exist hexist => ?_) fun _ h => by cases h)
  obtain rfl : w.fileExists = exist := by
    split at hexist
    · cases hexist
    · exact Except.ok.inj hexist
  refine ensures_seq (ensures_openFile hw fun opened w1 hw1 hstore hfile => ?_)
  refine ensures_seq (ensures_attempt hw1 (fun _ _ => ?_) fun _ h => by cases h)
  show Ensures C (if w.fileExists = true then _ else _) _ w1
  split
  · exact ensures_query hw1 (fun _ hopen _ => openExisting_ok hopen) fun _ h => by cases h
  · rename_i hnew
    have hblank : w1.store = .blank := hstore.trans (hw.2 (by simpa using hnew))
    refine ensures_write (x := .create config.faucetAccountId config.trustedAnchor) hw1 (fun _ _ _ => hfile rfl)
      (fun _ _ => hblank) (by simp [Write.isStep]) (fun s' hs' _ _ => ?_) fun _ h => by cases h
    cases hs'
    exact ⟨_, rfl, rfl, rfl⟩

theorem ensures_fetchAnchor (hw : Sound C w) : Ensures C (fetchAnchor C config) (fun res w' => w' = w ∧
    ∀ block, res = .ok block → block.header.blockNum = config.trustedAnchor.blockNum ∧
      block.header.commitment = config.trustedAnchor.commitment ∧ C.validate block none = true) w := by
  refine ensures_seq (ensures_quiet hw rfl fun answer => ?_)
  refine ensures_seq (ensures_attempt hw (fun block _ => ?_) fun _ => ⟨rfl, fun _ h => by cases h⟩)
  show Ensures C (if _ then _ else _) _ w
  split
  · exact ensures_throw hw ⟨rfl, fun _ h => by cases h⟩
  · rename_i hok
    obtain ⟨hnum, hok⟩ := not_or.1 hok
    obtain ⟨hcommit, hvalid⟩ := not_or.1 hok
    refine ensures_pure hw ⟨rfl, fun b hb => ?_⟩
    cases hb
    exact ⟨not_not.1 hnum, not_not.1 hcommit, by simpa using hvalid⟩

/-- A started attester has its store attached: the saved checkpoint, or the pinned anchor as the first. -/
theorem ensures_start (hw : Sound C w) :
    Ensures C (start C config) (fun res w' => res = .ok () → Attached config w'.store) w := by
  have herr : ∀ {e : String} {w' : World}, (Except.error e : Except String Unit) = .ok () → Attached config w'.store :=
    fun h => by cases h
  refine ensures_seq (ensures_quiet hw rfl fun answer => ?_)
  refine ensures_seq (ensures_attempt hw (fun exist _ => ?_) fun _ => herr)
  refine ensures_seq (ensures_attempt hw (fun _ _ => ?_) fun _ => herr)
  refine ensures_bind (ensures_fetchAnchor hw) (fun block w1 hw1 h1 => ?_) fun _ _ _ _ => herr
  obtain ⟨rfl, hblock⟩ := h1
  obtain ⟨hnum, hcommit, hvalid⟩ := hblock block rfl
  refine ensures_seq (ensures_quiet hw1 rfl fun expected => ?_)
  refine ensures_seq (ensures_attempt hw1 (fun _ _ => ?_) fun _ => herr)
  refine ensures_seq (ensures_quiet hw1 rfl fun reachable => ?_)
  refine ensures_seq (ensures_attempt hw1 (fun _ _ => ?_) fun _ => herr)
  refine ensures_bind (R := fun res w' => res = .ok () → ∃ st, w'.store.state = some st ∧
    st.faucetAccountId = config.faucetAccountId ∧ st.anchor = config.trustedAnchor)
    (ensures_adapt ((ensures_openOrCreate hw1).mono fun res w' _ h hres => h ?_)) (fun _ w2 hw2 h2 => ?_)
    fun _ _ _ _ => herr
  · cases res with
    | ok _ => rfl
    | error e => cases hres
  obtain ⟨st, hst, hfaucet, hanchor⟩ := h2 rfl
  refine ensures_seq (ensures_query hw2 (fun wait _ => ?_) fun _ => herr)
  refine ensures_seq (ensures_attempt hw2 (fun _ _ => ?_) fun _ => herr)
  refine ensures_seq (ensures_query hw2 (fun checkpoint hcp => ?_) fun _ => herr)
  simp only [Store.checkpoint, orThrow_bind_ok, pure_ok] at hcp
  obtain ⟨st', hst', rfl⟩ := hcp
  obtain rfl : st = st' := Option.some.inj (hst.symm.trans hst')
  cases hcheck : st.checkpoint with
  | some checkpoint =>
    refine ensures_adapt ((ensures_checkCheckpoint hw2).mono fun _ w3 _ h3 _ => ?_)
    exact h3 ▸ ⟨st, hst, hfaucet, hanchor, by rw [hcheck]; rfl⟩
  | none =>
    have hauth : Authenticated C st block := by
      unfold Authenticated
      rw [hcheck, hanchor]
      exact ⟨hnum, hcommit, hvalid⟩
    refine ensures_adapt ((ensures_saveBlock hw2 hst hfaucet hauth).mono fun res w3 _ h3 hres => ?_)
    cases res with
    | ok _ => exact ⟨_, h3.2.1 rfl, hfaucet, hanchor, rfl⟩
    | error e => cases hres

theorem ensures_serve {cycles : Nat} (hw : Sound C w) : Ensures C (serve C config cycles) (fun _ _ => True) w := by
  refine ensures_bind (ensures_start hw) (fun _ w1 hw1 h1 => ?_) fun _ _ _ _ => trivial
  exact ensures_adapt ((ensures_run hw1 (h1 rfl)).mono fun _ _ _ _ => trivial)

theorem ensures_releaseOffline {faucet : AccountId} {anchor : TrustedAnchor} {notes : List NoteId} (hw : Sound C w) :
    Ensures C (releaseOffline C faucet anchor notes) (fun _ _ => True) w := by
  refine ensures_seq (ensures_openFile hw fun opened w1 hw1 _ _ => ?_)
  refine ensures_seq (ensures_attempt hw1 (fun _ _ => ?_) fun _ => trivial)
  refine ensures_seq (ensures_query hw1 (fun _ _ => ?_) fun _ => trivial)
  exact ensures_write (x := .releaseAll notes) hw1 (by simp) (fun _ _ => trivial) (by simp [Write.isStep])
    (fun _ _ _ => trivial) fun _ => trivial

/-- One process, wherever it crashes, leaves a legal log. -/
theorem lifetime_sound (hw : Sound C w) (l : Lifetime) : Sound C (l.run C w) := by
  cases l with
  | serve config cycles env => exact (Prog.Keeps.run env (ensures_serve hw)).1
  | releaseHolds faucet anchor notes env => exact (Prog.Keeps.run env (ensures_releaseOffline hw)).1

theorem runs_sound (lifetimes : List Lifetime) : Sound C (runAll C lifetimes) := by
  have hrun : ∀ (ls : List Lifetime) (w : World), Sound C w → Sound C (ls.foldl (Lifetime.run C) w) := by
    intro ls
    induction ls with
    | nil => exact fun w hw => hw
    | cons l ls ih => exact fun w hw => ih _ (lifetime_sound hw l)
  exact hrun lifetimes .start ⟨.nil, fun _ => rfl⟩

/-- **Refinement.** The log of every run, over any processes and any environment, is legal. -/
theorem runs_legal (lifetimes : List Lifetime) :
    Legal C (runAll C lifetimes).log (runAll C lifetimes).store := (runs_sound lifetimes).1

end LightAttester
