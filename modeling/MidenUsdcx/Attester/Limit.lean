import MidenUsdcx.Attester.Reopen
/-!
# Waiting for Circle's withdrawal limit (`attester.rs:541-616`, `store.rs:701-826`)

A burn that Circle's limit rejected waits, and every burn after it in the order of withdrawal waits
behind it. Three results: who may be asked about while a burn waits and how far apart its retries are
(`limit_kept`), and what a waiting burn can still come to (`waits_stay_open`).

The deadline a burn waits for changes in two transactions only, and both compute it from the clock
reading just before (`deadline_step`, `Timed`). The pacing over a whole run follows from that and from
a clock that does not go back.
-/
namespace LightAttester
open Checked Interact Keyed Store

variable {C : Crates} {s s' : Store} {L : List Entry} {n : NoteId}

/-! ## The deadline of a burn -/

/-- The deadline a burn waits for. -/
def deadline (s : Store) (n : NoteId) : Option Nat := (s.burn n).bind BurnRow.limitRetryAt

theorem deadline_of_burn {b : BurnRow} (h : s.burn n = some b) : deadline s n = b.limitRetryAt := by
  rw [deadline, h]
  rfl

theorem deadline_putBurn (b : BurnRow) (n : NoteId) :
    deadline (s.putBurn b) n = if b.noteId = n then b.limitRetryAt else deadline s n := by
  rw [deadline, putBurn_burn]
  split
  · rfl
  · rfl

/-- A scan sets no deadline. -/
theorem deadline_scan {cs : List BurnCandidate} {ds : List DiscoveredBurn} {hd : BlockHeader} {t : Nat}
    (h : s.saveScanProgress cs ds hd = .ok s') (ht : deadline s' n = some t) : deadline s n = some t := by
  obtain ⟨-, s1, s2, st, h1, h2, -, rfl⟩ := saveScanProgress_ok h
  refine scan_induct (P := fun z => ∀ t, deadline z n = some t → deadline s n = some t) ?_ ?_ (fun _ ht => ht) h1 h2 t ht
  · intro a c z _ ha hz t ht
    obtain ⟨-, -, rfl⟩ := insertCandidate_ok hz
    rw [deadline_putBurn] at ht
    split at ht
    · cases ht
    · exact ha t ht
  · intro a d z _ ha hz t ht
    rcases insertBurn_ok hz with ⟨-, -, -, rfl⟩ | ⟨b, hb, -, -, rfl⟩
    · rw [deadline_putBurn] at ht
      split at ht
      · cases ht
      · exact ha t ht
    · rw [deadline_putBurn] at ht
      split at ht
      · rename_i hm
        have hn : d.noteId = n := (burn_noteId hb).symm.trans hm
        exact ha t ((deadline_of_burn (b := b) (hn ▸ hb)).trans ht)
      · exact ha t ht

/-- The transactions that set the deadline of `n` to `t`. -/
def Write.sets (n : NoteId) (t : Nat) : Write → Prop
  | .advance m u | .limit m u _ _ => m = n ∧ u = t
  | _ => False

/-- **What a commit can do** to a deadline: set it, clear it, or leave it. -/
theorem deadline_step {w : Write} {t : Nat} (hw : w.apply C s = .ok s') (hok : WriteOk C L s w)
    (ht : deadline s' n = some t) : (deadline s n = some t ∧ ∀ u, w ≠ .advance n u) ∨ w.sets n t := by
  cases w with
  | create faucet anchor =>
    cases hw
    cases ht
  | scan cs ds hd => exact Or.inl ⟨deadline_scan hw ht, by simp⟩
  | save rec =>
    obtain ⟨-, -, b, -, rfl⟩ := saveSubmission_ok hw
    exact Or.inl ⟨ht, by simp⟩
  | outcome out =>
    obtain ⟨r, hleaves⟩ := outcome_leaves hw
    refine Or.inl ⟨?_, by simp⟩
    unfold deadline at ht ⊢
    rw [hleaves.burn n] at ht
    split at ht
    · cases hb : s.burn n with
      | none => simp [hb] at ht
      | some b => simp [hb] at ht
    · exact ht
  | hold m reason resp =>
    obtain ⟨b, hb, rfl⟩ := holdBurn_ok hw
    refine Or.inl ⟨?_, by simp⟩
    change deadline (s.putBurn _) n = some t at ht
    rw [deadline_putBurn] at ht
    split at ht
    · cases ht
    · exact ht
  | advance m u =>
    obtain ⟨b, hb, -, rfl⟩ := advanceLimitRetry_ok hw
    rw [deadline_putBurn] at ht
    split at ht
    · rename_i hm
      exact Or.inr ⟨(burn_noteId hb).symm.trans hm, Option.some.inj ht⟩
    · rename_i hm
      refine Or.inl ⟨ht, fun v e => hm ?_⟩
      cases e
      exact show b.noteId = n from burn_noteId hb
  | limit m u body sub =>
    obtain ⟨b, f, hleaves⟩ := limit_leaves hw
    have ht' := ht
    rw [deadline, hleaves.burn n] at ht'
    split at ht'
    · rename_i hm
      exact Or.inr ⟨hm.symm, Option.some.inj ht'⟩
    · exact Or.inl ⟨ht', by simp⟩
  | release | releaseAll =>
    refine Or.inl ⟨?_, by simp⟩
    rcases (Write.release_frame hw rfl n).1 with he | ⟨b, hb, -, hb'⟩
    · rwa [deadline, he] at ht
    · rw [deadline_of_burn hb'] at ht
      rwa [deadline_of_burn hb]

/-! ## Retries -/

/-- The item at hand began with a retry of `n` at the clock reading `now`: the saved deadline `old` had passed, and
the new one, at least the configured interval away, was committed before anything else. -/
structure Retried (L : List Entry) (n : NoteId) (now : Int) (newer : List Entry) (t : Nat) (s : Store)
    (older : List Entry) : Prop where
  log : L = newer ++ ⟨.commit (.advance n t), s⟩ :: ⟨.clock now, storeOf older⟩ :: older
  item : ∀ e ∈ newer, e.act.about n
  committed : deadline s n = some t
  passed : ∃ d old : Nat, now = d ∧ deadline (storeOf older) n = some old ∧ old ≤ asSecs d
  spaced : ∃ config policy, configOf older = some config ∧ config.withdrawalLimit = some policy ∧
    now + policy.retryInterval ≤ (t * nanosPerSec : Nat)

theorem retryAt_spaced {policy : WithdrawalLimit} {now : Int} {t : Nat} (h : policy.retryAt now = .ok t) :
    now + policy.retryInterval ≤ (t * nanosPerSec : Nat) := by
  obtain ⟨d, rfl, -, rfl, -⟩ := retryAt_ok h
  have hceil := (secsCeil_bounds (d + policy.retryInterval)).1
  omega

/-- A clock reading leaves the store and the configuration. -/
theorem legal_clock {now : Int} {s1 : Store} {older : List Entry} (h : Legal C L s) (hL : L = ⟨.clock now, s1⟩ :: older) :
    s1 = storeOf older ∧ configOf L = configOf older := by
  subst hL
  exact ⟨h.tail.2, rfl⟩

/-- A new deadline in a legal log is a retry. -/
theorem retried_of_advanced (h : Legal C L s) (hadv : Advanced L n) :
    ∃ now newer t s1 older, Retried L n now newer t s1 older := by
  obtain ⟨newer, rest, s1, t, rfl, hitem⟩ := hadv
  obtain ⟨hrest, hw, now, d, b, old, htimed, hd, hb, hold, hle⟩ := h.entry
  obtain ⟨older, config, policy, hlog, hcfg, hpolicy, hretry⟩ := htimed
  obtain ⟨hstore, hconfig⟩ := legal_clock hrest hlog
  refine ⟨now, newer, t, s1, older, ?_, hitem, ?_, ⟨d, old, sinceEpoch_eq_some hd, ?_, hle⟩,
    ⟨config, policy, hconfig ▸ hcfg, hpolicy, retryAt_spaced hretry⟩⟩
  · rw [← hstore, ← hlog]
  · obtain ⟨b', hb', -, hs1⟩ := advanceLimitRetry_ok hw
    obtain rfl : s1 = _ := hs1
    rw [deadline_putBurn]
    exact if_pos (burn_noteId hb')
  · rw [← hstore, deadline_of_burn hb, hold]

/-! ## Pacing -/

/-- The clock readings of a run, newest first. -/
def clocks (L : List Entry) : List Int := L.filterMap fun e => match e.act with
  | .clock now => some now
  | _ => none

/-- A clock that does not go back. -/
def Steady (L : List Entry) : Prop := (clocks L).Pairwise fun newer older => older ≤ newer

/-- Every configuration the attester ran with keeps retries at least `d` apart. -/
def Spaced (d : Nat) (L : List Entry) : Prop := ∀ e ∈ L, ∀ config policy, e.act = .cycle config →
  config.withdrawalLimit = some policy → d ≤ policy.retryInterval

theorem mem_clocks {now : Int} : now ∈ clocks L ↔ ∃ s, (⟨.clock now, s⟩ : Entry) ∈ L := by
  rw [clocks, List.mem_filterMap]
  constructor
  · rintro ⟨⟨act, s⟩, he, hact⟩
    cases act <;> cases hact
    exact ⟨s, he⟩
  · rintro ⟨s, he⟩
    exact ⟨_, he, rfl⟩

theorem clocks_append (l : List Entry) : clocks (l ++ L) = clocks l ++ clocks L := List.filterMap_append

theorem Steady.older {l : List Entry} (h : Steady (l ++ L)) : Steady L := by
  rw [Steady, clocks_append] at h
  exact (List.pairwise_append.1 h).2.1

theorem Spaced.older {d : Nat} {l : List Entry} (h : Spaced d (l ++ L)) : Spaced d L :=
  fun e he => h e (List.mem_append_right _ he)

/-- The latest reading is the largest. -/
theorem Steady.latest {now before : Int} {s1 s2 : Store} (h : Steady (⟨.clock now, s1⟩ :: L))
    (hmem : (⟨.clock before, s2⟩ : Entry) ∈ L) : before ≤ now :=
  (List.pairwise_cons.1 h).1 before (mem_clocks.2 ⟨s2, hmem⟩)

theorem mem_of_configOf {config : Config} (h : configOf L = some config) : ∃ e ∈ L, e.act = .cycle config := by
  induction L with
  | nil => cases h
  | cons e L ih =>
    by_cases hact : e.act = .cycle config
    · exact ⟨e, List.mem_cons_self, hact⟩
    · have hrest : configOf L = some config := by
        unfold configOf at h
        split at h
        · rename_i c hc
          exact absurd (hc.trans (congrArg Act.cycle (Option.some.inj h))) hact
        · exact h
      obtain ⟨e', he', hact'⟩ := ih hrest
      exact ⟨e', List.mem_cons_of_mem _ he', hact'⟩

/-- A deadline set from the latest reading is `d` past every reading so far. -/
theorem Timed.spaced {d t : Nat} {now before : Int} {s1 : Store} (h : Timed L s t now) (hclock : Steady L)
    (hspaced : Spaced d L) (hmem : (⟨.clock before, s1⟩ : Entry) ∈ L) : before + d ≤ (t * nanosPerSec : Nat) := by
  obtain ⟨older, config, policy, hlog, hcfg, hpolicy, hretry⟩ := h
  obtain ⟨e, he, hact⟩ := mem_of_configOf hcfg
  have hd := hspaced e he config policy hact hpolicy
  have ht := retryAt_spaced hretry
  have hle : before ≤ now := by
    rw [hlog] at hmem hclock
    rcases List.mem_cons.1 hmem with heq | hmem
    · cases heq
      exact le_rfl
    · exact hclock.latest hmem
  omega

/-- Where a deadline comes from: it was computed from the latest reading, or it stood before. -/
theorem Allowed.timed {a : Act} {t : Nat} (h : Allowed C L s a s') (ht : deadline s' n = some t) :
    (∃ now, Timed L s t now) ∨ deadline s n = some t ∧ ∀ u, a ≠ .commit (.advance n u) := by
  by_cases hcommit : ∃ w, a = .commit w
  · obtain ⟨w, rfl⟩ := hcommit
    obtain ⟨hw, hok⟩ := h
    rcases deadline_step hw hok ht with ⟨hk, hne⟩ | hsets
    · exact Or.inr ⟨hk, fun u hu => hne u (Act.commit.inj hu)⟩
    · cases w with
      | advance m v =>
        obtain ⟨rfl, rfl⟩ := hsets
        obtain ⟨now, -, -, -, htimed, -⟩ := hok
        exact Or.inl ⟨now, htimed⟩
      | limit m v body sub =>
        obtain ⟨rfl, rfl⟩ := hsets
        exact Or.inl hok.2.1
      | _ => exact hsets.elim
  · rcases h.store with rfl | ⟨w, rfl, -⟩
    · exact Or.inr ⟨ht, fun u hu => hcommit ⟨_, hu⟩⟩
    · exact absurd ⟨w, rfl⟩ hcommit

/-- The deadline of a waiting burn is at least `d` past each of its retries so far. -/
theorem legal_paced {d : Nat} (h : Legal C L s) : Steady L → Spaced d L → ∀ {t u : Nat} {before : Int}
    {newer older : List Entry} {s1 s2 : Store}, deadline s n = some t →
    L = newer ++ ⟨.commit (.advance n u), s1⟩ :: ⟨.clock before, s2⟩ :: older →
    before + d ≤ (t * nanosPerSec : Nat) := by
  refine h.induct (P := fun L s => Steady L → Spaced d L → ∀ {t u : Nat} {before : Int}
    {newer older : List Entry} {s1 s2 : Store}, deadline s n = some t →
    L = newer ++ ⟨.commit (.advance n u), s1⟩ :: ⟨.clock before, s2⟩ :: older →
    before + d ≤ (t * nanosPerSec : Nat)) ?_ ?_
  · intro _ _ t u before newer older s1 s2 _ hlog
    simp at hlog
  · intro L s s' a hL ih ha hclock hspaced t u before newer older s1 s2 ht hlog
    have hclock' : Steady L := Steady.older (l := [_]) hclock
    have hspaced' : Spaced d L := Spaced.older (l := [_]) hspaced
    rcases ha.timed ht with ⟨now, htimed⟩ | ⟨hk, hne⟩
    · have hmem : (⟨.clock before, s2⟩ : Entry) ∈ L := by
        rcases newer with _ | ⟨e, newer⟩
        · rw [(List.cons.inj hlog).2]
          exact List.mem_cons_self
        · rw [(List.cons.inj hlog).2]
          simp
      exact htimed.spaced hclock' hspaced' hmem
    · rcases newer with _ | ⟨e, newer⟩
      · -- the retry itself set the deadline
        have hact := congrArg Entry.act (List.cons.inj hlog).1
        exact absurd hact (hne u)
      · exact ih hclock' hspaced' hk (List.cons.inj hlog).2

/-- Two retries of one burn are at least the interval apart. -/
theorem retries_spaced {d : Nat} {now before : Int} {newer mid older : List Entry} {t u : Nat}
    {s1 s2 s3 : Store}
    (h : Legal C (⟨.commit (.advance n t), s1⟩ :: ⟨.clock now, storeOf mid⟩ :: mid) s) (hclock : Steady mid)
    (hspaced : Spaced d mid) (hpassed : ∃ e old : Nat, now = e ∧ deadline (storeOf mid) n = some old ∧ old ≤ asSecs e)
    (hmid : mid = newer ++ ⟨.commit (.advance n u), s2⟩ :: ⟨.clock before, s3⟩ :: older) : before + d ≤ now := by
  obtain ⟨e, old, rfl, hold, hle⟩ := hpassed
  have hfar := legal_paced h.tail.1.tail.1 hclock hspaced hold hmid
  have hsecs : old * nanosPerSec ≤ e := (Nat.le_div_iff_mul_le (by decide)).1 hle
  omega

/-! ## The break in `submit_withdrawals` -/

/-- A burn of the work lists is still recorded, at its place. -/
theorem ready_recorded {work : Work} {d : DiscoveredBurn} (h : Legal C L s) (hwork : workOf L = some work)
    (hd : d ∈ work.ready) : ∃ b, s.burn d.noteId = some b ∧ b.place = d.place := by
  obtain ⟨newer, s0, older, rfl, hs0, hsnap, -⟩ := legal_snapshot h hwork
  rcases hsnap.2.2.1 with he | ⟨config, lag, -, -, hready⟩
  · rw [he] at hd
    cases hd
  · obtain ⟨⟨b, hb, hnote, hblock, -⟩, -⟩ := (mem_burnsReady hready hd).1
    obtain ⟨b', hb', hrec⟩ := legal_recorded (L := ⟨.snapshot work, s0⟩ :: older) h hb
    refine ⟨b', hb', ?_⟩
    rw [BurnRow.place, DiscoveredBurn.place, BurnRow.noteId, DiscoveredBurn.noteId, hrec.1, hrec.2.1, hnote, hblock]

/-- The ready list is in the order of withdrawal. -/
theorem ready_sorted {work : Work} (h : Legal C L s) (hwork : workOf L = some work) :
    work.ready.Pairwise fun a b => a.place < b.place := by
  obtain ⟨newer, s0, older, rfl, hs0, hsnap, -⟩ := legal_snapshot h hwork
  rcases hsnap.2.2.1 with he | ⟨config, lag, -, -, hready⟩
  · rw [he]
    exact List.Pairwise.nil
  · exact burnsReady_sorted hready

theorem waits_eq_some {p : Lex (Nat × NoteId)} {x : Bool} {m : NoteId} (h : waits s m = some (p, x)) :
    ∃ b, s.burn m = some b ∧ b.place = p ∧ b.limitRetryAt.isSome = x := by
  obtain ⟨b, hb, he⟩ := Option.map_eq_some_iff.1 h
  exact ⟨b, hb, (Prod.mk.inj he).1, (Prod.mk.inj he).2⟩

theorem waits_of_burn {b : BurnRow} {m : NoteId} (h : s.burn m = some b) :
    waits s m = some (b.place, b.limitRetryAt.isSome) := by
  rw [waits, h]
  rfl

/-- Once `limit_allows` keeps a burn back, it admits none that comes after it. -/
theorem limitAllows_skips {config : Config} {w w1 : World} {env rest later : List Env} {a b : BurnRow} {n m : NoteId}
    (hw : Sound C w) (hcfg : configOf w.log = some config) (ha : w.store.burn n = some a) (hb : w.store.burn m = some b)
    (hlt : a.place < b.place)
    (hno : Prog.run (handler C) (limitAllows config n).run env w = (some (.ok false), rest, w1)) :
    (Prog.run (handler C) (limitAllows config m).run later w1).1 ≠ some (.ok true) := by
  intro hyes
  have hfirst := Prog.Keeps.run env (ensures_limitAllows hw hcfg ha)
  rw [hno] at hfirst
  obtain ⟨hw1, hdecided⟩ := hfirst
  obtain ⟨hgrew, hwaits, -, hback⟩ := hdecided _ rfl
  obtain ⟨k, c, hc, hwait, hle⟩ := hback rfl
  -- the second burn and the waiting one are still there
  obtain ⟨b1, hb1, hplace, -⟩ := waits_eq_some ((hwaits m).trans (waits_of_burn hb))
  have hsecond := (Prog.Keeps.run later (ensures_limitAllows hw1 (hgrew.plain.configOf.trans hcfg) hb1)).2 _ hyes
  obtain ⟨-, hwaits2, hadmitted, -⟩ := hsecond
  obtain ⟨b2, hb2, hbar⟩ := (hadmitted rfl).1
  obtain ⟨c2, hc2, hcplace, hcwait⟩ := waits_eq_some ((hwaits2 k).trans ((hwaits k).trans (waits_of_burn hc)))
  obtain ⟨b2', hb2', hbplace, -⟩ := waits_eq_some ((hwaits2 m).trans (waits_of_burn hb1))
  rw [hb2] at hb2'
  cases hb2'
  have hbc : b2.place ≤ c2.place := hbar c2 k hc2 (hcwait.trans hwait)
  rw [hbplace, hplace, hcplace] at hbc
  exact absurd (hlt.trans_le (hbc.trans hle)) (lt_irrefl _)

/-! ## The law of the limit -/

/-- The requests that a waiting burn holds back. -/
def Act.asks (n : NoteId) (a : Act) : Prop := a.prepares n = true ∨ a.posts n = true

def RetriedAt (L : List Entry) (n : NoteId) (now : Int) : Prop := ∃ newer t s older, Retried L n now newer t s older

/-- `retry_at` answers with the ceiling in whole seconds, or with an error when there is none to store. -/
def ExactDeadline (policy : WithdrawalLimit) (now : Int) : Prop :=
  match policy.retryAt now with
  | .ok t => ∃ d : Nat, now = d ∧ d + policy.retryInterval ≤ t * nanosPerSec ∧
      t * nanosPerSec < d + policy.retryInterval + nanosPerSec ∧ t ≤ I64.MAX
  | .error _ => now < 0 ∨ ∃ d : Nat, now = d ∧ I64.MAX < secsCeil (d + policy.retryInterval)

structure LimitKept (C : Crates) (w : World) : Prop where
  /-- A burn is asked about only when no burn before it waits. -/
  barrier : ∀ later f earlier n, w.log = later ++ f :: earlier → f.act.asks n → Barrier f.store n
  /-- A burn that waits itself is asked about only in a retry. -/
  retried : ∀ later f earlier n, w.log = later ++ f :: earlier → f.act.asks n → (deadline f.store n).isSome →
    ∃ now, RetriedAt earlier n now
  /-- The retries of different cycles, of one process or of several, are the interval apart. -/
  paced : ∀ d, Steady w.log → Spaced d w.log → ∀ later f mid e earlier n now before,
    w.log = later ++ f :: (mid ++ e :: earlier) → f.act.asks n → e.act.asks n → (∃ c ∈ mid, c.act.isCycle = true) →
    RetriedAt (mid ++ e :: earlier) n now → RetriedAt earlier n before → before + d ≤ now
  /-- Where `submit_withdrawals` breaks off at a burn, no burn left on its list would have been admitted. -/
  skipsNone : ∀ config work done burn rest, configOf w.log = some config → workOf w.log = some work →
    work.ready = done ++ burn :: rest → ∀ env left w', Prog.run (handler C) (limitAllows config burn.noteId).run env w =
      (some (.ok false), left, w') → ∀ d ∈ rest, ∀ env',
      (Prog.run (handler C) (limitAllows config d.noteId).run env' w').1 ≠ some (.ok true)

theorem exactDeadline (policy : WithdrawalLimit) (now : Int) : ExactDeadline policy now := by
  unfold ExactDeadline
  split
  · rename_i t ht
    obtain ⟨d, hd, -, rfl, hmax⟩ := retryAt_ok ht
    obtain ⟨hle, hlt⟩ := secsCeil_bounds (d + policy.retryInterval)
    exact ⟨d, hd, hle, hlt, hmax⟩
  · rename_i e he
    exact retryAt_error he

theorem admitted_of_asks {f : Entry} {later earlier : List Entry} (h : Legal C (later ++ f :: earlier) s)
    (hf : f.act.asks n) : Legal C earlier (storeOf earlier) ∧ f.store = storeOf earlier ∧
      Admitted earlier f.store n := by
  obtain ⟨hL, ha⟩ := h.entry
  obtain ⟨act, s1⟩ := f
  refine ⟨hL, ?_⟩
  cases act with
  | prepare burn fee reply =>
    obtain ⟨rfl, -, -, hadm⟩ := ha
    simp only [Act.asks, Act.prepares, Act.posts, beq_iff_eq, Bool.false_eq_true, or_false] at hf
    exact ⟨rfl, hf ▸ hadm⟩
  | post m request reply =>
    obtain ⟨rfl, -, -, hadm, -⟩ := ha
    simp only [Act.asks, Act.prepares, Act.posts, beq_iff_eq, Bool.false_eq_true, false_or] at hf
    exact ⟨rfl, hf ▸ hadm⟩
  | _ => simp [Act.asks, Act.prepares, Act.posts] at hf

/-- The steps of an item hold no start of a cycle, so a retry begins after the last one. -/
theorem Retried.after_cycle {mid rest newer older : List Entry} {now : Int} {t : Nat}
    (h : Retried (mid ++ rest) n now newer t s older) (hc : ∃ c ∈ mid, c.act.isCycle = true) :
    ∃ l, older = l ++ rest := by
  obtain ⟨c, hc, hcycle⟩ := hc
  have hnew : c ∉ newer := by
    intro hmem
    have habout := h.item c hmem
    obtain ⟨act, s1⟩ := c
    cases act with
    | cycle config => exact habout
    | _ => cases hcycle
  rcases List.append_eq_append_iff.1 h.log with ⟨x, hx, -⟩ | ⟨x, hx, htail⟩
  · exact absurd (hx ▸ List.mem_append_left _ hc) hnew
  · rw [hx] at hc
    have hmem := (List.mem_append.1 hc).resolve_left hnew
    rcases x with _ | ⟨e1, _ | ⟨e2, x⟩⟩
    · cases hmem
    · obtain ⟨rfl, -⟩ := List.cons.inj htail
      rw [List.mem_singleton.1 hmem] at hcycle
      cases hcycle
    · exact ⟨x, (List.cons.inj (List.cons.inj htail).2).2⟩

/-- **The law of the limit**, for every run: the order of the waiting burns, the pacing of their retries, and the
early break that skips nobody. -/
theorem limit_kept (lifetimes : List Lifetime) :
    LimitKept C (runAll C lifetimes) ∧ ∀ policy now, ExactDeadline policy now := by
  have hsound := runs_sound (C := C) lifetimes
  have hlegal := hsound.1
  refine ⟨⟨?_, ?_, ?_, ?_⟩, exactDeadline⟩
  · intro later f earlier n hlog hf
    rw [hlog] at hlegal
    exact (admitted_of_asks hlegal hf).2.2.1
  · intro later f earlier n hlog hf hwait
    rw [hlog] at hlegal
    obtain ⟨hL, -, -, hadv⟩ := admitted_of_asks hlegal hf
    refine retried_of_advanced hL (hadv ?_)
    obtain ⟨t, ht⟩ := Option.isSome_iff_exists.1 hwait
    obtain ⟨b, hb, hbt⟩ := Option.bind_eq_some_iff.1 ht
    exact ⟨b, hb, by rw [hbt]; rfl⟩
  · intro d hclock hspaced later f mid e earlier n now before hlog _ _ hcycle hnow hbefore
    obtain ⟨newer, t, s1, older, hr⟩ := hnow
    obtain ⟨newer', u, s2, older', hr'⟩ := hbefore
    obtain ⟨l, hl⟩ := hr.after_cycle hcycle
    have hfull : (runAll C lifetimes).log =
        (later ++ f :: newer) ++ ⟨.commit (.advance n t), s1⟩ :: ⟨.clock now, storeOf older⟩ :: older := by
      rw [hlog, hr.log]
      simp
    have hpast : (runAll C lifetimes).log =
        (later ++ f :: newer ++ [⟨.commit (.advance n t), s1⟩, ⟨.clock now, storeOf older⟩]) ++ older := by
      rw [hfull]
      simp
    have hearlier : older = (l ++ e :: newer') ++ ⟨.commit (.advance n u), s2⟩ ::
        ⟨.clock before, storeOf older'⟩ :: older' := by
      rw [hl, hr'.log]
      simp
    rw [hfull] at hlegal
    rw [hpast] at hclock hspaced
    exact retries_spaced hlegal.suffix hclock.older hspaced.older hr.passed hearlier
  · intro config work done burn rest hcfg hwork hready env left w' hno d hd env'
    have hburn : burn ∈ work.ready := by rw [hready]; simp
    have hlater : d ∈ work.ready := by rw [hready]; simp [hd]
    obtain ⟨a, ha, haplace⟩ := ready_recorded hlegal hwork hburn
    obtain ⟨b, hb, hbplace⟩ := ready_recorded hlegal hwork hlater
    have hlt : burn.place < d.place := by
      have hsorted := ready_sorted hlegal hwork
      rw [hready] at hsorted
      exact (List.pairwise_cons.1 (List.pairwise_append.1 hsorted).2.1).1 d hd
    exact limitAllows_skips hsound hcfg ha hb (by rw [haplace, hbplace]; exact hlt) hno

/-! ## What a waiting burn can still come to -/

/-- The attester takes the burn up again by itself: as a fresh burn, or from the recovery list. -/
def TakenUp (C : Crates) (s : Store) (n : NoteId) : Prop :=
  (∃ b, s.burn n = some b ∧ b.consumptionBlock.isSome ∧ s.isFresh b = true) ∨
    ∃ r rows, s.row n = some r ∧ s.submissionsToRecover C = .ok rows ∧ r ∈ rows

/-- A waiting burn has no submission, an expired one, or one that is still being submitted, with or without an
ID. -/
structure WaitsOpen (C : Crates) (s : Store) : Prop where
  wait : ∀ n t, deadline s n = some t → (∀ r, s.row n = some r → r.status = .expired ∨ r.status = .submitting) ∧
    TakenUp C s n
  /-- So is the burn every later burn queues behind. -/
  first : ∀ wait, s.firstLimitWait = some wait → TakenUp C s wait.noteId

theorem StoreInv.takenUp (h : StoreInv C s) {b : BurnRow} (hb : s.burn n = some b) (hw : b.limitRetryAt.isSome) :
    TakenUp C s n := by
  obtain ⟨hc, hh, hrow⟩ := (h.notes n).wait b hb hw
  have hid : b.noteId = n := burn_noteId hb
  cases hr : s.row n with
  | none => exact Or.inl ⟨b, hb, hc, by simp [isFresh, hh, hid, hr]⟩
  | some r =>
    rcases hrow r hr with hst | hst
    · obtain ⟨rows, hrows⟩ := h.selectSubmissions none (some .submitting)
      have hrn : r.noteId = n := row_noteId hr
      exact Or.inr ⟨r, rows, hr, hrows, (mem_selectSubmissions hrows).2 ⟨hrn.symm ▸ hr, hst⟩⟩
    · exact Or.inl ⟨b, hb, hc, by simp [isFresh, hh, hid, hr, hst]⟩

/-- **A wait stays open** in every state a run can reach. -/
theorem waits_stay_open (lifetimes : List Lifetime) : WaitsOpen C (runAll C lifetimes).store := by
  have hinv := legal_inv (runs_legal (C := C) lifetimes)
  constructor
  · intro n t ht
    obtain ⟨b, hb, hbt⟩ := Option.bind_eq_some_iff.1 ht
    have hw : b.limitRetryAt.isSome := by rw [hbt]; rfl
    exact ⟨fun r hr => (((hinv.notes n).wait b hb hw).2.2 r hr).symm, hinv.takenUp hb hw⟩
  · intro wait hwait
    obtain ⟨b, hb, hbt, -⟩ := firstLimitWait_eq_some hwait
    exact hinv.takenUp hb (by rw [hbt]; rfl)

namespace Sample

/-- The clock shows this many seconds. -/
def seconds (k : Nat) : Env := { now := (k * nanosPerSec : Nat) }

/-- The first cycle's preparation meets the limit. A minute later it is tried again, and Circle answers the POST
with a conflict that names the withdrawal. -/
def conflicting : List Lifetime :=
  [.serve config 2 (starting ++ scanning ++ still 4 ++ [answers .badRequest limited, seconds 1000] ++ still 2 ++
    idling ++ still 3 ++ [seconds 1060] ++ still 2 ++ [answers .ok prepared, signs, signs] ++ still 3 ++
    [answers .conflict conflict] ++ still 2)]

end Sample

/-- A burn still waits although its withdrawal has its ID. -/
theorem waits_with_known_id :
    deadline (runAll Sample.crates Sample.conflicting).store Sample.note.id = some 1120 ∧
      ((runAll Sample.crates Sample.conflicting).store.row Sample.note.id).map (fun r => (r.status, r.withdrawalId)) =
        some (.submitting, some Sample.withdrawalId) := by
  decide +kernel

end LightAttester
