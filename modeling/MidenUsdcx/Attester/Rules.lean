import MidenUsdcx.Attester.Worklists
/-!
# Proof rules for the attester's calls

`Sound` is what every point of a run keeps: the log so far is legal. `Ensures C t Q w` says that the
task `t`, started in `w`, keeps it whatever the environment chooses, and ends, if it does, in `Q`.
There is one rule for each call, which asks for exactly what the rules of the run ask for, and
`Grew` relates the world before a task to the one after.
-/
namespace LightAttester
open Checked Interact Keyed Store

/-- The log is legal, and nothing was ever written if there is no file. -/
def Sound (C : Crates) (w : World) : Prop :=
  Legal C w.log w.store ∧ (w.fileExists = false → w.store = .blank)

def Ensures {ρ α : Type} (C : Crates) (t : Task ρ α) (Q : Except ρ α → World → Prop) (w : World) : Prop :=
  Prog.Keeps (handler C) (Sound C) t.run Q w

variable {C : Crates} {w : World} {ρ τ α β : Type}

/-! ## Sequencing -/

theorem ensures_pure {a : α} {Q : Except ρ α → World → Prop} (hw : Sound C w) (hQ : Q (.ok a) w) :
    Ensures C (pure a : Task ρ α) Q w := Prog.keeps_pureE hw hQ

theorem ensures_throw {e : ρ} {Q : Except ρ α → World → Prop} (hw : Sound C w) (hQ : Q (.error e) w) :
    Ensures C (throw e : Task ρ α) Q w := Prog.keeps_throw hw hQ

theorem ensures_bind {x : Task ρ α} {f : α → Task ρ β} {R : Except ρ α → World → Prop} {Q : Except ρ β → World → Prop}
    (hx : Ensures C x R w) (hok : ∀ a w', Sound C w' → R (.ok a) w' → Ensures C (f a) Q w')
    (herr : ∀ e w', Sound C w' → R (.error e) w' → Q (.error e) w') : Ensures C (x >>= f) Q w :=
  Prog.keeps_bindE_of hx hok herr

/-- What is left to show when `f` follows. -/
def Then (C : Crates) (f : α → Task ρ β) (Q : Except ρ β → World → Prop) : Except ρ α → World → Prop
  | .ok a, w => Ensures C (f a) Q w
  | .error e, w => Q (.error e) w

/-- The same rule read backwards, one step at a time. -/
theorem ensures_seq {x : Task ρ α} {f : α → Task ρ β} {Q : Except ρ β → World → Prop}
    (h : Ensures C x (Then C f Q) w) : Ensures C (x >>= f) Q w := by
  refine ensures_bind h (fun a w' _ h => h) (fun e w' _ h => h)

theorem Ensures.mono {t : Task ρ α} {Q R : Except ρ α → World → Prop} (h : Ensures C t Q w)
    (hQ : ∀ r w', Sound C w' → Q r w' → R r w') : Ensures C t R w := Prog.Keeps.mono hQ h

theorem ensures_adapt {f : ρ → τ} {t : Task ρ α} {Q : Except τ α → World → Prop}
    (h : Ensures C t (fun r w' => Q (r.mapError f) w') w) : Ensures C (t.adapt f) Q w := Prog.keeps_adapt h

theorem ensures_lift {t : Task ρ α} {Q : Except τ (Except ρ α) → World → Prop}
    (h : Ensures C t (fun r w' => Q (.ok r) w') w) : Ensures C (ExceptT.lift t.run : Task τ (Except ρ α)) Q w :=
  Prog.keeps_lift h

theorem ensures_tryCatch {t : Task ρ α} {h : ρ → Task ρ α} {Q : Except ρ α → World → Prop}
    (ht : Ensures C t (fun r w' => match r with
      | .ok a => Q (.ok a) w'
      | .error e => Ensures C (h e) Q w') w) : Ensures C (tryCatch t h) Q w := by
  refine Prog.keeps_tryCatch (Prog.Keeps.mono (fun r w' _ hr => ?_) ht)
  cases r <;> exact hr

theorem ensures_attempt {ε : Type} {f : ε → ρ} {x : Except ε α} {Q : Except ρ α → World → Prop} (hw : Sound C w)
    (hok : ∀ a, x = .ok a → Q (.ok a) w) (herr : ∀ e, Q (.error (f e)) w) : Ensures C (attempt f x) Q w := by
  cases x with
  | ok a => exact ensures_pure hw (hok a rfl)
  | error e => exact ensures_throw hw (herr e)

/-! ## Calls -/

theorem ensures_call {o : Call} {Q : Except ρ o.Answer → World → Prop} (hw : Sound C w)
    (h : ∀ e, Sound C ((handler C).step o e w).2 ∧
      Q (.ok ((handler C).step o e w).1) ((handler C).step o e w).2) : Ensures C (call o) Q w :=
  ⟨hw, h⟩

theorem Sound.record {a : Act} (hw : Sound C w) (ha : Allowed C w.log w.store a w.store) : Sound C (w.record a) :=
  ⟨.step hw.1 ha, hw.2⟩

theorem ensures_mark {m : Mark} {Q : Except ρ Unit → World → Prop} (hw : Sound C w)
    (ha : Allowed C w.log w.store m.act w.store) (hQ : Sound C (w.record m.act) → Q (.ok ()) (w.record m.act)) :
    Ensures C (call (.mark m)) Q w := ensures_call hw fun _ => ⟨hw.record ha, hQ (hw.record ha)⟩

theorem ensures_now {Q : Except ρ Int → World → Prop} (hw : Sound C w)
    (hQ : ∀ now, Sound C (w.record (.clock now)) → Q (.ok now) (w.record (.clock now))) :
    Ensures C (call .now) Q w :=
  ensures_call hw fun e => ⟨hw.record rfl, hQ e.now (hw.record rfl)⟩

theorem ensures_post {n : NoteId} {request : Request} {Q : Except ρ (Except CircleError RawResponse) → World → Prop}
    (hw : Sound C w) (ha : ∀ reply, Allowed C w.log w.store (.post n request reply) w.store)
    (hQ : ∀ reply, Sound C (w.record (.post n request reply)) → Q (.ok reply) (w.record (.post n request reply))) :
    Ensures C (call (.post n request)) Q w := ensures_call hw fun _ => ⟨hw.record (ha _), hQ _ (hw.record (ha _))⟩

theorem ensures_get {n : NoteId} {request : Request} {Q : Except ρ (Except CircleError RawResponse) → World → Prop}
    (hw : Sound C w) (ha : ∀ reply, Allowed C w.log w.store (.get n request reply) w.store)
    (hQ : ∀ reply, Sound C (w.record (.get n request reply)) → Q (.ok reply) (w.record (.get n request reply))) :
    Ensures C (call (.get n request)) Q w := ensures_call hw fun _ => ⟨hw.record (ha _), hQ _ (hw.record (ha _))⟩

theorem ensures_prepare {burn : DiscoveredBurn} {fee : UInt64}
    {Q : Except ρ (Except CircleError UnverifiedPrepareResponse) → World → Prop}
    (hw : Sound C w) (ha : ∀ reply, Allowed C w.log w.store (.prepare burn fee reply) w.store)
    (hQ : ∀ reply, Sound C (w.record (.prepare burn fee reply)) → Q (.ok reply) (w.record (.prepare burn fee reply))) :
    Ensures C (call (.prepare burn fee)) Q w := ensures_call hw fun _ => ⟨hw.record (ha _), hQ _ (hw.record (ha _))⟩

theorem ensures_sign {n : NoteId} {digest : B256} {Q : Except ρ (Option Signature) → World → Prop}
    (hw : Sound C w) (ha : Allowed C w.log w.store (.sign n digest) w.store)
    (hQ : ∀ signature, Sound C (w.record (.sign n digest)) → Q (.ok signature) (w.record (.sign n digest))) :
    Ensures C (call (.sign n digest)) Q w := ensures_call hw fun _ => ⟨hw.record ha, hQ _ (hw.record ha)⟩

theorem ensures_setRateLimited {value : Bool} {Q : Except ρ Unit → World → Prop} (hw : Sound C w)
    (hQ : Q (.ok ()) { w with rateLimited := value }) : Ensures C (call (.setRateLimited value)) Q w :=
  ensures_call hw fun _ => ⟨hw, hQ⟩

/-- The calls that leave the world as it is. -/
def Call.isQuiet : Call → Bool
  | .query | .rateLimited | .accountExists _ | .scanLimits | .blockByNumber _ | .checkSigners | .checkCircle
  | .inbox | .fileExists => true
  | _ => false

theorem step_quiet {o : Call} (ho : o.isQuiet = true) (e : Env) (w : World) : ((handler C).step o e w).2 = w := by
  cases o <;> first | rfl | cases ho

theorem ensures_quiet {o : Call} {Q : Except ρ o.Answer → World → Prop} (hw : Sound C w) (ho : o.isQuiet = true)
    (hQ : ∀ answer, Q (.ok answer) w) : Ensures C (call o) Q w := by
  refine ensures_call hw fun e => ?_
  rw [step_quiet ho]
  exact ⟨hw, hQ _⟩

theorem ensures_query {f : StoreError → ρ} {read : Store → Except StoreError α} {Q : Except ρ α → World → Prop}
    (hw : Sound C w) (hok : ∀ a, read w.store = .ok a → Q (.ok a) w) (herr : ∀ e, Q (.error (f e)) w) :
    Ensures C (query f read) Q w := by
  refine ensures_seq (ensures_call hw fun e => ⟨hw, ?_⟩)
  refine ensures_seq (ensures_attempt (x := if e.storeFails then .error StoreError.io else .ok w.store) hw
    (fun s hs => ?_) herr)
  split at hs
  · cases hs
  · cases hs
    exact ensures_attempt hw hok herr

/-- A file without tables stays one, unless it is initialised. -/
theorem apply_blank {x : Write} {s' : Store} (h : x.apply C .blank = .ok s') :
    s' = .blank ∨ ∃ faucet anchor, x = .create faucet anchor := by
  cases x with
  | create faucet anchor => exact Or.inr ⟨faucet, anchor, rfl⟩
  | scan cs ds hd =>
    obtain ⟨-, s1, s2, st, h1, h2, hst, -⟩ := saveScanProgress_ok h
    have : s2.state = none := scan_induct (P := fun z => z.state = none)
      (fun a c z _ ha hz => by obtain ⟨-, -, rfl⟩ := insertCandidate_ok hz; exact ha)
      (fun a d z _ ha hz => by
        rcases insertBurn_ok hz with ⟨-, -, -, rfl⟩ | ⟨b, -, -, -, rfl⟩ <;> exact ha) rfl h1 h2
    rw [this] at hst
    cases hst
  | save rec => obtain ⟨-, -, b, hb, -⟩ := saveSubmission_ok h; cases hb
  | outcome out => obtain ⟨-, r, s1, hr, -⟩ := updateSubmissionOutcome_ok h; cases hr
  | hold n reason resp => obtain ⟨b, hb, -⟩ := holdBurn_ok h; cases hb
  | advance n t => obtain ⟨b, hb, -⟩ := advanceLimitRetry_ok h; cases hb
  | limit n t body sub => obtain ⟨b, f, hb, -⟩ := recordLimitRejection_ok h; cases hb
  | release | releaseAll =>
    refine Or.inl (Write.release_induct (P := fun z => z = .blank) (fun hP hrel => ?_) h rfl rfl)
    subst hP
    rcases releaseHold_ok hrel with ⟨b, hb, -⟩ | ⟨b, r, hb, -⟩ <;> cases hb

section
variable {x : Write} (hw : Sound C w) (hfile : ∀ faucet anchor, x = .create faucet anchor → w.fileExists = true)
  (hok : ∀ s', x.apply C w.store = .ok s' → WriteOk C w.log w.store x)
  (hno : x.isStep = true → x.apply C w.store ≠ .error .conflict)
include hw

include hfile hok in
theorem Sound.commit {s' : Store} (hs' : x.apply C w.store = .ok s') :
    Sound C { w with store := s', log := ⟨.commit x, s'⟩ :: w.log } := by
  refine ⟨.step hw.1 ⟨hs', hok s' hs'⟩, fun hfe => ?_⟩
  have hblank := hw.2 hfe
  rw [hblank] at hs'
  rcases apply_blank hs' with h | ⟨faucet, anchor, h⟩
  · exact h
  · have : w.fileExists = true := hfile faucet anchor h
    rw [show w.fileExists = false from hfe] at this
    cases this

include hno in
theorem Sound.refuse {e : StoreError} (he : x.apply C w.store = .error e ∨ e = .io) :
    Sound C (w.record (.refused x e)) := by
  refine hw.record ⟨rfl, fun hstep h => ?_⟩
  rcases he with he | he
  · exact hno hstep (h ▸ he)
  · rw [he] at h; cases h

include hfile hok hno

/-- A transaction: allowed if it commits, and no conflict if it is a step of an item. -/
theorem ensures_transaction {Q : Except ρ (Except StoreError Unit) → World → Prop}
    (hQ : ∀ s', x.apply C w.store = .ok s' → Sound C { w with store := s', log := ⟨.commit x, s'⟩ :: w.log } →
      Q (.ok (.ok ())) { w with store := s', log := ⟨.commit x, s'⟩ :: w.log })
    (hQe : ∀ e, Sound C (w.record (.refused x e)) → Q (.ok (.error e)) (w.record (.refused x e))) :
    Ensures C (call (.write x)) Q w := by
  refine ensures_call hw fun e => ?_
  show Sound C (w.transact C x e.storeFails).2 ∧ Q (.ok (w.transact C x e.storeFails).1) (w.transact C x e.storeFails).2
  unfold World.transact
  split
  · have := hw.refuse hno (Or.inr rfl)
    exact ⟨this, hQe _ this⟩
  · split
    · rename_i s' hs'
      have := hw.commit hfile hok hs'
      exact ⟨this, hQ s' hs' this⟩
    · rename_i e' he'
      have := hw.refuse hno (Or.inl he')
      exact ⟨this, hQe _ this⟩

theorem ensures_write {f : StoreError → ρ} {Q : Except ρ Unit → World → Prop}
    (hQ : ∀ s', x.apply C w.store = .ok s' → Sound C { w with store := s', log := ⟨.commit x, s'⟩ :: w.log } →
      Q (.ok ()) { w with store := s', log := ⟨.commit x, s'⟩ :: w.log })
    (hQe : ∀ e, Q (.error (f e)) (w.record (.refused x e))) : Ensures C (write f x) Q w := by
  refine ensures_seq (ensures_transaction hw hfile hok hno (fun s' hs' hw' => ?_) fun e hw' => ?_)
  · exact ensures_pure hw' (hQ s' hs' hw')
  · exact ensures_throw hw' (hQe e)

end

/-! ## How a task may change the world -/

/-- The log grew by acts of a kind, and the store's chain state stayed. -/
structure Grew (P : Act → Prop) (w w' : World) : Prop where
  log : ∃ newer, w'.log = newer ++ w.log ∧ ∀ e ∈ newer, P e.act
  state : w'.store.state = w.store.state

namespace Grew
variable {P R : Act → Prop} {w1 w2 w3 : World}

theorem refl (w : World) : Grew P w w := ⟨⟨[], rfl, by simp⟩, rfl⟩

theorem trans (h12 : Grew P w1 w2) (h23 : Grew P w2 w3) : Grew P w1 w3 := by
  obtain ⟨⟨l12, e12, p12⟩, s12⟩ := h12
  obtain ⟨⟨l23, e23, p23⟩, s23⟩ := h23
  refine ⟨⟨l23 ++ l12, by rw [e23, e12, List.append_assoc], fun e he => ?_⟩, s23.trans s12⟩
  rcases List.mem_append.1 he with he | he
  · exact p23 e he
  · exact p12 e he

theorem record {a : Act} (ha : P a) : Grew P w (w.record a) := ⟨⟨[⟨a, w.store⟩], rfl, by simpa using ha⟩, rfl⟩

theorem mono (h : Grew P w1 w2) (hPR : ∀ a, P a → R a) : Grew R w1 w2 := by
  obtain ⟨⟨newer, he, hp⟩, hs⟩ := h
  exact ⟨⟨newer, he, fun e hm => hPR _ (hp e hm)⟩, hs⟩

theorem commit {x : Write} {s' : Store} (hx : P (.commit x)) (hs : x.apply C w.store = .ok s')
    (hn : x.note.isSome ∨ x.isRelease = true) :
    Grew P w { w with store := s', log := ⟨.commit x, s'⟩ :: w.log } :=
  ⟨⟨[⟨.commit x, s'⟩], rfl, by simpa using hx⟩, (Write.apply_facts hs hn).2.1⟩

end Grew

/-- Acts that are no marks of the cycle's own. -/
def Act.isPlain : Act → Bool
  | .cycle _ | .discovered _ | .snapshot _ => false
  | _ => true

theorem Act.about.isPlain {n : NoteId} {a : Act} (h : a.about n) : a.isPlain = true := by
  cases a <;> first | rfl | exact h.elim

section
variable {L newer : List Entry}

theorem workOf_append (h : ∀ e ∈ newer, e.act.isPlain = true) : workOf (newer ++ L) = workOf L := by
  induction newer with
  | nil => rfl
  | cons e newer ih =>
    have he := h e List.mem_cons_self
    rw [List.cons_append, workOf, ih fun x hx => h x (List.mem_cons_of_mem _ hx)]
    split <;> simp_all [Act.isPlain]

theorem configOf_append (h : ∀ e ∈ newer, e.act.isPlain = true) : configOf (newer ++ L) = configOf L := by
  induction newer with
  | nil => rfl
  | cons e newer ih =>
    have he := h e List.mem_cons_self
    rw [List.cons_append, configOf, ih fun x hx => h x (List.mem_cons_of_mem _ hx)]
    split <;> simp_all [Act.isPlain]

theorem lagOf_append (h : ∀ e ∈ newer, e.act.isPlain = true) : lagOf (newer ++ L) = lagOf L := by
  induction newer with
  | nil => rfl
  | cons e newer ih =>
    have he := h e List.mem_cons_self
    rw [List.cons_append, lagOf, ih fun x hx => h x (List.mem_cons_of_mem _ hx)]
    split <;> simp_all [Act.isPlain]

theorem Act.isCycle_of_isPlain {a : Act} (h : a.isPlain = true) : a.isCycle = false := by
  cases a <;> first | rfl | cases h

theorem since_append {p : Act → Bool} (h : ∀ e ∈ newer, e.act.isPlain = true) (hp : ∀ e ∈ newer, p e.act = false) :
    since p (newer ++ L) = since p L := by
  induction newer with
  | nil => rfl
  | cons e newer ih =>
    rw [List.cons_append, since_cons, Act.isCycle_of_isPlain (h e List.mem_cons_self), hp e List.mem_cons_self,
      ih (fun x hx => h x (List.mem_cons_of_mem _ hx)) fun x hx => hp x (List.mem_cons_of_mem _ hx)]
    simp

end

/-- The steps of the item `n` in the log. -/
abbrev Steps (n : NoteId) (w w' : World) : Prop := Grew (Act.about n) w w'

namespace Steps
variable {n : NoteId} {w1 w2 : World}

theorem plain (h : Steps n w1 w2) : Grew (fun a => a.isPlain = true) w1 w2 := Grew.mono h fun _ ha => ha.isPlain

/-- An item stays at hand through its own steps. -/
theorem atHand (h : Steps n w1 w2) (hn : AtHand w1.log n) : AtHand w2.log n := by
  obtain ⟨newer, he, hnew⟩ := h.log
  obtain ⟨between, s1, older, hlog, hbetween⟩ := hn
  refine ⟨newer ++ between, s1, older, by rw [he, hlog, List.append_assoc], fun e hmem => ?_⟩
  rcases List.mem_append.1 hmem with hmem | hmem
  · exact hnew e hmem
  · exact hbetween e hmem

end Steps

theorem Grew.workOf {w1 w2 : World} (h : Grew (fun a => a.isPlain = true) w1 w2) :
    LightAttester.workOf w2.log = LightAttester.workOf w1.log := by
  obtain ⟨newer, he, hp⟩ := h.log
  rw [he, workOf_append hp]

theorem Grew.configOf {w1 w2 : World} (h : Grew (fun a => a.isPlain = true) w1 w2) :
    LightAttester.configOf w2.log = LightAttester.configOf w1.log := by
  obtain ⟨newer, he, hp⟩ := h.log
  rw [he, configOf_append hp]

theorem Grew.lagOf {w1 w2 : World} (h : Grew (fun a => a.isPlain = true) w1 w2) :
    LightAttester.lagOf w2.log = LightAttester.lagOf w1.log := by
  obtain ⟨newer, he, hp⟩ := h.log
  rw [he, lagOf_append hp]

end LightAttester
