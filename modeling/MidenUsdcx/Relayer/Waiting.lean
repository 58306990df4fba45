import MidenUsdcx.Relayer.Scan
import MidenUsdcx.Relayer.Unminted
/-!
# The list of a running relayer (`lib.rs:401-439`)

| here | there |
| --- | --- |
| `told` | the checks and submissions of `process_page` since the process began |
| `Listed` | the relayer's list is what these tell |

A page that fails between its check and its submission still tells the list what the check reported.
-/
namespace DepositRelayer
open Interact

/-! ## What the log tells -/

/-- The checks of the running process, each with the deposits that landed after it, newest first. -/
def told : List Act → List (List DepositNonce × List DepositNonce)
  | [] => []
  | .started :: _ => []
  | .checked _ unminted :: log => (unminted, []) :: told log
  | .submitted notes :: log => (told log).modifyHead fun page => (page.1, notes.map (·.nonce))
  | .skipped _ _ :: log => told log
  | .saved _ :: log => told log
  | .saveFailed _ _ :: log => told log

/-- The pages are what the log tells, whatever their times. -/
def Tells (log : List Act) (ps : List CheckedPage) : Prop :=
  told log = ps.reverse.map fun p => (p.unminted, p.landed)

/-- The process runs a relayer whose list comes from the pages the log tells. -/
structure Listed (w : World) (relayer : Relayer) : Prop where
  running : w.self = some relayer
  list : ∃ ps, Tells w.log ps ∧ relayer.unminted = .pages ps

/-- `w'` comes after `w` with no page for the list. -/
structure Unlisted (w w' : World) : Prop where
  self : w'.self = w.self
  told : told w'.log = told w.log

variable {C : Crates} {F : Feed C} {w w' : World} {relayer : Relayer} {ρ α : Type}

theorem Unlisted.trans {w'' : World} (h : Unlisted w w') (h' : Unlisted w' w'') : Unlisted w w'' :=
  ⟨h'.self.trans h.self, h'.told.trans h.told⟩

theorem Listed.unlisted (h : Listed w relayer) (hlater : Unlisted w w') : Listed w' relayer where
  running := hlater.self.trans h.running
  list := by
    obtain ⟨ps, htells, hlist⟩ := h.list
    exact ⟨ps, hlater.told.trans htells, hlist⟩

/-- A relayer that changed in something else. -/
theorem Listed.update (h : Listed w relayer) {next : Relayer} (hsame : next.unminted = relayer.unminted) :
    Listed { w with self := some next } next where
  running := rfl
  list := by
    obtain ⟨ps, htells, hlist⟩ := h.list
    exact ⟨ps, htells, hsame.trans hlist⟩

theorem Tells.concat {log log' : List Act} {ps : List CheckedPage} (h : Tells log ps) (p : CheckedPage)
    (hlog : told log' = (p.unminted, p.landed) :: told log) : Tells log' (ps ++ [p]) := by
  unfold Tells at h ⊢
  rw [hlog, h, List.reverse_append]
  rfl

/-! ## Rules for the calls -/

abbrev Lists (F : Feed C) (t : Task ρ α) (Q : Except ρ α → World → Prop) (w : World) : Prop :=
  Ensures (handler F) (fun _ => True) t Q w

/-- The calls that tell the list nothing. -/
def Call.aside : Call → Bool
  | .start | .update _ | .retainUnminted _ | .submitNotes _ => false
  | _ => true

theorem answer_unlisted {o : Call} (ho : o.aside = true) (e : Env) (w : World) :
    Unlisted w ((handler F).step o e w).2 := by
  show Unlisted w (answer F o e (w.arrive e.arrivals)).2
  cases o with
  | start | update | retainUnminted | submitNotes => cases ho
  | self | isCancelled | skip | now | state => exact ⟨rfl, rfl⟩
  | fetch cursor size =>
    simp only [answer]
    split
    · exact ⟨rfl, rfl⟩
    · exact ⟨rfl, rfl⟩
  | setState s =>
    simp only [answer]
    split
    · exact ⟨rfl, rfl⟩
    · exact ⟨rfl, rfl⟩

theorem lists_aside {o : Call} {Q : Except ρ o.Answer → World → Prop} (ho : o.aside = true)
    (h : ∀ a w', Unlisted w w' → Q (.ok a) w') : Lists F (call o) Q w :=
  ensures_call trivial fun e => ⟨trivial, h _ _ (answer_unlisted ho e w)⟩

/-- A running relayer reads itself. -/
theorem lists_self {Q : Except ρ Relayer → World → Prop} (hrunning : w.self = some relayer)
    (h : ∀ w', Unlisted w w' → Q (.ok relayer) w') : Lists F (call .self) Q w := by
  refine ensures_call trivial fun e => ⟨trivial, ?_⟩
  have hself : (answer F .self e (w.arrive e.arrivals)).1 = relayer := by
    show w.self.getD .absent = relayer
    rw [hrunning, Option.getD_some]
  show Q (.ok (answer F .self e (w.arrive e.arrivals)).1) _
  rw [hself]
  exact h _ ⟨rfl, rfl⟩

theorem lists_update {next : Relayer} {Q : Except ρ Unit → World → Prop}
    (h : ∀ n, Q (.ok ()) { w.arrive n with self := some next }) : Lists F (call (.update next)) Q w :=
  ensures_call trivial fun e => ⟨trivial, h e.arrivals⟩

theorem lists_attempt {x : Except ρ α} {Q : Except ρ α → World → Prop} (h : Q x w) : Lists F (attempt x) Q w := by
  cases x with
  | ok a => exact ensures_pure trivial h
  | error e => exact ensures_throw trivial h

/-- A call that tells the list nothing, and what its answer says. -/
theorem lists_ask {o : Call} {f : o.Answer → Except ρ α} {Q : Except ρ α → World → Prop} (ho : o.aside = true)
    (h : ∀ r w', Unlisted w w' → Q r w') : Lists F (do let a ← call o; attempt (f a)) Q w :=
  ensures_seq (lists_aside ho fun _ _ hlater => lists_attempt (h _ _ hlater))

theorem unlisted_arrive (w : World) (n : Nat) : Unlisted w (w.arrive n) := ⟨rfl, rfl⟩

theorem lists_retainUnminted {nonces : List DepositNonce} {Q : Except Failure (List DepositNonce) → World → Prop}
    (hok : ∀ unminted w', w'.self = w.self → told w'.log = (unminted, []) :: told w.log → Q (.ok unminted) w')
    (herr : ∀ e w', Unlisted w w' → Q (.error e) w') : Lists F (retainUnminted nonces) Q w := by
  refine ensures_seq (ensures_call trivial fun e => ⟨trivial, ?_⟩)
  simp only [handler, answer]
  cases e.failure with
  | some failure => exact ensures_throw trivial (herr failure _ (unlisted_arrive w _))
  | none => exact ensures_pure trivial (hok _ _ rfl rfl)

theorem lists_submitNotes {notes : List XUsdcMintNote} {Q : Except Failure Unit → World → Prop}
    (hok : ∀ w', w'.self = w.self →
      told w'.log = (told w.log).modifyHead (fun page => (page.1, notes.map (·.nonce))) → Q (.ok ()) w')
    (herr : ∀ e w', Unlisted w w' → Q (.error e) w') : Lists F (submitNotes notes) Q w := by
  refine ensures_seq (ensures_call trivial fun e => ⟨trivial, ?_⟩)
  simp only [handler, answer]
  cases e.failure with
  | some failure => exact ensures_throw trivial (herr failure _ (unlisted_arrive w _))
  | none => exact ensures_pure trivial (hok _ rfl rfl)

/-! ## The pages of a run -/

/-- The process runs some relayer. -/
def Listing (w : World) : Prop := ∃ relayer, Listed w relayer

theorem Listing.unlisted (h : Listing w) (hlater : Unlisted w w') : Listing w' := by
  obtain ⟨relayer, hlisted⟩ := h
  exact ⟨relayer, hlisted.unlisted hlater⟩

/-- Steps that each leave a list the log tells. -/
theorem lists_seq {β : Type} {t : Task ρ α} {f : α → Task ρ β} (h : Lists F t (fun _ w' => Listing w') w)
    (hf : ∀ a w', Listing w' → Lists F (f a) (fun _ w' => Listing w') w') :
    Lists F (t >>= f) (fun _ w' => Listing w') w := h.seq (fun a w' _ => hf a w') fun _ _ _ h => h

/-- The relayer reads itself and changes something else than its list. -/
theorem lists_change {f : Relayer → Relayer} (h : Listed w relayer) (hf : ∀ r, (f r).unminted = r.unminted) :
    Lists F (do let self : Relayer ← call .self; call (.update (f self)) : Task ρ Unit) (fun _ w' => Listing w') w := by
  refine ensures_seq (lists_self h.running fun w₁ h₁ => lists_update fun n => ?_)
  exact ⟨_, ((h.unlisted h₁).unlisted (unlisted_arrive w₁ n)).update (hf relayer)⟩

theorem lists_buildNotes {entries : List Entry} (h : Listing w) :
    Lists F (buildNotes C entries) (fun _ w' => Listing w') w := by
  induction entries generalizing w with
  | nil => exact ensures_pure trivial h
  | cons entry rest ih =>
    obtain ⟨relayer, hlisted⟩ := h
    refine ensures_seq (lists_self hlisted.running fun w₁ h₁ => ensures_seq (lists_update fun n => ?_))
    have hlisting : Listing { w₁.arrive n with
        self := some { relayer with minter := (relayer.minter.buildEntry C entry).2 } } :=
      ⟨_, ((hlisted.unlisted h₁).unlisted (unlisted_arrive w₁ n)).update rfl⟩
    cases hmade : (relayer.minter.buildEntry C entry).1 with
    | ok note => exact lists_seq (ih hlisting) fun _ _ h => ensures_pure trivial h
    | error reason =>
      refine ensures_seq (lists_aside rfl fun _ w₂ h₂ => ?_)
      exact lists_seq (ih (hlisting.unlisted h₂)) fun _ _ h => ensures_pure trivial h

/-- What is left of a page is submitted after its check. -/
theorem lists_submitPage {fresh : List Entry} {built : Nat} {notes : List XUsdcMintNote} {unminted : List DepositNonce}
    {log : List Act} {ps : List CheckedPage} (hrunning : w.self = some relayer) (htells : Tells log ps)
    (hlist : relayer.unminted = (Unminted.pages ps).retain unminted) (hlog : told w.log = (unminted, []) :: told log) :
    Lists F (submitPage fresh built notes) (fun _ w' => Listing w') w := by
  have hchecked : Listing w := by
    refine ⟨relayer, hrunning, ps ++ [⟨unminted, [], 0⟩], htells.concat _ hlog, ?_⟩
    rw [Unminted.pages_concat, hlist]
    rfl
  unfold submitPage
  split
  · exact ensures_pure trivial hchecked
  split
  · exact ensures_pure trivial hchecked
  split
  · refine ensures_seq (lists_submitNotes (fun w₁ hself hmore => ?_) fun _ w₁ h₁ => hchecked.unlisted h₁)
    refine ensures_seq (lists_aside rfl fun now w₂ h₂ => ?_)
    refine ensures_seq (lists_self (h₂.self.trans (hself.trans hrunning)) fun w₃ h₃ => lists_update fun n => ?_)
    have hlanded : told w₃.log = (unminted, notes.map (·.nonce)) :: told log := by
      rw [h₃.told, h₂.told, hmore, hlog]
      rfl
    have htold := htells.concat ⟨unminted, notes.map (·.nonce), now⟩ hlanded
    refine ⟨_, rfl, _, htold, ?_⟩
    rw [Unminted.pages_concat, Unminted.page, ← hlist]
  · exact ensures_pure trivial hchecked

/-- A page tells the list its check, and its submission if it gets there. -/
theorem lists_processPage {resume : Option CircleCursor} {watermark : Option MessageHash} (h : Listing w) :
    Lists F (processPage C resume watermark) (fun _ w' => Listing w') w := by
  refine ensures_seq (lists_aside rfl fun self w₁ h₁ => ?_)
  refine ensures_seq (lists_ask rfl fun r w₂ h₂ => ?_)
  have hlisting := (h.unlisted h₁).unlisted h₂
  cases r with
  | error e => exact hlisting
  | ok page =>
    refine lists_seq (lists_buildNotes hlisting) fun built w₃ h₃ => ?_
    obtain ⟨relayer, hlisted⟩ := h₃
    refine ensures_seq (lists_self hlisted.running fun w₄ h₄ => ?_)
    obtain ⟨hrunning, ps, htells, hlist⟩ := hlisted.unlisted h₄
    refine ensures_seq (lists_retainUnminted (fun unminted w₅ hself htold => ?_) fun _ w₅ h₅ =>
      ⟨relayer, (hlisted.unlisted h₄).unlisted h₅⟩)
    refine ensures_seq (lists_update fun n => ?_)
    refine lists_seq (lists_submitPage rfl htells ?_ htold) fun _ _ h₆ => ensures_pure trivial h₆
    show relayer.unminted.retain unminted = _
    rw [hlist]

theorem lists_finishPage {pos : Position} (h : Listing w) : Lists F (finishPage C pos) (fun _ w' => Listing w') w := by
  refine lists_seq (lists_processPage h) fun outcome w₁ h₁ => lists_seq ?_ fun _ _ h₂ => ensures_pure trivial h₂
  unfold saveChange
  split
  · exact lists_ask rfl fun _ _ h₂ => h₁.unlisted h₂
  · exact ensures_pure trivial h₁

theorem lists_runPage {pos : Position} (h : Listing w) : Lists F (runPage C pos) (fun _ w' => Listing w') w := by
  refine ensures_seq (ensures_lift ((lists_finishPage h).mono fun r w₁ _ h₁ => ?_))
  cases r with
  | ok next => exact ensures_pure trivial h₁
  | error failure =>
    refine lists_seq ?_ fun _ _ h₂ => ensures_throw trivial h₂
    unfold limitAfter
    split
    · obtain ⟨relayer, hlisted⟩ := h₁
      exact lists_change hlisted fun _ => rfl
    · exact ensures_pure trivial h₁

theorem lists_scanFrom {pages : Nat} {pos : Position} (h : Listing w) :
    Lists F (scanFrom C pages pos) (fun _ w' => Listing w') w := by
  induction pages generalizing w pos with
  | zero => exact ensures_pure trivial h
  | succ pages ih =>
    refine ensures_seq (lists_aside rfl fun stop w₁ h₁ => ?_)
    change Bool at stop
    cases stop with
    | true => exact ensures_pure trivial (h.unlisted h₁)
    | false =>
      refine lists_seq (lists_runPage (h.unlisted h₁)) fun next w₂ h₂ => ?_
      refine ensures_seq (lists_aside rfl fun stop w₃ h₃ => ?_)
      change Bool at stop
      cases stop with
      | true => exact ensures_pure trivial (h₂.unlisted h₃)
      | false =>
        cases next with
        | none => exact ensures_pure trivial (h₂.unlisted h₃)
        | some pos => exact ih (h₂.unlisted h₃)

theorem lists_runUntil {scans : List Nat} (h : Listing w) : Lists F (runUntil C scans) (fun _ w' => Listing w') w := by
  induction scans generalizing w with
  | nil => exact ensures_pure trivial h
  | cons pages rest ih =>
    have hscan : Lists F (scan C pages) (fun _ w' => Listing w') w :=
      lists_seq (lists_ask rfl fun _ _ h₁ => h.unlisted h₁) fun _ _ h₁ => lists_scanFrom h₁
    refine ensures_seq (ensures_lift (hscan.mono fun outcome w₁ _ h₁ => ?_))
    cases outcome with
    | error e => exact ih h₁
    | ok outcome =>
      cases outcome with
      | complete => exact ih h₁
      | stopped => exact ensures_pure trivial h₁

theorem lists_require {check : Except String Unit} {Q : Except Failure Unit → World → Prop} (hok : Q (.ok ()) w)
    (herr : ∀ e, Q (.error e) w) : Lists F (require check) Q w := by
  refine lists_attempt ?_
  cases check with
  | ok _ => exact hok
  | error text => exact herr _

/-- A relayer starts with no list, and has told nothing. -/
theorem lists_new {config : Config} {seed : RandomCoin} (hstarted : told w.log = []) :
    Lists F (new config seed) (fun r w' => r = .ok () → Listing w') w := by
  refine ensures_seq (lists_require (ensures_seq (lists_ask rfl fun state w₁ h₁ => ?_)) fun _ => nofun)
  cases state with
  | error e => exact nofun
  | ok state =>
    refine ensures_seq (lists_ask rfl fun saved w₂ h₂ => ?_)
    cases saved with
    | error e => exact nofun
    | ok _ =>
      refine ensures_seq (lists_require (lists_update fun n _ => ⟨_, rfl, [], ?_, rfl⟩) fun _ => nofun)
      show told w₂.log = []
      rw [h₂.told, h₁.told, hstarted]

theorem lists_serve {config : Config} {seed : RandomCoin} {scans : List Nat} :
    Lists F (serve C config seed scans) (fun r w' => r = .ok () → Listing w') w := by
  refine ensures_seq (ensures_call trivial fun e => ⟨trivial, ensures_seq ((lists_new rfl).mono fun r w₁ _ h₁ => ?_)⟩)
  cases r with
  | error e => exact nofun
  | ok _ => exact (lists_runUntil (h₁ rfl)).mono fun _ _ _ h₂ _ => h₂

/-- When a process stops, its list is what its checks and submissions made of the empty one; so a deposit is in it
exactly if it was submitted, and every check since reported it unminted. -/
theorem stopped_listed (F : Feed C) (l : Lifetime) (w : World)
    (hstopped : (Prog.run (handler F) (serve C l.config l.seed l.scans).run l.env w).1 = some (.ok ())) :
    ∃ relayer ps, (l.run F w).self = some relayer ∧ Tells (l.run F w).log ps ∧ relayer.unminted = .pages ps ∧
      ∀ nonce, nonce ∈ relayer.unminted.nonces ↔ Waiting ps nonce := by
  have hserve : Lists F (serve C l.config l.seed l.scans) (fun r w' => r = .ok () → Listing w') w := lists_serve
  obtain ⟨relayer, hrunning, ps, htells, hlist⟩ := (Prog.Keeps.run l.env hserve).2 _ hstopped rfl
  refine ⟨relayer, ps, hrunning, htells, hlist, fun nonce => ?_⟩
  rw [hlist]
  exact Unminted.mem_nonces_pages

end DepositRelayer
