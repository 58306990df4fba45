import MidenUsdcx.Lib.Choices
import MidenUsdcx.Relayer.Deposits
/-!
# Catching up (`lib.rs:219-488`, `circle.rs:318-372`)

`deposits_kept` says what a relayer never loses. Here it makes progress: against a Circle, a node and a disk that answer
(`steady`), each scan ends by itself, the first one finishes what an earlier process left open, and the next one covers
the feed from its head. What is assumed of Circle is that a page is the feed's and not empty while older entries remain,
so that each page lowers the place the walk has come to (`reach`).
-/
namespace DepositRelayer
open Checked Interact

variable {C : Crates} {F : Feed C} {w w' : World} {pos : Position}

/-! ## An environment that answers -/

/-- Circle with a feed that grows to `limit` entries at most. -/
structure Circle (F : Feed C) where
  limit : Nat
  reply : Nat → PageSize → HttpReply
  page : ∀ top size, top ≤ limit →
    ∃ page, readPage C size (reply top size) = .ok page ∧ F.Serves top page ∧ (0 < top → page.entries ≠ [])

/-- What is left to chance. -/
structure Calm where
  arrivals : Nat := 0
  minted : List DepositNonce := []
  now : Nat := 0

variable {circle : Circle F} {n start : Nat}

/-- How many of the entries that want to arrive do. -/
def Circle.arriving (circle : Circle F) (w : World) (c : Calm) : Nat := min c.arrivals (circle.limit - w.length)

def Circle.env (circle : Circle F) (o : Call) (w : World) (c : Calm) : Env where
  arrivals := circle.arriving w c
  minted := c.minted
  now := c.now
  reply := match o with
    | .fetch cursor size => circle.reply (F.top (w.length + circle.arriving w c) cursor) size
    | _ => .failed

def steady (circle : Circle F) : Handler calls Calm World where
  step o c w := (handler F).step o (circle.env o w c) w

theorem steady_within : (steady circle).Within (handler F) := fun o c w => ⟨circle.env o w c, rfl⟩

/-- The feed has what it had at first, and no more than it may have. -/
structure Holds (circle : Circle F) (n : Nat) (w : World) : Prop where
  least : n ≤ w.length
  most : w.length ≤ circle.limit

theorem length_answer (o : Call) (e : Env) (w : World) : (answer F o e w).2.length = w.length := by
  cases o with
  | start | self | update | isCancelled | skip | now | state => rfl
  | fetch cursor size =>
    by_cases h : F.Truthful size (F.top w.length cursor) e.reply = true <;> simp [answer, h]
  | retainUnminted | submitNotes | setState =>
    simp only [answer]
    cases e.failure <;> rfl

theorem Holds.step (h : Holds circle n w) (o : Call) (c : Calm) :
    Holds circle n ((steady circle).step o c w).2 := by
  have hlength : ((steady circle).step o c w).2.length = w.length + circle.arriving w c := length_answer _ _ _
  have hmost := h.most
  have hleast := h.least
  have harriving : circle.arriving w c ≤ circle.limit - w.length := Nat.min_le_right _ _
  constructor <;> omega

/-! ## Nothing fails -/

abbrev Goes (circle : Circle F) (n : Nat) {ρ α : Type} (t : Task ρ α) (Q : α → World → Prop) (w : World) : Prop :=
  Succeeds (steady circle) (Holds circle n) t Q w

section
variable {ρ α β : Type}

theorem goes_call {o : Call} {Q : o.Answer → World → Prop} (hw : Holds circle n w)
    (h : ∀ c, Q ((steady circle).step o c w).1 ((steady circle).step o c w).2) : Goes circle n (call o : Task ρ _) Q w :=
  succeeds_call hw fun c => ⟨hw.step o c, h c⟩

/-- A call whose answer does not matter. -/
theorem goes_past {o : Call} {f : o.Answer → Task ρ β} {Q : β → World → Prop} (hw : Holds circle n w)
    (h : ∀ a w', Holds circle n w' → Goes circle n (f a) Q w') : Goes circle n (call o >>= f) Q w :=
  Succeeds.seq (goes_call (Q := fun _ _ => True) hw fun _ => trivial) fun a w' hw' _ => h a w' hw'

/-- A call that is answered well. -/
theorem goes_answered {o : Call} {f : o.Answer → Task ρ β} (hw : Holds circle n w)
    (h : ∀ c, ∃ b, f ((steady circle).step o c w).1 = pure b) : Goes circle n (call o >>= f) (fun _ _ => True) w := by
  refine Succeeds.seq (goes_call (Q := fun a _ => ∃ b, f a = pure b) hw h) fun a w' hw' ha => ?_
  obtain ⟨b, hb⟩ := ha
  rw [hb]
  exact succeeds_pure hw' trivial

end

theorem goes_loadState (hw : Holds circle n w) : Goes circle n loadState (fun _ _ => True) w :=
  goes_answered hw fun _ => ⟨_, rfl⟩

theorem goes_saveState {s : State} (hw : Holds circle n w) : Goes circle n (saveState s) (fun _ _ => True) w :=
  goes_answered hw fun _ => ⟨_, rfl⟩

theorem goes_retainUnminted {nonces : List DepositNonce} (hw : Holds circle n w) :
    Goes circle n (retainUnminted nonces) (fun _ _ => True) w := goes_answered hw fun _ => ⟨_, rfl⟩

theorem goes_submitNotes {notes : List XUsdcMintNote} (hw : Holds circle n w) :
    Goes circle n (submitNotes notes) (fun _ _ => True) w := goes_answered hw fun _ => ⟨_, rfl⟩

theorem goes_buildNotes {entries : List Entry} (hw : Holds circle n w) :
    Goes circle n (buildNotes C entries) (fun _ _ => True) w := by
  induction entries generalizing w with
  | nil => exact succeeds_pure hw trivial
  | cons entry rest ih =>
    refine goes_past hw fun self w₁ hw₁ => goes_past hw₁ fun _ w₂ hw₂ => ?_
    cases (Minter.buildEntry C self.minter entry).1 with
    | ok note => exact Succeeds.seq (ih hw₂) fun _ _ hw₃ _ => succeeds_pure hw₃ trivial
    | error reason =>
      refine goes_past hw₂ fun _ w₃ hw₃ => ?_
      exact Succeeds.seq (ih hw₃) fun _ _ hw₄ _ => succeeds_pure hw₄ trivial

theorem goes_submitPage {entries : List Entry} {built : Nat} {notes : List XUsdcMintNote} (hw : Holds circle n w) :
    Goes circle n (submitPage entries built notes) (fun _ _ => True) w := by
  unfold submitPage
  split
  · exact succeeds_pure hw trivial
  · split
    · exact succeeds_pure hw trivial
    · split
      · refine Succeeds.seq (goes_submitNotes hw) fun _ w₁ hw₁ _ => ?_
        refine goes_past hw₁ fun _ w₂ hw₂ => goes_past hw₂ fun _ w₃ hw₃ => ?_
        exact goes_call hw₃ fun _ => trivial
      · exact succeeds_pure hw trivial

/-! ## How far the walk has come -/

/-- The place a walk goes on below, at the latest. -/
def reach (circle : Circle F) : Option CircleCursor → Nat
  | none => circle.limit
  | some cursor => F.names cursor

/-- A page that is asked for comes, and its link leads below what it was asked below. -/
theorem steady_page {cursor : Option CircleCursor} {size : PageSize} (hw : Holds circle n w)
    (hreach : reach circle cursor ≤ circle.limit) (c : Calm) :
    ∃ page, readPage C size ((steady circle).step (.fetch cursor size) c w).1 = .ok page ∧
      ∀ next, page.next = some next → F.names next < reach circle cursor := by
  have htop : F.top (w.length + circle.arriving w c) cursor ≤ reach circle cursor := by
    cases cursor with
    | none =>
      have hmost := hw.most
      have harriving : circle.arriving w c ≤ circle.limit - w.length := Nat.min_le_right _ _
      simp only [Feed.top, reach]
      omega
    | some cursor => exact Nat.le_refl _
  obtain ⟨page, hread, hserves, hsome⟩ := circle.page _ size (Nat.le_trans htop hreach)
  have htruthful : F.Truthful size (F.top (w.length + circle.arriving w c) cursor)
      (circle.reply (F.top (w.length + circle.arriving w c) cursor) size) = true := by
    simp only [Feed.Truthful, hread]
    exact decide_eq_true hserves
  have hanswer : ((steady circle).step (.fetch cursor size) c w).1 =
      circle.reply (F.top (w.length + circle.arriving w c) cursor) size := by
    show (answer F (.fetch cursor size) (circle.env (.fetch cursor size) w c) (w.arrive _)).1 = _
    simp only [answer]
    exact congrArg Prod.fst (if_pos htruthful)
  refine ⟨page, by rw [hanswer, hread], fun next hnext => ?_⟩
  have hrest := hserves.2.2
  simp only [hnext] at hrest
  have hpos : 0 < page.entries.length := List.length_pos_of_ne_nil (hsome (by omega))
  omega

theorem goes_fetchPage {cursor : Option CircleCursor} {size : PageSize} (hw : Holds circle n w)
    (hreach : reach circle cursor ≤ circle.limit) :
    Goes circle n (fetchPage C cursor size)
      (fun page _ => ∀ c, page.next = some c → F.names c < reach circle cursor) w := by
  have hcall : Goes circle n (call (.fetch cursor size) : Task Failure _) (fun (reply : HttpReply) _ =>
      ∃ page, readPage C size reply = .ok page ∧ ∀ c, page.next = some c → F.names c < reach circle cursor) w :=
    goes_call hw (steady_page hw hreach)
  refine Succeeds.seq hcall fun reply w' hw' hreply => ?_
  obtain ⟨page, hread, hnext⟩ := hreply
  rw [hread]
  exact succeeds_pure hw' hnext

theorem goes_processPage {watermark : Option MessageHash} {resume : Option CircleCursor} (hw : Holds circle n w)
    (hreach : reach circle resume ≤ circle.limit) :
    Goes circle n (processPage C resume watermark)
      (fun outcome _ => ∀ c, outcome.next = some c → F.names c < reach circle resume) w := by
  refine goes_past hw fun self w₁ hw₁ => ?_
  refine Succeeds.seq (goes_fetchPage hw₁ hreach) fun page w₂ hw₂ hnext => ?_
  refine Succeeds.seq (goes_buildNotes hw₂) fun built w₃ hw₃ _ => ?_
  refine goes_past hw₃ fun self w₄ hw₄ => ?_
  refine Succeeds.seq (goes_retainUnminted hw₄) fun unminted w₅ hw₅ _ => ?_
  refine goes_past hw₅ fun _ w₆ hw₆ => ?_
  refine Succeeds.seq (goes_submitPage hw₆) fun _ w₇ hw₇ _ => succeeds_pure hw₇ ?_
  intro c hc
  by_cases hreached : (reached watermark page).isSome
  · simp only [hreached, if_true] at hc
    cases hc
  · simp only [hreached] at hc
    exact hnext c hc

/-! ## A page -/

abbrev Steady (circle : Circle F) (n : Nat) {ρ α : Type} (t : Task ρ α) (Q : α → World → Prop) (w : World) : Prop :=
  Succeeds (steady circle) (fun w => Sound F w ∧ Holds circle n w) t Q w

/-- What the walk has left to handle of the entries below `start` is below where it goes on. -/
def Walked (F : Feed C) (start : Nat) (w : World) (pos : Position) : Prop :=
  match pos.resume with
  | none => start ≤ w.length
  | some c => ∀ q, F.names c ≤ q → q < start → Handled F w.log q

/-- A processed page handled what the walk passed. -/
theorem Processed.passed {m top q : Nat} {page : Page} (h : Processed F pos m top page w') (hw : Sound F w')
    (hstate : pos.state = w'.state) (hm : w.length ≤ m) (hkept : Kept w w') (hwalked : Walked F start w pos)
    (hq : q < start) (hlow : ∀ c, (outcomeOf pos.watermark page).next = some c → F.names c ≤ q) :
    Handled F w'.log q := by
  by_cases htop : q < top
  · cases hnext : (outcomeOf pos.watermark page).next with
    | some c =>
      obtain ⟨hplace, habove⟩ := h.pageAt.goes_on hnext
      have hle := hlow c hnext
      refine h.handled q ⟨hplace ▸ hle, htop, fun hash p hmark hp => ?_⟩
      exact Nat.lt_of_lt_of_le (habove hash p hmark hp) hle
    | none =>
      rcases h.pageAt.ends hnext htop with hfresh | ⟨hash, p, hmark, hp, hle⟩
      · exact h.handled q hfresh
      · refine hw.legal.handled q ?_
        rw [hw.state, ← hstate]
        exact .below hmark hp hle
  · have hplace := h.pageAt.top_eq
    unfold Walked at hwalked
    cases hresume : pos.resume with
    | none =>
      rw [hresume] at hwalked hplace
      simp only [Feed.top] at hplace
      omega
    | some c =>
      rw [hresume] at hwalked hplace
      simp only [Feed.top] at hplace
      exact (hwalked q (by omega) hq).mono hkept.log

/-- What is left of the walk after a page. -/
structure Onward (circle : Circle F) (start : Nat) (pos : Position) (next : Option Position) (w : World) : Prop where
  quiet : Quiet w.log
  goes : ∀ pos', next = some pos' →
    OnTrack F w pos' ∧ reach circle pos'.resume < reach circle pos.resume ∧ Walked F start w pos'
  ends : next = none → w.state.scan = none ∧ ∀ q, q < start → Handled F w.log q

/-- The file holds what the position after the page saves, whether or not that is written. -/
theorem steady_saveChange {m top : Nat} {page : Page} (hw : Sound F w) (hholds : Holds circle n w)
    (hdone : Processed F pos m top page w) (hstate : pos.state = w.state) :
    Steady circle n (saveChange pos.state (advance pos (outcomeOf pos.watermark page)).2)
      (fun _ w' => w.length ≤ w'.length ∧ Quiet w'.log ∧ (∀ a ∈ w.log, a ∈ w'.log) ∧
        w'.state = (advance pos (outcomeOf pos.watermark page)).2) w := by
  have hsaved : Runs F (saveChange pos.state (advance pos (outcomeOf pos.watermark page)).2)
      (fun r w' => r = .ok () → w.length ≤ w'.length ∧ Quiet w'.log ∧ (∀ a ∈ w.log, a ∈ w'.log) ∧
        w'.state = (advance pos (outcomeOf pos.watermark page)).2) w := by
    unfold saveChange
    by_cases hchange : (advance pos (outcomeOf pos.watermark page)).2 ≠ pos.state
    · rw [if_pos hchange]
      refine runs_saveState hw (hdone.advance hw hstate) (hdone.pageAt.advance_placed.mono hdone.length)
        (fun w₂ hlen hfile hlog _ _ => ⟨hlen, ?_, ?_, hfile⟩) fun _ _ _ _ h => ?_
      · rw [hlog]
        exact .same (by simp)
      · intro a ha
        rw [hlog]
        exact List.mem_cons_of_mem _ ha
      · cases h
    · rw [if_neg hchange]
      rw [not_not] at hchange
      exact ensures_pure hw fun _ =>
        ⟨Nat.le_refl _, hdone.quiet hchange, fun _ h => h, hstate.symm.trans hchange.symm⟩
  have hgoes : Goes circle n (saveChange pos.state (advance pos (outcomeOf pos.watermark page)).2)
      (fun _ _ => True) w := by
    unfold saveChange
    split
    · exact goes_saveState hholds
    · exact succeeds_pure hholds trivial
  exact (Succeeds.of hsaved steady_within hgoes).mono fun _ _ _ h => h.1 rfl

/-- Once the progress is saved, the walk goes on below the page, or it is over. -/
theorem onward_page {m top : Nat} {page : Page} {w₁ w₂ : World} (hdone : Processed F pos m top page w₁)
    (hlen : w₁.length ≤ w₂.length) (hquiet : Quiet w₂.log)
    (hfile : w₂.state = (advance pos (outcomeOf pos.watermark page)).2)
    (hbelow : ∀ c, (outcomeOf pos.watermark page).next = some c → F.names c < reach circle pos.resume)
    (hpassed : ∀ q, q < start → (∀ c, (outcomeOf pos.watermark page).next = some c → F.names c ≤ q) →
      Handled F w₂.log q) :
    Onward circle start pos (advance pos (outcomeOf pos.watermark page)).1 w₂ := by
  refine ⟨hquiet, fun pos' hnext => ?_, fun hnone => ?_⟩
  · have htrack := hdone.onTrack hlen hquiet hfile hnext
    cases hcursor : (outcomeOf pos.watermark page).next with
    | none => simp [advance, hcursor] at hnext
    | some c =>
      simp only [advance, hcursor, Option.some.injEq] at hnext
      subst hnext
      refine ⟨htrack, hbelow c hcursor, fun q hlow hq => hpassed q hq fun c' hc' => ?_⟩
      cases hcursor.symm.trans hc'
      exact hlow
  · cases hcursor : (outcomeOf pos.watermark page).next with
    | some c => simp [advance, hcursor] at hnone
    | none =>
      refine ⟨?_, fun q hq => hpassed q hq fun c hc => ?_⟩
      · rw [hfile]
        simp [advance, hcursor]
      · cases hcursor.symm.trans hc

theorem steady_finishPage (hw : Sound F w) (hholds : Holds circle n w) (htrack : OnTrack F w pos)
    (hreach : reach circle pos.resume ≤ circle.limit) (hwalked : Walked F start w pos) :
    Steady circle n (finishPage C pos) (Onward circle start pos) w := by
  have hpage : Runs F (processPage C pos.resume pos.watermark) (fun r w' => ∀ outcome, r = .ok outcome →
      ∃ m top page, outcome = outcomeOf pos.watermark page ∧ w.length ≤ m ∧ Kept w w' ∧
        Processed F pos m top page w') w := by
    refine runs_processPage hw htrack (fun m top page w' hm hkept _ hdone outcome houtcome => ?_) fun e w' _ _ _ h => ?_
    · cases houtcome
      exact ⟨m, top, page, rfl, hm, hkept, hdone⟩
    · cases h
  refine Succeeds.seq (Succeeds.of hpage steady_within (goes_processPage hholds hreach)) fun outcome w₁ hw₁ hdone => ?_
  obtain ⟨hsound, hholds₁⟩ := hw₁
  obtain ⟨hdone, hbelow⟩ := hdone
  obtain ⟨m, top, page, rfl, hm, hkept, hdone⟩ := hdone _ rfl
  have hstate : pos.state = w₁.state := htrack.state.trans hkept.state.symm
  refine Succeeds.seq (steady_saveChange hsound hholds₁ hdone hstate) fun _ w₂ hw₂ hsaved => succeeds_pure hw₂ ?_
  obtain ⟨hlen, hquiet, hlog, hfile⟩ := hsaved
  exact onward_page hdone hlen hquiet hfile hbelow fun q hq hlow =>
    (hdone.passed hsound hstate hm hkept hwalked hq hlow).mono hlog

theorem steady_runPage (hw : Sound F w) (hholds : Holds circle n w) (htrack : OnTrack F w pos)
    (hreach : reach circle pos.resume ≤ circle.limit) (hwalked : Walked F start w pos) :
    Steady circle n (runPage C pos) (Onward circle start pos) w := by
  refine Succeeds.seq (succeeds_lift (steady_finishPage hw hholds htrack hreach hwalked)) fun result w₁ hw₁ hdone => ?_
  obtain ⟨next, rfl, hnext⟩ := hdone
  exact succeeds_pure hw₁ hnext

/-! ## The scan -/

/-- Nobody asks for a shutdown. -/
theorem steady_isCancelled (hw : Sound F w) (hholds : Holds circle n w) :
    Steady circle n (call .isCancelled : Task Failure _) (fun (stop : Bool) w' => stop = false ∧ Same w w') w := by
  have hsame : Runs F (call .isCancelled : Task Failure _) (fun _ w' => Same w w') w :=
    runs_plain rfl hw fun _ _ h _ _ => h
  have hgoes : Goes circle n (call .isCancelled : Task Failure _) (fun (stop : Bool) _ => stop = false) w :=
    goes_call hholds fun _ => rfl
  exact (Succeeds.of hsame steady_within hgoes).mono fun _ _ _ h => ⟨h.2, h.1⟩

theorem Walked.same (h : Walked F start w pos) (hsame : Same w w') : Walked F start w' pos := by
  unfold Walked at *
  cases hresume : pos.resume with
  | none =>
    rw [hresume] at h
    exact Nat.le_trans h hsame.length
  | some c =>
    rw [hresume] at h
    intro q hlow hq
    rw [hsame.log]
    exact h q hlow hq

/-- What a finished scan leaves. -/
structure Scanned (F : Feed C) (start : Nat) (outcome : ScanOutcome) (w : World) : Prop where
  complete : outcome = .complete
  quiet : Quiet w.log
  closed : w.state.scan = none
  handled : ∀ q, q < start → Handled F w.log q

theorem steady_scanFrom {pages : Nat} (hw : Sound F w) (hholds : Holds circle n w) (htrack : OnTrack F w pos)
    (hreach : reach circle pos.resume ≤ circle.limit) (hpages : reach circle pos.resume < pages)
    (hwalked : Walked F start w pos) : Steady circle n (scanFrom C pages pos) (Scanned F start) w := by
  induction pages generalizing w pos with
  | zero => omega
  | succ pages ih =>
    refine Succeeds.seq (steady_isCancelled hw hholds) fun stop w₁ hw₁ hgo => ?_
    obtain ⟨rfl, hsame⟩ := hgo
    refine Succeeds.seq (steady_runPage hw₁.1 hw₁.2 (htrack.same hsame) hreach (hwalked.same hsame))
      fun next w₂ hw₂ honward => ?_
    refine Succeeds.seq (steady_isCancelled hw₂.1 hw₂.2) fun stop w₃ hw₃ hgo => ?_
    obtain ⟨rfl, hsame₂⟩ := hgo
    cases next with
    | none =>
      obtain ⟨hclosed, hhandled⟩ := honward.ends rfl
      refine succeeds_pure hw₃ ⟨rfl, hsame₂.log ▸ honward.quiet, hsame₂.kept.state ▸ hclosed, fun q hq => ?_⟩
      rw [hsame₂.log]
      exact hhandled q hq
    | some pos' =>
      obtain ⟨htrack', hlower, hwalked'⟩ := honward.goes pos' rfl
      exact ih hw₃.1 hw₃.2 (htrack'.same hsame₂) (by omega) (by omega) (hwalked'.same hsame₂)

/-- A scan ends by itself, and one that starts at the head of the feed covers what was there. -/
theorem steady_scan {pages : Nat} (hw : Sound F w) (hholds : Holds circle n w) (hquiet : Quiet w.log)
    (hpages : circle.limit < pages) :
    Steady circle n (scan C pages)
      (fun outcome w' => Scanned F (if w.state.scan = none then w.length else 0) outcome w') w := by
  have hload : Runs F loadState (fun r w' => ∀ s, r = .ok s → Same w w' ∧ s = w'.state) w :=
    runs_loadState hw (fun w' hsame _ s hs => by cases hs; exact ⟨hsame, rfl⟩) fun _ _ _ _ _ h => by cases h
  refine Succeeds.seq (Succeeds.of hload steady_within (goes_loadState hholds)) fun s w₁ hw₁ hloaded => ?_
  obtain ⟨hsame, rfl⟩ := hloaded.1 s rfl
  have htrack := onTrack_fromState hw₁.1 (hsame.log ▸ hquiet)
  have hreach : reach circle (Position.fromState w₁.state).resume ≤ circle.limit := by
    cases hresume : (Position.fromState w₁.state).resume with
    | none => exact Nat.le_refl _
    | some c => exact Nat.le_trans (htrack.below c hresume).1 hw₁.2.most
  refine steady_scanFrom hw₁.1 hw₁.2 htrack hreach (Nat.lt_of_le_of_lt hreach hpages) ?_
  have hstate : w₁.state = w.state := hsame.kept.state
  unfold Walked
  by_cases hclosed : w.state.scan = none
  · have hresume : (Position.fromState w₁.state).resume = none := by
      simp only [Position.fromState, hstate, hclosed, Option.map_none]
    rw [hresume, if_pos hclosed]
    exact hsame.length
  · rw [if_neg hclosed]
    cases (Position.fromState w₁.state).resume with
    | none => exact Nat.zero_le _
    | some c => exact fun q _ hq => absurd hq (Nat.not_lt_zero q)

/-! ## The process -/

/-- The entries the feed had at first are handled, and no scan is open. -/
structure CaughtUp (F : Feed C) (n : Nat) (w : World) : Prop where
  closed : w.state.scan = none
  handled : ∀ q, q < n → Handled F w.log q

theorem steady_runUntil_closed {pages : Nat} {scans : List Nat} (hw : Sound F w) (hholds : Holds circle n w)
    (hquiet : Quiet w.log) (hclosed : w.state.scan = none) (hpages : ∀ pages' ∈ pages :: scans, circle.limit < pages') :
    Steady circle n (runUntil C (pages :: scans)) (fun _ w' => CaughtUp F n w') w := by
  induction scans generalizing w pages with
  | nil =>
    refine Succeeds.seq (succeeds_lift (steady_scan hw hholds hquiet (hpages pages List.mem_cons_self)))
      fun result w₁ hw₁ hdone => ?_
    obtain ⟨outcome, rfl, hscanned⟩ := hdone
    rw [if_pos hclosed] at hscanned
    obtain ⟨rfl, -, hclosed₁, hhandled⟩ := hscanned
    exact succeeds_pure hw₁ ⟨hclosed₁, fun q hq => hhandled q (Nat.lt_of_lt_of_le hq hholds.least)⟩
  | cons next scans ih =>
    refine Succeeds.seq (succeeds_lift (steady_scan hw hholds hquiet (hpages pages List.mem_cons_self)))
      fun result w₁ hw₁ hdone => ?_
    obtain ⟨outcome, rfl, hscanned⟩ := hdone
    obtain ⟨rfl, hquiet₁, hclosed₁, -⟩ := hscanned
    exact ih hw₁.1 hw₁.2 hquiet₁ hclosed₁ fun pages' h => hpages pages' (List.mem_cons_of_mem _ h)

theorem steady_runUntil {first second : Nat} {scans : List Nat} (hw : Sound F w) (hholds : Holds circle n w)
    (hquiet : Quiet w.log) (hpages : ∀ pages ∈ first :: second :: scans, circle.limit < pages) :
    Steady circle n (runUntil C (first :: second :: scans)) (fun _ w' => CaughtUp F n w') w := by
  refine Succeeds.seq (succeeds_lift (steady_scan hw hholds hquiet (hpages first List.mem_cons_self)))
    fun result w₁ hw₁ hdone => ?_
  obtain ⟨outcome, rfl, hscanned⟩ := hdone
  obtain ⟨rfl, hquiet₁, hclosed₁, -⟩ := hscanned
  exact steady_runUntil_closed hw₁.1 hw₁.2 hquiet₁ hclosed₁ fun pages h => hpages pages (List.mem_cons_of_mem _ h)

theorem goes_new {config : Config} {seed : RandomCoin} (hw : Holds circle n w) (hprover : config.validateProver = .ok ())
    (htimeout : config.requestTimeout ≠ 0) : Goes circle n (new config seed) (fun _ _ => True) w := by
  have hchecked : ∀ {check : Except String Unit} {w' : World}, Holds circle n w' → check = .ok () →
      Goes circle n (require check) (fun _ _ => True) w' := by
    rintro check w' hw' rfl
    exact succeeds_pure hw' trivial
  refine Succeeds.seq (hchecked hw hprover) fun _ w₁ hw₁ _ => ?_
  refine Succeeds.seq (goes_loadState hw₁) fun _ w₂ hw₂ _ => ?_
  refine Succeeds.seq (goes_saveState hw₂) fun _ w₃ hw₃ _ => ?_
  refine Succeeds.seq (hchecked hw₃ (if_pos htimeout)) fun _ w₄ hw₄ _ => ?_
  exact goes_call hw₄ fun _ => trivial

theorem runs_start (hw : Sound F w) : Runs F (call .start : Task Failure _) (fun _ w' => Quiet w'.log) w := by
  refine runs_call hw fun e w₁ _ _ _ hw₁ => ?_
  have hsame : Same w₁ { w₁ with self := none } := ⟨Nat.le_refl _, rfl, rfl⟩
  exact ⟨(hw₁.same hsame).record (a := .started) rfl trivial, .same (by simp)⟩

/-- **The relayer catches up.** Wherever earlier processes were cut off, one that is answered finishes what they left,
and after its second scan every entry the feed had when it started is handled. -/
theorem caught_up (circle : Circle F) (lifetimes : List Lifetime)
    (hlimit : (runAll F lifetimes).length ≤ circle.limit) {config : Config} (hprover : config.validateProver = .ok ())
    (htimeout : config.requestTimeout ≠ 0) (seed : RandomCoin) {first second : Nat} {scans : List Nat}
    (hpages : ∀ pages ∈ first :: second :: scans, circle.limit < pages) (env : Nat → Calm) :
    CaughtUp F (runAll F lifetimes).length
      (Prog.runOn (steady circle) (serve C config seed (first :: second :: scans)).run env (runAll F lifetimes)).2.2 := by
  have hsound := runs_sound F lifetimes
  have hholds : Holds circle (runAll F lifetimes).length (runAll F lifetimes) := ⟨Nat.le_refl _, hlimit⟩
  have hserve : Steady circle (runAll F lifetimes).length (serve C config seed (first :: second :: scans))
      (fun _ w' => CaughtUp F (runAll F lifetimes).length w') (runAll F lifetimes) := by
    refine Succeeds.seq (Succeeds.of (runs_start hsound) steady_within
      (goes_call (Q := fun _ _ => True) hholds fun _ => trivial)) fun _ w₁ hw₁ hstarted => ?_
    refine Succeeds.seq (Succeeds.of (runs_new hw₁.1 hstarted.1) steady_within (goes_new hw₁.2 hprover htimeout))
      fun _ w₂ hw₂ hnew => ?_
    exact steady_runUntil hw₂.1 hw₂.2 (hnew.1 rfl) hpages
  obtain ⟨-, _, -, hcaught⟩ := hserve.runOn env
  exact hcaught

/-! The feed of two deposits, of which a process cut off between the pages recorded one. -/

namespace Sample
open LightAttester (StatusCode)

def cut : Lifetime := { scanned with env := scanned.env.take 25 }

/-- A page of one entry while there is one. -/
def answered : Nat → HttpReply
  | 0 => .response { status := .ok, link := none, chunks := [[0, 0]], complete := true }
  | 1 => reply 1 none
  | _ => reply 2 (some "x")

theorem readPage_single {top count : UInt8} {page : Page} (size : PageSize) (link : Option String)
    (hpage : Page.decode crates [top, count] link = .ok page) (hlen : page.entries.length ≤ 1) :
    readPage crates size
      (.response { status := .ok, link := link.map some, chunks := [[top, count]], complete := true }) = .ok page := by
  have hsize : ¬ size.value < page.entries.length := by
    have hrange := size.range.1
    omega
  have hbody : readBody true [] [[top, count]] = .ok [top, count] := rfl
  have hstatus : 200 ≤ StatusCode.ok.code ∧ StatusCode.ok.code < 300 := by decide
  simp only [readPage, hbody, hstatus, and_self, if_true]
  cases link <;> simp [hpage, hsize, Except.mapError, bind, Except.bind, pure, Except.pure]

def smallCircle : Circle feed where
  limit := 2
  reply top _ := answered top
  page top size hle := by
    match top, hle with
    | 0, _ => exact ⟨{ entries := [], next := none }, readPage_single size none rfl (by decide), by decide, by simp⟩
    | 1, _ =>
      exact ⟨{ entries := [Entry.decode crates 1 (element 0)], next := none },
        readPage_single size none rfl (by decide), by decide, by simp⟩
    | 2, _ =>
      exact ⟨{ entries := [Entry.decode crates 1 (element 1)], next := some ⟨"x"⟩ },
        readPage_single size (some "x") rfl (by decide), by decide, by simp⟩

end Sample

/-- The next process finishes the scan that was cut off. -/
theorem caught_up_after_cut :
    (runAll Sample.feed [Sample.cut]).length = 2 ∧ (runAll Sample.feed [Sample.cut]).state.scan.isSome ∧
    CaughtUp Sample.feed (runAll Sample.feed [Sample.cut]).length
      (Prog.runOn (steady Sample.smallCircle) (serve Sample.crates Sample.config ⟨[]⟩ [3, 3]).run (fun _ => {})
        (runAll Sample.feed [Sample.cut])).2.2 :=
  ⟨by decide +kernel, by decide +kernel,
    caught_up Sample.smallCircle [Sample.cut] (by decide +kernel) (by decide) (by decide) ⟨[]⟩ (by decide) fun _ => {}⟩

end DepositRelayer
