import Mathlib.Logic.Function.Basic
import Mathlib.Logic.Relation
/-!
# The bridge's supervisor (`usdcx-bridge/supervisor.rs`, `usdcx-telemetry/shutdown.rs`)

One process runs the attester and the relayer. `Step` is one step of any party: a service, the watcher of a service,
the main task, the task that waits for a signal, or the clock. A run is an interleaving of all.

| here | there |
| --- | --- |
| `Main.startingAttester`, `.startingRelayer` | `start` (`supervisor.rs:37-65`) |
| `Main.supervising`, `Watch` | `supervise` and its two `stop_peer_on_exit` (`supervisor.rs:70-109`) |
| `joined` | a service behind its task or thread (`supervisor.rs:28`, `81`) |
| `settle` | the end of `stop_peer_on_exit` (`supervisor.rs:106-108`) |
| `State.deadline`, `Step.arm`, `Step.expire` | `stop_within` (`shutdown.rs:39-61`) |
| `Step.signal` | `cancel_on_signal` (`shutdown.rs:20-33`) |

A service is any future: it may end at any time, with a result or a panic. Reading the token and cancelling it are two
steps, since signals come from another thread. `select!` takes whichever branch is ready, so a deadline that passed
and an output that is there may go either way. Left out: the error of `cancel_on_signal`, where a handler cannot be
installed and `run` returns before anything is started; the log lines, and the flush of buffered spans before
`process::exit`; a panic of the main task itself.
-/
namespace Bridge

/-! ## The parties -/

/-- An `anyhow::Error`: its texts, the outermost first. -/
abbrev Error := List String

abbrev Outcome := Except Error Unit

/-- `SHUTDOWN_TIMEOUT` (`shutdown.rs:13`), in seconds. -/
def shutdownTimeout : Nat := 5 * 60

inductive Service where
  | attester
  | relayer
deriving DecidableEq, Repr

def Service.name : Service → String
  | .attester => "attester"
  | .relayer => "relayer"

/-- How a service ends. -/
inductive Ending where
  | returned (result : Outcome)
  | panicked (text : String)

/-- Where a service is. -/
inductive Life where
  | absent
  | starting
  /-- Past its startup, and not run yet. -/
  | started
  | running
  | ended (ending : Ending)

/-- Where `stop_peer_on_exit` is. -/
inductive Watch where
  | waiting
  | collected (result : Outcome)
  /-- `is_cancelled` was read. -/
  | asked (requested : Bool) (result : Outcome)
  | done (outcome : Outcome)

/-- Where `run` is. -/
inductive Main where
  | startingAttester
  | startingRelayer
  | supervising (watch : Service → Watch)
  | returned (result : Outcome)
  /-- `process::exit(1)`. -/
  | exited

/-- Whether `run` is inside a `stop_within`. -/
def Main.pending : Main → Bool
  | .returned _ | .exited => false
  | _ => true

def Main.inStartup : Main → Bool
  | .startingAttester | .startingRelayer => true
  | _ => false

inductive Cause where
  | signal
  | peer (service : Service)
deriving DecidableEq, Repr

/-- The cancellation of `shutdown`: by whom, when, and whether the services had passed startup. -/
structure Request where
  cause : Cause
  time : Nat
  inStartup : Bool
deriving DecidableEq, Repr

structure State where
  now : Nat
  /-- The token `shutdown`. -/
  request : Option Request
  life : Service → Life
  /-- The relayer has sent that it is ready. -/
  ready : Bool
  main : Main
  /-- When the current `stop_within` gives up, once it has seen the shutdown. -/
  deadline : Option Nat

/-! ## What they compute -/

/-- `handle.await.context("… task failed")?`. -/
def joined (i : Service) : Ending → Outcome
  | .returned result => result
  | .panicked text => .error [i.name ++ " task failed", text]

/-- The end of `stop_peer_on_exit` (`supervisor.rs:106-108`). -/
def settle (i : Service) (requested : Bool) : Outcome → Outcome
  | .error e => .error ((i.name ++ " failed") :: e)
  | .ok () => if requested then .ok () else .error [i.name ++ " stopped unexpectedly"]

/-- What `start` returns when the relayer did not get ready (`supervisor.rs:59-62`). -/
def startupError : Ending → Error
  | .returned (.error e) => "relayer startup failed" :: e
  | .returned (.ok ()) => ["relayer stopped before passing startup"]
  | .panicked text => ["relayer task failed", text]

/-- `attester.and(relayer)`. -/
def both (attester relayer : Outcome) : Outcome :=
  match attester with
  | .ok () => relayer
  | .error e => .error e

namespace State

/-- The process begins. -/
def first (now : Nat) : State where
  now := now
  request := none
  life i := match i with
    | .attester => .starting
    | .relayer => .absent
  ready := false
  main := .startingAttester
  deadline := none

/-- `shutdown.cancel()`. -/
def cancel (s : State) (cause : Cause) : State :=
  match s.request with
  | none => { s with request := some ⟨cause, s.now, s.main.inStartup⟩ }
  | some _ => s

def setLife (s : State) (i : Service) (life : Life) : State := { s with life := Function.update s.life i life }

def setWatch (s : State) (watch : Service → Watch) (i : Service) (w : Watch) : State :=
  { s with main := .supervising (Function.update watch i w) }

end State

inductive Step : State → State → Prop where
  | signal (s : State) (h : s.main.pending = true) : Step s (s.cancel .signal)
  /-- `AttesterService::start` is over, and the relayer's thread begins. -/
  | attesterUp (s : State) (h : s.main = .startingAttester) :
    Step s { s with life := fun i => match i with
                      | .attester => .started
                      | .relayer => .starting,
                    main := .startingRelayer }
  | attesterDown (s : State) (e : Error) (h : s.main = .startingAttester) :
    Step s { s.setLife .attester (.ended (.returned (.error e))) with main := .returned (.error e) }
  | relayerUp (s : State) (h : s.life .relayer = .starting) (hmain : s.main.pending = true) :
    Step s { s.setLife .relayer .running with ready := true }
  | relayerDown (s : State) (ending : Ending) (h : s.life .relayer = .starting) (hfailed : ending ≠ .returned (.ok ()))
    (hmain : s.main.pending = true) : Step s (s.setLife .relayer (.ended ending))
  /-- The services have passed startup, and both are supervised under a `stop_within` of their own. -/
  | supervise (s : State) (h : s.main = .startingRelayer) (hready : s.ready = true) :
    Step s { s.setLife .attester .running with main := .supervising fun _ => .waiting, deadline := none }
  | unready (s : State) (ending : Ending) (h : s.main = .startingRelayer) (hready : s.ready = false)
    (hended : s.life .relayer = .ended ending) : Step s { s with main := .returned (.error (startupError ending)) }
  | ends (s : State) (i : Service) (ending : Ending) (h : s.life i = .running) (hmain : s.main.pending = true) :
    Step s (s.setLife i (.ended ending))
  | collect (s : State) (watch : Service → Watch) (i : Service) (ending : Ending) (h : s.main = .supervising watch)
    (hwatch : watch i = .waiting) (hended : s.life i = .ended ending) :
    Step s (s.setWatch watch i (.collected (joined i ending)))
  | ask (s : State) (watch : Service → Watch) (i : Service) (result : Outcome) (h : s.main = .supervising watch)
    (hwatch : watch i = .collected result) : Step s (s.setWatch watch i (.asked s.request.isSome result))
  | leave (s : State) (watch : Service → Watch) (i : Service) (requested : Bool) (result : Outcome)
    (h : s.main = .supervising watch) (hwatch : watch i = .asked requested result) :
    Step s ((if requested then s else s.cancel (.peer i)).setWatch watch i (.done (settle i requested result)))
  | finish (s : State) (watch : Service → Watch) (attester relayer : Outcome) (h : s.main = .supervising watch)
    (hattester : watch .attester = .done attester) (hrelayer : watch .relayer = .done relayer) :
    Step s { s with main := .returned (both attester relayer) }
  | arm (s : State) (h : s.main.pending = true) (hrequest : s.request.isSome = true) (hdeadline : s.deadline = none) :
    Step s { s with deadline := some (s.now + shutdownTimeout) }
  | expire (s : State) (deadline : Nat) (h : s.main.pending = true) (hdeadline : s.deadline = some deadline)
    (hlate : deadline ≤ s.now) : Step s { s with main := .exited }
  | tick (s : State) (now : Nat) (h : s.now ≤ now) : Step s { s with now := now }

/-- The states of every run. -/
def Reachable (s : State) : Prop := ∃ now, Relation.ReflTransGen Step (.first now) s

/-! ## What a result stands for -/

/-- Why `run` returns `result`: a startup that failed, or what the two services came to. -/
inductive Explains (s : State) : Outcome → Prop where
  | attesterDown (e : Error) (hattester : s.life .attester = .ended (.returned (.error e)))
    (hrelayer : s.life .relayer = .absent) : Explains s (.error e)
  | relayerDown (ending : Ending) (hattester : s.life .attester = .started) (hready : s.ready = false)
    (hrelayer : s.life .relayer = .ended ending) : Explains s (.error (startupError ending))
  | supervised (ending : Service → Ending) (requested : Service → Bool) (hready : s.ready = true)
    (hended : ∀ i, s.life i = .ended (ending i)) (hrequest : s.request.isSome = true) :
    Explains s (both (settle .attester (requested .attester) (joined .attester (ending .attester)))
      (settle .relayer (requested .relayer) (joined .relayer (ending .relayer))))

/-- What a watcher holds is what its service came to. -/
inductive Watches (s : State) (i : Service) : Watch → Prop where
  | waiting (h : s.life i = .running ∨ ∃ ending, s.life i = .ended ending) : Watches s i .waiting
  | collected (ending : Ending) (h : s.life i = .ended ending) : Watches s i (.collected (joined i ending))
  | asked (requested : Bool) (ending : Ending) (h : s.life i = .ended ending)
    (hrequested : requested = true → s.request.isSome = true) : Watches s i (.asked requested (joined i ending))
  | done (requested : Bool) (ending : Ending) (h : s.life i = .ended ending) (hrequest : s.request.isSome = true) :
    Watches s i (.done (settle i requested (joined i ending)))

/-- In what order the services come up: the relayer begins no work of any kind before the attester has passed its
startup, and the attester none before the relayer has passed its own. -/
structure Ordered (s : State) : Prop where
  relayer : s.life .relayer = .absent ∨ s.life .attester ≠ .starting
  attester : s.life .attester = .running → s.ready = true

/-- The services at each point of `run`. -/
def Fits (s : State) : Main → Prop
  | .startingAttester => s.life .attester = .starting ∧ s.life .relayer = .absent ∧ s.ready = false
  | .startingRelayer => s.life .attester = .started ∧
      if s.ready then s.life .relayer = .running ∨ ∃ ending, s.life .relayer = .ended ending
      else s.life .relayer = .starting ∨ ∃ ending, s.life .relayer = .ended ending
  | .supervising watch => s.ready = true ∧ ∀ i, Watches s i (watch i)
  | .returned result => Explains s result
  | .exited => Ordered s

/-- A service that requested the shutdown is one whose watcher reports an error. -/
def Blamed (i : Service) : Main → Prop
  | .supervising watch => ∃ e, watch i = .done (.error e)
  | .returned result => ∃ e, result = .error e
  | .exited => True
  | _ => False

structure Inv (s : State) : Prop where
  fits : Fits s s.main
  blamed : ∀ request i, s.request = some request → request.cause = .peer i → Blamed i s.main

/-! ## What one step keeps -/

section
variable {s s' : State} {watch : Service → Watch} {i : Service}

theorem both_error {attester relayer : Outcome} (h : (∃ e, attester = .error e) ∨ ∃ e, relayer = .error e) :
    ∃ e, both attester relayer = .error e := by
  cases attester with
  | error e => exact ⟨e, rfl⟩
  | ok =>
    obtain ⟨e, he⟩ | ⟨e, he⟩ := h
    · cases he
    · exact ⟨e, he⟩

theorem settle_unrequested (i : Service) (result : Outcome) : ∃ e, settle i false result = .error e := by
  cases result <;> exact ⟨_, rfl⟩

@[simp] theorem cancel_life (s : State) (cause : Cause) : (s.cancel cause).life = s.life := by
  unfold State.cancel
  cases s.request <;> rfl

@[simp] theorem cancel_ready (s : State) (cause : Cause) : (s.cancel cause).ready = s.ready := by
  unfold State.cancel
  cases s.request <;> rfl

@[simp] theorem cancel_main (s : State) (cause : Cause) : (s.cancel cause).main = s.main := by
  unfold State.cancel
  cases s.request <;> rfl

@[simp] theorem cancel_request (s : State) (cause : Cause) : (s.cancel cause).request.isSome = true := by
  unfold State.cancel
  cases h : s.request with
  | none => rfl
  | some request => simp only [h, Option.isSome_some]

/-- A cancellation only adds a request to what a watcher knows. -/
theorem Watches.mono {w : Watch} (h : Watches s i w) (hlife : s'.life i = s.life i)
    (hrequest : s.request.isSome = true → s'.request.isSome = true) : Watches s' i w := by
  cases h with
  | waiting h => exact .waiting (hlife ▸ h)
  | collected ending h => exact .collected ending (hlife.trans h)
  | asked requested ending h hrequested =>
    exact .asked requested ending (hlife.trans h) fun hr => hrequest (hrequested hr)
  | done requested ending h hsome => exact .done requested ending (hlife.trans h) (hrequest hsome)

/-- A service that ends is still being waited for. -/
theorem Watches.ends {w : Watch} (h : Watches s i w) (hrunning : s.life i = .running) (ending : Ending)
    (hlife : s'.life i = .ended ending) : Watches s' i w := by
  cases h with
  | waiting _ => exact .waiting (.inr ⟨ending, hlife⟩)
  | collected _ h | asked _ _ h _ | done _ _ h _ => cases hrunning.symm.trans h

/-- A change of one watcher leaves the other's. -/
theorem Watches.update {w : Watch} (hall : ∀ j, Watches s' j (watch j)) (h : Watches s' i w) (j : Service) :
    Watches s' j (Function.update watch i w j) := by
  rcases eq_or_ne j i with rfl | hne
  · rwa [Function.update_self]
  · rw [Function.update_of_ne hne]
    exact hall j

theorem Inv.first (now : Nat) : Inv (.first now) where
  fits := ⟨rfl, rfl, rfl⟩
  blamed _ _ h := by cases h

/-- Nothing but the clock, the request or the deadline changed. -/
theorem Fits.mono {m : Main} (h : Fits s m) (hlife : s'.life = s.life) (hready : s'.ready = s.ready)
    (hrequest : s.request.isSome = true → s'.request.isSome = true) : Fits s' m := by
  cases m with
  | startingAttester => exact ⟨hlife ▸ h.1, hlife ▸ h.2.1, hready.trans h.2.2⟩
  | startingRelayer =>
    refine ⟨hlife ▸ h.1, ?_⟩
    rw [hready, hlife]
    exact h.2
  | supervising watch => exact ⟨hready.trans h.1, fun i => (h.2 i).mono (congrFun hlife i) hrequest⟩
  | returned result =>
    cases h with
    | attesterDown e ha hr => exact .attesterDown e (hlife ▸ ha) (hlife ▸ hr)
    | relayerDown ending ha hr he => exact .relayerDown ending (hlife ▸ ha) (hready.trans hr) (hlife ▸ he)
    | supervised ending requested hr he hsome =>
      exact .supervised ending requested (hready.trans hr) (fun i => hlife ▸ he i) (hrequest hsome)
  | exited => exact ⟨hlife ▸ h.relayer, fun hrunning => hready.trans (h.attester (hlife ▸ hrunning))⟩

/-- A watcher that has blamed its service keeps its outcome. -/
theorem Blamed.update {j : Service} {w : Watch} (h : Blamed j (.supervising watch))
    (hw : ∀ outcome, watch i ≠ .done outcome) : Blamed j (.supervising (Function.update watch i w)) := by
  obtain ⟨e, he⟩ := h
  have hne : j ≠ i := fun hji => hw (.error e) (hji ▸ he)
  exact ⟨e, by rw [Function.update_of_ne hne, he]⟩

/-- A watched service has left its startup. -/
theorem Watches.busy {w : Watch} (h : Watches s i w) : s.life i = .running ∨ ∃ ending, s.life i = .ended ending := by
  cases h with
  | waiting h => exact h
  | collected ending h | asked _ ending h _ | done _ ending h _ => exact .inr ⟨ending, h⟩

theorem Fits.not_starting (h : Fits s (.supervising watch)) : s.life i ≠ .starting := by
  intro hstarting
  rcases (h.2 i).busy with hrunning | ⟨ending, hended⟩
  · cases hstarting.symm.trans hrunning
  · cases hstarting.symm.trans hended

theorem Inv.signal (h : Inv s) : Inv (s.cancel .signal) where
  fits := by
    rw [cancel_main]
    exact h.fits.mono (cancel_life s _) (cancel_ready s _) fun _ => cancel_request s _
  blamed request i hrequest hcause := by
    rw [cancel_main]
    cases hs : s.request with
    | none =>
      -- The request is this one, and a signal blames no service.
      simp only [State.cancel, hs, Option.some.injEq] at hrequest
      subst hrequest
      cases hcause
    | some old =>
      simp only [State.cancel, hs] at hrequest
      exact h.blamed request i (hs.trans hrequest) hcause

/-- A step of the services or the clock: `run` stands where it stood, and asks for nothing. -/
theorem Inv.within (h : Inv s) (hmain : s'.main = s.main) (hrequest : s'.request = s.request)
    (hfits : Fits s' s.main) : Inv s' where
  fits := hmain ▸ hfits
  blamed request i hr hcause := hmain ▸ h.blamed request i (hrequest ▸ hr) hcause

theorem Inv.relayerUp (h : Inv s) (hstarting : s.life .relayer = .starting) (hpending : s.main.pending = true) :
    Inv { s.setLife .relayer .running with ready := true } := by
  refine h.within rfl rfl ?_
  have hfits := h.fits
  cases hm : s.main with
  | startingAttester =>
    rw [hm] at hfits
    cases hstarting.symm.trans hfits.2.1
  | startingRelayer =>
    rw [hm] at hfits
    simp [Fits, State.setLife, hfits.1]
  | supervising watch =>
    rw [hm] at hfits
    exact absurd hstarting hfits.not_starting
  | returned result | exited =>
    rw [hm] at hpending
    cases hpending

theorem Inv.relayerDown (h : Inv s) (ending : Ending) (hstarting : s.life .relayer = .starting)
    (hpending : s.main.pending = true) : Inv (s.setLife .relayer (.ended ending)) := by
  refine h.within rfl rfl ?_
  have hfits := h.fits
  cases hm : s.main with
  | startingAttester =>
    rw [hm] at hfits
    cases hstarting.symm.trans hfits.2.1
  | startingRelayer =>
    rw [hm] at hfits
    simp [Fits, State.setLife, hfits.1]
  | supervising watch =>
    rw [hm] at hfits
    exact absurd hstarting hfits.not_starting
  | returned result | exited =>
    rw [hm] at hpending
    cases hpending

theorem Inv.ends (h : Inv s) (ending : Ending) (hrunning : s.life i = .running) (hpending : s.main.pending = true) :
    Inv (s.setLife i (.ended ending)) := by
  refine h.within rfl rfl ?_
  have hfits := h.fits
  cases hm : s.main with
  | startingAttester =>
    rw [hm] at hfits
    cases i with
    | attester => cases hrunning.symm.trans hfits.1
    | relayer => cases hrunning.symm.trans hfits.2.1
  | startingRelayer =>
    rw [hm] at hfits
    cases i with
    | attester => cases hrunning.symm.trans hfits.1
    | relayer => simp [Fits, State.setLife, hfits.1]
  | supervising watch =>
    rw [hm] at hfits
    refine ⟨hfits.1, fun j => ?_⟩
    rcases eq_or_ne j i with rfl | hne
    · exact (hfits.2 j).ends hrunning ending (Function.update_self ..)
    · exact (hfits.2 j).mono (Function.update_of_ne hne _ _) id
  | returned result | exited =>
    rw [hm] at hpending
    cases hpending

/-- A watcher that goes on without asking for the shutdown. -/
theorem Inv.watched {w : Watch} (h : Inv s) (hmain : s.main = .supervising watch) (hw : Watches s i w)
    (hopen : ∀ outcome, watch i ≠ .done outcome) : Inv (s.setWatch watch i w) where
  fits := by
    have hfits := h.fits
    rw [hmain] at hfits
    refine ⟨hfits.1, fun j => ?_⟩
    exact (Watches.update hfits.2 hw j).mono rfl id
  blamed request j hrequest hcause := by
    have hblamed := h.blamed request j hrequest hcause
    rw [hmain] at hblamed
    exact hblamed.update hopen

/-- A watcher that asks for the shutdown is done with an error, and is the one to blame. -/
theorem Inv.asks {w : Watch} {e : Error} (h : Inv s) (hmain : s.main = .supervising watch)
    (hw : Watches (s.cancel (.peer i)) i w) (he : w = .done (.error e)) (hopen : ∀ outcome, watch i ≠ .done outcome) :
    Inv ((s.cancel (.peer i)).setWatch watch i w) where
  fits := by
    have hfits := h.fits.mono (cancel_life s (.peer i)) (cancel_ready s (.peer i)) fun _ => cancel_request s (.peer i)
    rw [hmain] at hfits
    refine ⟨hfits.1, fun j => ?_⟩
    exact (Watches.update hfits.2 hw j).mono rfl id
  blamed request j hrequest hcause := by
    have hrequest : (s.cancel (.peer i)).request = some request := hrequest
    cases hs : s.request with
    | none =>
      simp only [State.cancel, hs, Option.some.injEq] at hrequest
      subst hrequest
      cases hcause
      exact ⟨e, by rw [Function.update_self, he]⟩
    | some old =>
      simp only [State.cancel, hs] at hrequest
      have hblamed := h.blamed request j (hs.trans hrequest) hcause
      rw [hmain] at hblamed
      exact hblamed.update hopen

theorem Inv.leave {requested : Bool} {result : Outcome} (h : Inv s) (hmain : s.main = .supervising watch)
    (hwatch : watch i = .asked requested result) :
    Inv ((if requested then s else s.cancel (.peer i)).setWatch watch i (.done (settle i requested result))) := by
  have hfits := h.fits
  rw [hmain] at hfits
  have hopen : ∀ outcome, watch i ≠ .done outcome := fun outcome hdone => by cases hwatch.symm.trans hdone
  have hasked := hwatch ▸ hfits.2 i
  cases hasked with
  | asked _ ending hended hrequested =>
    cases requested with
    | true => exact h.watched hmain (.done true ending hended (hrequested rfl)) hopen
    | false =>
      obtain ⟨e, he⟩ := settle_unrequested i (joined i ending)
      have hdone : Watches (s.cancel (.peer i)) i (.done (settle i false (joined i ending))) :=
        .done false ending ((congrFun (cancel_life s _) i).trans hended) (cancel_request s _)
      exact h.asks hmain hdone (congrArg Watch.done he) hopen

/-- Both watchers are done, and `run` returns what they came to. -/
theorem Inv.finish {attester relayer : Outcome} (h : Inv s) (hmain : s.main = .supervising watch)
    (hattester : watch .attester = .done attester) (hrelayer : watch .relayer = .done relayer) :
    Inv { s with main := .returned (both attester relayer) } where
  fits := by
    have hfits := h.fits
    rw [hmain] at hfits
    have ha := hattester ▸ hfits.2 .attester
    have hr := hrelayer ▸ hfits.2 .relayer
    cases ha with
    | done ra ea hea hrequest =>
      cases hr with
      | done rr er her _ =>
        refine Explains.supervised (fun j => match j with | .attester => ea | .relayer => er)
          (fun j => match j with | .attester => ra | .relayer => rr) hfits.1 (fun j => ?_) hrequest
        cases j with
        | attester => exact hea
        | relayer => exact her
  blamed request i hrequest hcause := by
    have hblamed := h.blamed request i hrequest hcause
    rw [hmain] at hblamed
    obtain ⟨e, he⟩ := hblamed
    refine both_error ?_
    cases i with
    | attester =>
      cases hattester.symm.trans he
      exact .inl ⟨e, rfl⟩
    | relayer =>
      cases hrelayer.symm.trans he
      exact .inr ⟨e, rfl⟩

theorem Fits.ordered {m : Main} (h : Fits s m) : Ordered s := by
  cases m with
  | startingAttester => exact ⟨.inl h.2.1, by simp [h.1]⟩
  | startingRelayer => exact ⟨.inr (by simp [h.1]), by simp [h.1]⟩
  | supervising watch => exact ⟨.inr h.not_starting, fun _ => h.1⟩
  | returned result =>
    cases h with
    | attesterDown e ha hr => exact ⟨.inl hr, by simp [ha]⟩
    | relayerDown ending ha hr he => exact ⟨.inr (by simp [ha]), by simp [ha]⟩
    | supervised ending requested hr he hsome => exact ⟨.inr (by simp [he .attester]), fun _ => hr⟩
  | exited => exact h

/-- A `run` that is starting has no one to blame. -/
theorem Inv.starting (h : Inv s) (hstarting : s.main.inStartup = true) (hrequest : s'.request = s.request)
    (hfits : Fits s' s'.main) : Inv s' where
  fits := hfits
  blamed request i hr hcause := by
    have hblamed := h.blamed request i (hrequest ▸ hr) hcause
    cases hm : s.main with
    | startingAttester | startingRelayer => exact (hm ▸ hblamed).elim
    | supervising watch | returned result | exited =>
      rw [hm] at hstarting
      cases hstarting

theorem Inv.step (h : Inv s) (hstep : Step s s') : Inv s' := by
  have hfits := h.fits
  cases hstep with
  | signal => exact h.signal
  | attesterUp hmain =>
    rw [hmain] at hfits
    exact h.starting (by rw [hmain]; rfl) rfl ⟨rfl, by simp [hfits.2.2]⟩
  | attesterDown e hmain =>
    rw [hmain] at hfits
    refine h.starting (by rw [hmain]; rfl) rfl (Explains.attesterDown e ?_ ?_)
    · simp [State.setLife]
    · simp [State.setLife, hfits.2.1]
  | relayerUp hstarting hpending => exact h.relayerUp hstarting hpending
  | relayerDown ending hstarting hfailed hpending => exact h.relayerDown ending hstarting hpending
  | supervise hmain hready =>
    rw [hmain] at hfits
    refine h.starting (by rw [hmain]; rfl) rfl ⟨hready, fun i => .waiting ?_⟩
    cases i with
    | attester => simp [State.setLife]
    | relayer =>
      have hrelayer := hfits.2
      rw [if_pos hready] at hrelayer
      simpa [State.setLife] using hrelayer
  | unready ending hmain hready hended =>
    rw [hmain] at hfits
    exact h.starting (by rw [hmain]; rfl) rfl (Explains.relayerDown ending hfits.1 hready hended)
  | ends i ending hrunning hpending => exact h.ends ending hrunning hpending
  | collect watch i ending hmain hwatch hended =>
    exact h.watched hmain (.collected ending hended) fun outcome hdone => by cases hwatch.symm.trans hdone
  | ask watch i result hmain hwatch =>
    rw [hmain] at hfits
    have hcollected := hwatch ▸ hfits.2 i
    cases hcollected with
    | collected ending hended =>
      exact h.watched hmain (.asked _ ending hended id) fun outcome hdone => by cases hwatch.symm.trans hdone
  | leave watch i requested result hmain hwatch => exact h.leave hmain hwatch
  | finish watch attester relayer hmain hattester hrelayer => exact h.finish hmain hattester hrelayer
  | arm | tick => exact h.within rfl rfl (hfits.mono rfl rfl id)
  | expire deadline hpending hdeadline hlate =>
    exact ⟨⟨hfits.ordered.relayer, hfits.ordered.attester⟩, fun _ _ _ _ => trivial⟩

theorem Reachable.inv (h : Reachable s) : Inv s := by
  obtain ⟨now, hrun⟩ := h
  induction hrun with
  | refl => exact Inv.first now
  | tail _ hstep ih => exact ih.step hstep

/-- Where a run has got to is what a result of `run` is about. -/
theorem Explains.settled {result : Outcome} (h : Explains s result) (i : Service) :
    s.life i ≠ .starting ∧ s.life i ≠ .running := by
  cases h with
  | attesterDown e ha hr => cases i <;> simp [ha, hr]
  | relayerDown ending ha hr he => cases i <;> simp [ha, he]
  | supervised ending requested hr he hsome => simp [he i]

/-- Every run, also one that ends in `process::exit`: the services come up in order; a watcher is done only once its
service has ended, with what that service came to and with the shutdown requested; and where a service's exit requested
the shutdown, what `run` makes of that service is an error. -/
theorem ordered_supervision (h : Reachable s) :
    Ordered s ∧
      (∀ watch i outcome, s.main = .supervising watch → watch i = .done outcome → s.request.isSome = true ∧
        ∃ ending requested, s.life i = .ended ending ∧ outcome = settle i requested (joined i ending)) ∧
      ∀ request i, s.request = some request → request.cause = .peer i → Blamed i s.main := by
  refine ⟨h.inv.fits.ordered, fun watch i outcome hmain hdone => ?_, h.inv.blamed⟩
  have hfits := h.inv.fits
  rw [hmain] at hfits
  have hwatch := hdone ▸ hfits.2 i
  cases hwatch with
  | done requested ending hended hrequest => exact ⟨hrequest, ending, requested, hended, rfl⟩

/-- The attester panics, and the relayer is asked to stop. -/
theorem ordered_supervision_panicked : ∃ (s : State) (request : Request), s.request = some request ∧
    request.cause = .peer .attester ∧ s.life .relayer = .running ∧ Blamed .attester s.main := by
  have hfirst : Relation.ReflTransGen Step (.first 0) (.first 0) := .refl
  have hrunning := ((hfirst.tail (.attesterUp _ rfl)).tail (.relayerUp _ rfl rfl)).tail (.supervise _ rfl rfl)
  have hended := (hrunning.tail (.ends _ .attester (.panicked "index out of bounds") rfl rfl)).tail
    (.collect _ _ .attester _ rfl rfl rfl)
  have hasked := (hended.tail (.ask _ _ .attester _ rfl rfl)).tail (.leave _ _ .attester _ _ rfl rfl)
  exact ⟨_, _, rfl, rfl, rfl, (ordered_supervision ⟨0, hasked⟩).2.2 _ .attester rfl rfl⟩

/-! ## The deadlines -/

/-- What the clock, the request and the deadline say of each other. -/
structure Paced (s : State) : Prop where
  request : ∀ request, s.request = some request → request.time ≤ s.now
  deadline : ∀ deadline, s.deadline = some deadline →
    ∃ request, s.request = some request ∧ request.time + shutdownTimeout ≤ deadline
  exited : s.main = .exited → ∃ request, s.request = some request ∧ request.time + shutdownTimeout ≤ s.now

theorem cancel_request_of_some {request : Request} (h : s.request = some request) (cause : Cause) :
    s.cancel cause = s := by
  simp [State.cancel, h]

theorem Paced.first (now : Nat) : Paced (.first now) := ⟨nofun, nofun, nofun⟩

theorem Paced.cancel (h : Paced s) (cause : Cause) : Paced (s.cancel cause) := by
  cases hs : s.request with
  | some request => rwa [cancel_request_of_some hs]
  | none =>
    have hnone : s.deadline = none := by
      cases hd : s.deadline with
      | none => rfl
      | some deadline =>
        obtain ⟨request, hrequest, -⟩ := h.deadline deadline hd
        cases hs.symm.trans hrequest
    refine ⟨fun request hrequest => ?_, fun deadline hdeadline => ?_, fun hexited => ?_⟩
    · simp only [State.cancel, hs, Option.some.injEq] at hrequest ⊢
      subst hrequest
      exact Nat.le_refl _
    · simp only [State.cancel, hs, hnone] at hdeadline
      cases hdeadline
    · obtain ⟨request, hrequest, -⟩ := h.exited ((cancel_main s cause).symm.trans hexited)
      cases hs.symm.trans hrequest

/-- A step that reads no clock and asks for nothing. -/
theorem Paced.within (h : Paced s) (hnow : s'.now = s.now) (hrequest : s'.request = s.request)
    (hdeadline : s'.deadline = s.deadline ∨ s'.deadline = none) (hmain : s'.main ≠ .exited) : Paced s' where
  request r hr := hnow ▸ h.request r (hrequest ▸ hr)
  deadline d hd := by
    rcases hdeadline with hsame | hnone
    · rw [hrequest]
      exact h.deadline d (hsame ▸ hd)
    · cases hnone.symm.trans hd
  exited hexited := absurd hexited hmain

theorem ne_exited (h : s.main.pending = true) : s.main ≠ .exited := by
  intro hexited
  rw [hexited] at h
  cases h

theorem Paced.step (h : Paced s) (hstep : Step s s') : Paced s' := by
  cases hstep with
  | signal => exact h.cancel .signal
  | attesterUp | attesterDown | unready | collect | ask | finish => exact h.within rfl rfl (.inl rfl) nofun
  | supervise => exact h.within rfl rfl (.inr rfl) nofun
  | relayerUp _ hpending | relayerDown _ _ _ hpending | ends _ _ _ hpending =>
    exact h.within rfl rfl (.inl rfl) (ne_exited hpending)
  | leave watch i requested result hmain hwatch =>
    cases requested with
    | true => exact h.within rfl rfl (.inl rfl) nofun
    | false => exact (h.cancel (.peer i)).within rfl rfl (.inl rfl) nofun
  | arm hpending hrequest hdeadline =>
    obtain ⟨request, hr⟩ := Option.isSome_iff_exists.mp hrequest
    refine ⟨h.request, fun d hd => ?_, fun hexited => absurd hexited (ne_exited hpending)⟩
    cases hd
    exact ⟨request, hr, Nat.add_le_add_right (h.request request hr) _⟩
  | expire deadline hpending hdeadline hlate =>
    obtain ⟨request, hr, hle⟩ := h.deadline deadline hdeadline
    exact ⟨h.request, h.deadline, fun _ => ⟨request, hr, Nat.le_trans hle hlate⟩⟩
  | tick now hnow =>
    refine ⟨fun request hr => Nat.le_trans (h.request request hr) hnow, h.deadline, fun hexited => ?_⟩
    obtain ⟨request, hr, hle⟩ := h.exited hexited
    exact ⟨request, hr, Nat.le_trans hle hnow⟩

theorem Reachable.paced (h : Reachable s) : Paced s := by
  obtain ⟨now, hrun⟩ := h
  induction hrun with
  | refl => exact Paced.first now
  | tail _ hstep ih => exact ih.step hstep

/-- A step in time: the clock waits for `select!` to see a shutdown, and does not pass the deadline it sets then. -/
def Timely (s s' : State) : Prop :=
  Step s s' ∧ (s.main.pending = true → s.request.isSome = true → s.now < s'.now →
    ∃ deadline, s.deadline = some deadline ∧ s'.now ≤ deadline)

def TimelyReachable (s : State) : Prop := ∃ now, Relation.ReflTransGen Timely (.first now) s

/-- How long a shutdown may take: one limit for the startup, and one of its own for the services. -/
def Request.limit (request : Request) : Nat :=
  if request.inStartup then 2 * shutdownTimeout else shutdownTimeout

/-- By when the current `stop_within` has to give up. -/
def Request.due (request : Request) (main : Main) : Nat :=
  request.time + if main.inStartup then shutdownTimeout else request.limit

/-- Where a request stands: it is seen at once, except that the startup may have used its own limit up. -/
structure Prompt (s : State) : Prop where
  startup : ∀ request, s.request = some request → s.main.inStartup = true → request.inStartup = true
  unseen : s.main.pending = true → s.deadline = none → ∀ request, s.request = some request →
    s.now + shutdownTimeout ≤ request.due s.main
  seen : s.main.pending = true → ∀ deadline, s.deadline = some deadline → ∀ request, s.request = some request →
    s.now ≤ deadline ∧ deadline ≤ request.due s.main

theorem Request.due_le (request : Request) (main : Main) : request.due main ≤ request.time + request.limit := by
  unfold Request.due Request.limit
  split <;> split <;> omega

theorem Prompt.first (now : Nat) : Prompt (.first now) := ⟨nofun, nofun, nofun⟩

/-- The first request: `select!` sees it now, with the whole limit before it. -/
theorem Prompt.cancel (h : Prompt s) (hpaced : Paced s) (cause : Cause) : Prompt (s.cancel cause) := by
  cases hs : s.request with
  | some request => rwa [cancel_request_of_some hs]
  | none =>
    have hnew : (s.cancel cause).request = some ⟨cause, s.now, s.main.inStartup⟩ := by simp [State.cancel, hs]
    have hdue : s.now + shutdownTimeout ≤ Request.due ⟨cause, s.now, s.main.inStartup⟩ s.main := by
      unfold Request.due Request.limit
      cases s.main.inStartup <;> simp
    have hnow : (s.cancel cause).now = s.now := by simp [State.cancel, hs]
    refine ⟨fun request hr hstartup => ?_, fun _ _ request hr => ?_, fun _ deadline hd => ?_⟩
    · cases hnew.symm.trans hr
      rwa [cancel_main] at hstartup
    · cases hnew.symm.trans hr
      rw [cancel_main, hnow]
      exact hdue
    · -- Nobody can have seen a request that is made only now.
      have hold : s.deadline = some deadline := by simpa [State.cancel, hs] using hd
      obtain ⟨request, hr, -⟩ := hpaced.deadline deadline hold
      cases hs.symm.trans hr

/-- A step after which `run` is where it was, or where its requests have the same time left. -/
theorem Prompt.within (h : Prompt s) (hnow : s'.now = s.now) (hrequest : s'.request = s.request)
    (hdeadline : s'.deadline = s.deadline) (hpending : s'.main.pending = true → s.main.pending = true)
    (hstartup : s'.main.inStartup = s.main.inStartup) : Prompt s' where
  startup r hr hs := h.startup r (hrequest ▸ hr) (hstartup ▸ hs)
  unseen hp hd r hr := by
    have hdue : r.due s'.main = r.due s.main := by simp [Request.due, hstartup]
    rw [hnow, hdue]
    exact h.unseen (hpending hp) (hdeadline ▸ hd) r (hrequest ▸ hr)
  seen hp d hd r hr := by
    have hdue : r.due s'.main = r.due s.main := by simp [Request.due, hstartup]
    rw [hnow, hdue]
    exact h.seen (hpending hp) d (hdeadline ▸ hd) r (hrequest ▸ hr)

/-- `run` is over. -/
theorem Prompt.over (h : s.main.pending = false) : Prompt s where
  startup r hr hs := by cases hm : s.main <;> simp_all [Main.pending, Main.inStartup]
  unseen hp := by cases h.symm.trans hp
  seen hp := by cases h.symm.trans hp

/-- The services begin under a `stop_within` of their own: a request from the startup has the limit once more. -/
theorem Prompt.supervise (h : Prompt s) (hmain : s.main = .startingRelayer) (hnow : s'.now = s.now)
    (hrequest : s'.request = s.request) (hdeadline : s'.deadline = none) (hsupervising : s'.main = .supervising watch) :
    Prompt s' where
  startup r hr hs := by
    rw [hsupervising] at hs
    cases hs
  unseen _ _ r hr := by
    have hr := hrequest ▸ hr
    have hpending : s.main.pending = true := by rw [hmain]; rfl
    have hlimit : r.due s'.main = r.due s.main + shutdownTimeout := by
      have hin := h.startup r hr (by rw [hmain]; rfl)
      simp [Request.due, Request.limit, hmain, hsupervising, hin, Main.inStartup]
      omega
    rw [hnow, hlimit]
    cases hd : s.deadline with
    | none =>
      have hunseen := h.unseen hpending hd r hr
      omega
    | some deadline =>
      obtain ⟨hle, hdue⟩ := h.seen hpending deadline hd r hr
      omega
  seen _ d hd := by cases hdeadline.symm.trans hd

theorem Prompt.tick {now : Nat} (h : Prompt s) (hle : s.now ≤ now)
    (htimely : s.main.pending = true → s.request.isSome = true → s.now < now →
      ∃ deadline, s.deadline = some deadline ∧ now ≤ deadline) : Prompt { s with now := now } where
  startup := h.startup
  unseen hp hd r hr := by
    rcases Nat.eq_or_lt_of_le hle with rfl | hlt
    · exact h.unseen hp hd r hr
    · obtain ⟨deadline, hdeadline, -⟩ := htimely hp (Option.isSome_iff_exists.mpr ⟨r, hr⟩) hlt
      cases hd.symm.trans hdeadline
  seen hp d hd r hr := by
    refine ⟨?_, (h.seen hp d hd r hr).2⟩
    rcases Nat.eq_or_lt_of_le hle with rfl | hlt
    · exact (h.seen hp d hd r hr).1
    · obtain ⟨deadline, hdeadline, hnow⟩ := htimely hp (Option.isSome_iff_exists.mpr ⟨r, hr⟩) hlt
      cases hd.symm.trans hdeadline
      exact hnow

theorem Prompt.step (h : Prompt s) (hpaced : Paced s) (hstep : Timely s s') : Prompt s' := by
  obtain ⟨hstep, htimely⟩ := hstep
  cases hstep with
  | signal => exact h.cancel hpaced .signal
  | attesterUp hmain => exact h.within rfl rfl rfl (fun _ => by rw [hmain]; rfl) (by rw [hmain]; rfl)
  | attesterDown | unready | finish | expire => exact .over rfl
  | relayerUp | relayerDown | ends => exact h.within rfl rfl rfl id rfl
  | supervise hmain hready => exact h.supervise hmain rfl rfl rfl rfl
  | collect watch i ending hmain | ask watch i result hmain =>
    exact h.within rfl rfl rfl (fun _ => by rw [hmain]; rfl) (by rw [hmain]; rfl)
  | leave watch i requested result hmain hwatch =>
    have hpending : s.main.pending = true := by rw [hmain]; rfl
    cases requested with
    | true => exact h.within rfl rfl rfl (fun _ => hpending) (by rw [hmain]; rfl)
    | false =>
      have hcancelled := h.cancel hpaced (.peer i)
      refine hcancelled.within rfl rfl rfl (fun _ => ?_) ?_
      · rw [cancel_main]
        exact hpending
      · rw [cancel_main, hmain]
        rfl
  | arm hpending hrequest hdeadline =>
    refine ⟨h.startup, nofun, fun _ deadline hd r hr => ?_⟩
    cases hd
    exact ⟨Nat.le_add_right _ _, h.unseen hpending hdeadline r hr⟩
  | tick now hle => exact h.tick hle htimely

theorem TimelyReachable.reachable (h : TimelyReachable s) : Reachable s := by
  obtain ⟨now, hrun⟩ := h
  exact ⟨now, hrun.lift id fun _ _ hstep => hstep.1⟩

theorem TimelyReachable.prompt (h : TimelyReachable s) : Prompt s := by
  obtain ⟨now, hrun⟩ := h
  induction hrun with
  | refl => exact Prompt.first now
  | tail hrun hstep ih => exact ih.step (TimelyReachable.reachable ⟨now, hrun⟩).paced hstep

/-- A shutdown ends in time, if the clock waits for what is ready: `run` gives up no earlier than `shutdownTimeout`
after the request, and has returned or given up by twice that for a request from the startup, and by that for any
other. -/
theorem shutdown_in_time (h : TimelyReachable s) {request : Request} (hrequest : s.request = some request) :
    (s.main = .exited → request.time + shutdownTimeout ≤ s.now) ∧
      (s.main.pending = true → s.now ≤ request.time + request.limit) := by
  refine ⟨fun hexited => ?_, fun hpending => ?_⟩
  · obtain ⟨request', hrequest', hle⟩ := h.reachable.paced.exited hexited
    cases hrequest.symm.trans hrequest'
    exact hle
  · refine Nat.le_trans ?_ (request.due_le s.main)
    cases hd : s.deadline with
    | none => exact Nat.le_trans (Nat.le_add_right _ _) (h.prompt.unseen hpending hd request hrequest)
    | some deadline =>
      obtain ⟨hle, hdue⟩ := h.prompt.seen hpending deadline hd request hrequest
      exact Nat.le_trans hle hdue

theorem Timely.of_step (hstep : Step s s') (hnow : s'.now = s.now) : Timely s s' :=
  ⟨hstep, fun _ _ hlt => absurd hnow.symm (Nat.ne_of_lt hlt)⟩

/-- The limit of a request from the startup is reached: the startup takes all of its own, and so do the services. -/
theorem shutdown_in_time_startup : ∃ (s : State) (request : Request), TimelyReachable s ∧ s.request = some request ∧
    s.main.pending = true ∧ s.now = 2 * shutdownTimeout ∧ s.now ≤ request.time + request.limit := by
  have hfirst : Relation.ReflTransGen Timely (.first 0) (.first 0) := .refl
  have hasked := (hfirst.tail (.of_step (.signal _ rfl) rfl)).tail (.of_step (.arm _ rfl rfl rfl) rfl)
  have hlate := hasked.tail ⟨.tick _ shutdownTimeout (by decide), fun _ _ _ => ⟨_, rfl, by decide⟩⟩
  have hstarted := ((hlate.tail (.of_step (.attesterUp _ rfl) rfl)).tail (.of_step (.relayerUp _ rfl rfl) rfl)).tail
    (.of_step (.supervise _ rfl rfl) rfl)
  have harmed := hstarted.tail (.of_step (.arm _ rfl rfl rfl) rfl)
  have hend := harmed.tail ⟨.tick _ (2 * shutdownTimeout) (by decide), fun _ _ _ => ⟨_, rfl, by decide⟩⟩
  exact ⟨_, _, ⟨0, hend⟩, rfl, rfl, rfl, (shutdown_in_time ⟨0, hend⟩ rfl).2 rfl⟩

end

end Bridge
