import MidenUsdcx.Attester.Service
import MidenUsdcx.Attester.Admin
import Mathlib.Logic.Relation
import Mathlib.Algebra.GroupWithZero.Nat
/-!
# The attester service while it runs (`service.rs:90-118`, `admin.rs:213-264`, `attester.rs:194-328`)

Three things run beside each other: the loop of cycles, the admin listener and the connections it has accepted. `Step`
is one step of any of them, of the caller, who may cancel the token it gave, or of the clock.

| here | there |
| --- | --- |
| `Main` | `AttesterService::run` and its `select!` |
| `Loop`, `State.pause`, `nextPause` | `Attester::run` |
| `Loop.tested`, `draining`, `receiving`, `Through` | `admin_checkpoint` before a cycle |
| `Loop.sleeping`, `looked`, `waiting` | the `select!` of the pause, at the token, the timer and the inbox |
| `State.inbox`, `State.attached` | the commands queued; `Attester::admin` |
| `Server`, `Connection` | `Server::run` and its `JoinSet` |
| `State.requested`, `State.cancelled` | the caller's token, and the child token of the service |
| `State.stop` | `ServerState::shutdown` |

A biased `select!` reads its branches one after the other (the listener's: the token, the connections, the socket), and
the others go on between these. `State.ended`, `streak`, `cycles` and `handled` are kept for the statements. Times are in
nanoseconds. What a cycle does is `cycle`, what becomes of a command that was taken is in `Admin`. Left out: the removal
of the socket file, whose error is ignored.
-/
namespace LightAttester.Running

def second : Nat := 1000000000

/-- `Duration::MAX`. -/
def durationMax : Nat := (2 ^ 64 - 1) * second + 999999999

/-- `Duration::saturating_mul`. -/
def saturatingMul (duration factor : Nat) : Nat := min (duration * factor) durationMax

/-- `MAX_RATE_LIMITED_PAUSE` (`attester.rs:61`). -/
def MAX_RATE_LIMITED_PAUSE : Nat := 60 * second

/-- `CONNECTION_WAIT` (`admin.rs:37`). -/
def CONNECTION_WAIT : Nat := 70 * second

/-- `CLEANUP_WAIT` (`admin.rs:39`). -/
def CLEANUP_WAIT : Nat := 5 * second

/-- `MAX_CONNECTIONS` (`admin.rs:43`). -/
def MAX_CONNECTIONS : Nat := 16

/-- The pause after an accept that failed (`admin.rs:240`). -/
def ACCEPT_PAUSE : Nat := second

/-- The pause before the next cycle (`attester.rs:300-307`). -/
def nextPause (pollInterval pause : Nat) (rateLimited : Bool) : Nat :=
  if rateLimited then max (min (saturatingMul pause 2) MAX_RATE_LIMITED_PAUSE) pollInterval else pollInterval

/-- `finish_cycle` (`attester.rs:737`): only a diverged chain ends the run. -/
def finishCycle : Except DiscoverError Unit → Except DiscoverError Unit
  | .error .chainDiverged => .error .chainDiverged
  | _ => .ok ()

/-! ## The parties -/

/-- Where `Attester::run` is. -/
inductive Loop where
  /-- At the test of the token. -/
  | head
  /-- The token was read, and is not cancelled. -/
  | tested
  /-- In the checkpoint, past `yield_now`, with this many commands left to take. -/
  | draining (left : Nat)
  /-- At `try_recv`. -/
  | receiving (left : Nat)
  | cycling (since : Nat)
  | sleeping (wakeAt : Nat)
  /-- The token was read, and is not cancelled. -/
  | looked (wakeAt : Nat)
  /-- The timer is not over. -/
  | waiting (wakeAt : Nat)
  | returned (result : Except DiscoverError Unit)

/-- A connection of the `JoinSet`: when it was accepted, when its task ended, and whether its command is in the inbox or
was taken from it. -/
structure Connection where
  accepted : Nat
  ended : Option Nat
  sent : Bool

/-- Where `Server::run` is. -/
inductive Server where
  | absent
  | accepting
  /-- The token was read, and is not cancelled. -/
  | polled
  /-- No connection has ended. -/
  | joined
  | pausing (till : Nat)
  /-- Out of the loop. -/
  | closing
  | cleaning (deadline : Nat)
  /-- `connections.shutdown()`: the tasks are aborted. -/
  | dropping
  | returned

/-- Where `AttesterService::run` is. -/
inductive Main where
  /-- Without an admin listener. -/
  | alone
  | selecting
  | attesterFirst (result : Except DiscoverError Unit)
  | serverFirst
  | returned (result : Except DiscoverError Unit)

structure State where
  pollInterval : Nat
  now : Nat
  requested : Bool
  /-- When the child token was cancelled, by the caller or by the service. -/
  cancelled : Option Nat
  loop : Loop
  pause : Nat
  /-- When the last cycle ended. -/
  ended : Option Nat
  /-- How many cycles in a row met a 429. -/
  streak : Nat
  /-- How many cycles have begun. -/
  cycles : Nat
  /-- How many commands were taken since the token was last tested, those of the cycle's own checkpoints apart. -/
  handled : Nat
  inbox : Nat
  attached : Bool
  server : Server
  connections : List Connection
  listening : Bool
  stop : Option Nat
  main : Main

namespace State

def first (admin : Bool) (pollInterval now : Nat) : State where
  pollInterval := pollInterval
  now := now
  requested := false
  cancelled := none
  loop := .head
  pause := pollInterval
  ended := none
  streak := 0
  cycles := 0
  handled := 0
  inbox := 0
  attached := admin
  server := if admin then .accepting else .absent
  connections := []
  listening := admin
  stop := none
  main := if admin then .selecting else .alone

/-- `shutdown.cancel()` on the child token. -/
def cancel (s : State) : State := { s with cancelled := s.cancelled <|> some s.now }

def beginCycle (s : State) (attached : Bool) : State :=
  { s with loop := .cycling s.now, cycles := s.cycles + 1, attached := attached }

/-- The end of a cycle, up to the sleep (`attester.rs:299-308`). -/
def afterCycle (s : State) (outcome : Except DiscoverError Unit) (rateLimited : Bool) : State :=
  match finishCycle outcome with
  | .error e => { s with loop := .returned (.error e), ended := some s.now }
  | .ok () =>
    let pause := nextPause s.pollInterval s.pause rateLimited
    { s with loop := .sleeping (s.now + pause), pause := pause, ended := some s.now,
             streak := if rateLimited then s.streak + 1 else 0 }

end State

/-- A move of the attester's loop alone. -/
inductive Goes (s : State) : Loop → Prop where
  | enter (h : s.loop = .tested) (hattached : s.attached = true) (hcancelled : s.cancelled = none) :
    Goes s (.draining ADMIN_COMMANDS_PER_CHECKPOINT)
  | ask (left : Nat) (h : s.loop = .draining (left + 1)) (hcancelled : s.cancelled = none) : Goes s (.receiving left)
  | cut (wakeAt : Nat) (h : s.loop = .sleeping wakeAt) (hcancelled : s.cancelled.isSome = true) : Goes s .head
  | look (wakeAt : Nat) (h : s.loop = .sleeping wakeAt) (hcancelled : s.cancelled = none) : Goes s (.looked wakeAt)
  | wake (wakeAt : Nat) (h : s.loop = .looked wakeAt) (hnow : wakeAt ≤ s.now) : Goes s .head
  | early (wakeAt : Nat) (h : s.loop = .looked wakeAt) (hnow : s.now < wakeAt) : Goes s (.waiting wakeAt)
  /-- The inbox gives nothing. -/
  | park (wakeAt : Nat) (h : s.loop = .waiting wakeAt) : Goes s (.sleeping wakeAt)

/-- The checkpoint before a cycle is over, and whether the attester still has its inbox (`attester.rs:195-213`). -/
inductive Through (s : State) : Bool → Prop where
  | skip (h : s.loop = .tested) (hout : s.attached = false ∨ s.cancelled.isSome = true) : Through s s.attached
  | drained (left : Nat) (h : s.loop = .draining left) (hout : left = 0 ∨ s.cancelled.isSome = true) :
    Through s s.attached
  | empty (left : Nat) (h : s.loop = .receiving left) (hinbox : s.inbox = 0) (hserver : s.server ≠ .returned) :
    Through s s.attached
  | disconnected (left : Nat) (h : s.loop = .receiving left) (hinbox : s.inbox = 0) (hserver : s.server = .returned) :
    Through s false

/-- Where a command is taken, where the loop is after it, and `State.handled`. -/
inductive Takes (s : State) : Loop → Nat → Prop where
  | checkpoint (left : Nat) (h : s.loop = .receiving left) : Takes s (.draining left) (s.handled + 1)
  | pause (wakeAt : Nat) (h : s.loop = .waiting wakeAt) : Takes s (.sleeping wakeAt) (s.handled + 1)
  /-- A checkpoint of the cycle. -/
  | cycle (since : Nat) (h : s.loop = .cycling since) : Takes s (.cycling since) s.handled

/-- Outside the checkpoint, the attester finds that the listener is gone. -/
inductive Loses (s : State) : Loop → Prop where
  | pause (wakeAt : Nat) (h : s.loop = .waiting wakeAt) : Loses s (.sleeping wakeAt)
  | cycle (since : Nat) (h : s.loop = .cycling since) : Loses s (.cycling since)

inductive Step : State → State → Prop where
  | request (s : State) : Step s { s.cancel with requested := true }
  | test (s : State) (h : s.loop = .head) (hcancelled : s.cancelled = none) :
    Step s { s with loop := .tested, handled := 0 }
  /-- Closing the inbox drops what is queued. -/
  | stopped (s : State) (h : s.loop = .head) (hcancelled : s.cancelled.isSome = true) :
    Step s { s with loop := .returned (.ok ()), attached := false, inbox := 0 }
  | go (s : State) (loop : Loop) (h : Goes s loop) : Step s { s with loop := loop }
  | begin (s : State) (attached : Bool) (h : Through s attached) : Step s (s.beginCycle attached)
  | endCycle (s : State) (since : Nat) (outcome : Except DiscoverError Unit) (rateLimited : Bool)
    (h : s.loop = .cycling since) : Step s (s.afterCycle outcome rateLimited)
  | take (s : State) (loop : Loop) (handled inbox : Nat) (h : Takes s loop handled) (hattached : s.attached = true)
    (hinbox : s.inbox = inbox + 1) : Step s { s with loop := loop, handled := handled, inbox := inbox }
  /-- The listener has stopped; the attester carries on without it. -/
  | lose (s : State) (loop : Loop) (h : Loses s loop) (hattached : s.attached = true) (hinbox : s.inbox = 0)
    (hserver : s.server = .returned) : Step s { s with loop := loop, attached := false }
  | leave (s : State) (h : s.server = .accepting) (hcancelled : s.cancelled.isSome = true) :
    Step s { s with server := .closing }
  | poll (s : State) (h : s.server = .accepting) (hcancelled : s.cancelled = none) : Step s { s with server := .polled }
  | reap (s : State) (before after : List Connection) (c : Connection) (h : s.server = .polled)
    (hconnections : s.connections = before ++ c :: after) (hended : c.ended.isSome = true) :
    Step s { s with connections := before ++ after, server := .accepting }
  | unready (s : State) (h : s.server = .polled) (hopen : ∀ c ∈ s.connections, c.ended = none) :
    Step s { s with server := .joined }
  | accept (s : State) (h : s.server = .joined) (hslots : s.connections.length < MAX_CONNECTIONS) :
    Step s { s with connections := s.connections ++ [⟨s.now, none, false⟩], server := .accepting }
  | acceptFailed (s : State) (h : s.server = .joined) (hslots : s.connections.length < MAX_CONNECTIONS) :
    Step s { s with server := .pausing (s.now + ACCEPT_PAUSE) }
  /-- Nothing is ready. -/
  | wait (s : State) (h : s.server = .joined) : Step s { s with server := .accepting }
  | resume (s : State) (till : Nat) (h : s.server = .pausing till) (hnow : till ≤ s.now) :
    Step s { s with server := .accepting }
  | leavePause (s : State) (till : Nat) (h : s.server = .pausing till) (hcancelled : s.cancelled.isSome = true) :
    Step s { s with server := .closing }
  | close (s : State) (h : s.server = .closing) :
    Step s { s with listening := false, stop := some s.now, server := .cleaning (s.now + CLEANUP_WAIT) }
  | collect (s : State) (deadline : Nat) (before after : List Connection) (c : Connection)
    (h : s.server = .cleaning deadline) (hconnections : s.connections = before ++ c :: after)
    (hended : c.ended.isSome = true) : Step s { s with connections := before ++ after }
  | cleaned (s : State) (deadline : Nat) (h : s.server = .cleaning deadline) (hconnections : s.connections = []) :
    Step s { s with server := .dropping }
  | giveUp (s : State) (deadline : Nat) (h : s.server = .cleaning deadline) (hnow : deadline ≤ s.now) :
    Step s { s with server := .dropping }
  | dropped (s : State) (h : s.server = .dropping) (hended : ∀ c ∈ s.connections, c.ended.isSome = true) :
    Step s { s with connections := [], server := .returned }
  /-- `try_send` (`admin.rs:441`), behind a test of `stop` that may be out of date. A full or closed inbox only changes
  the reply. -/
  | enqueue (s : State) (before after : List Connection) (c : Connection)
    (hconnections : s.connections = before ++ c :: after) (hopen : c.ended = none) (hsent : c.sent = false)
    (hattached : s.attached = true) (hroom : s.inbox < Admin.INBOX) :
    Step s { s with connections := before ++ { c with sent := true } :: after, inbox := s.inbox + 1 }
  /-- A connection's task is over: it has replied, or its time is up, or it was aborted. -/
  | ends (s : State) (before after : List Connection) (c : Connection)
    (hconnections : s.connections = before ++ c :: after) (hopen : c.ended = none) :
    Step s { s with connections := before ++ { c with ended := some s.now } :: after }
  | attesterFirst (s : State) (result : Except DiscoverError Unit) (h : s.main = .selecting)
    (hloop : s.loop = .returned result) : Step s { s.cancel with main := .attesterFirst result }
  | serverFirst (s : State) (h : s.main = .selecting) (hserver : s.server = .returned) :
    Step s { s.cancel with main := .serverFirst }
  /-- `result.and(cleanup)`. The listener returns no error. -/
  | joinServer (s : State) (result : Except DiscoverError Unit) (h : s.main = .attesterFirst result)
    (hserver : s.server = .returned) : Step s { s with main := .returned result }
  | joinAttester (s : State) (result : Except DiscoverError Unit) (h : s.main = .serverFirst)
    (hloop : s.loop = .returned result) : Step s { s with main := .returned result }
  | alone (s : State) (result : Except DiscoverError Unit) (h : s.main = .alone) (hloop : s.loop = .returned result) :
    Step s { s with main := .returned result }
  | tick (s : State) (now : Nat) (h : s.now ≤ now) : Step s { s with now := now }

/-- The states of every run. -/
def Reachable (s : State) : Prop :=
  ∃ admin pollInterval now, Relation.ReflTransGen Step (.first admin pollInterval now) s

/-! ## What holds in every state -/

/-- What the listener has done by the time it is there. -/
def Fits (s : State) : Server → Prop
  | .absent => s.connections = [] ∧ s.listening = false
  | .accepting | .polled | .joined | .pausing _ => s.listening = true
  | .closing => s.cancelled.isSome = true
  | .cleaning deadline =>
    s.listening = false ∧ s.cancelled.isSome = true ∧ ∃ stop, s.stop = some stop ∧ deadline = stop + CLEANUP_WAIT
  | .dropping => s.listening = false ∧ s.cancelled.isSome = true ∧
      (s.connections = [] ∨ ∃ stop, s.stop = some stop ∧ stop + CLEANUP_WAIT ≤ s.now)
  | .returned => s.connections = [] ∧ s.listening = false ∧ s.cancelled.isSome = true

/-- What the service has seen of its two parts. -/
def Saw (s : State) : Main → Prop
  | .alone => s.server = .absent
  | .selecting => s.server ≠ .absent
  | .attesterFirst result => s.server ≠ .absent ∧ s.loop = .returned result
  | .serverFirst => s.server = .returned
  | .returned result => s.loop = .returned result ∧ (s.server = .absent ∨ s.server = .returned)

structure Inv (s : State) : Prop where
  slots : s.connections.length ≤ MAX_CONNECTIONS
  fits : Fits s s.server
  saw : Saw s s.main
  /-- The service cancels its token on its own only after the attester has failed. -/
  cause : s.cancelled.isSome = true → s.requested = true ∨ s.loop = .returned (.error .chainDiverged)
  result : ∀ result, s.loop = .returned result →
    result = .ok () ∧ s.requested = true ∨ result = .error .chainDiverged

section
variable {s s' : State}

theorem finishCycle_error {outcome : Except DiscoverError Unit} {e : DiscoverError}
    (h : finishCycle outcome = .error e) : e = .chainDiverged := by
  unfold finishCycle at h
  split at h <;> simp_all

@[simp] theorem cancel_isSome (s : State) : s.cancel.cancelled.isSome = true := by
  cases h : s.cancelled <;> simp [State.cancel, h]

/-- The connections the listener holds are touched by nothing that leaves them, the listener and the clock. -/
theorem Fits.mono {place : Server} (h : Fits s place) (hconnections : s'.connections = s.connections)
    (hlistening : s'.listening = s.listening) (hstop : s'.stop = s.stop) (hnow : s.now ≤ s'.now)
    (hcancelled : s.cancelled.isSome = true → s'.cancelled.isSome = true) : Fits s' place := by
  cases place with
  | absent => exact ⟨hconnections.trans h.1, hlistening.trans h.2⟩
  | accepting | polled | joined | pausing till => exact hlistening.trans h
  | closing => exact hcancelled h
  | cleaning deadline => exact ⟨hlistening.trans h.1, hcancelled h.2.1, by rw [hstop]; exact h.2.2⟩
  | dropping =>
    obtain ⟨hl, hc, hempty | ⟨stop, hs, hle⟩⟩ := h
    · exact ⟨hlistening.trans hl, hcancelled hc, .inl (hconnections.trans hempty)⟩
    · exact ⟨hlistening.trans hl, hcancelled hc, .inr ⟨stop, hstop.trans hs, by omega⟩⟩
  | returned => exact ⟨hconnections.trans h.1, hlistening.trans h.2.1, hcancelled h.2.2⟩

/-- A listener that has left its loop was asked to. -/
theorem Fits.cancelled (h : Fits s .returned) : s.cancelled.isSome = true := h.2.2

theorem Inv.first (admin : Bool) (pollInterval now : Nat) : Inv (.first admin pollInterval now) := by
  cases admin <;> exact ⟨by simp [State.first], by simp [State.first, Fits], by simp [State.first, Saw],
    by simp [State.first], by simp [State.first]⟩

/-- A step of the attester's loop. -/
theorem Inv.loops (h : Inv s) (loop : Loop) (hrunning : ∀ result, s.loop ≠ .returned result)
    (hloop : s'.loop = loop) (hrest : s'.connections = s.connections ∧ s'.listening = s.listening ∧
      s'.stop = s.stop ∧ s'.now = s.now ∧ s'.cancelled = s.cancelled ∧ s'.server = s.server ∧ s'.main = s.main ∧
      s'.requested = s.requested)
    (hresult : ∀ result, loop = .returned result →
      result = .ok () ∧ s.requested = true ∨ result = .error .chainDiverged) : Inv s' := by
  obtain ⟨hconnections, hlistening, hstop, hnow, hcancelled, hserver, hmain, hrequested⟩ := hrest
  have hsaw := h.saw
  refine ⟨hconnections ▸ h.slots, hserver ▸ h.fits.mono hconnections hlistening hstop (by omega) (by simp [hcancelled]),
    ?_, fun hsome => ?_, fun result hr => hrequested ▸ hresult result (hloop ▸ hr)⟩
  · rw [hmain]
    cases hm : s.main with
    | alone | selecting | serverFirst => simpa [hm, Saw, hserver] using hsaw
    | attesterFirst result | returned result =>
      simp only [hm, Saw] at hsaw
      simp_all
  · rcases h.cause (hcancelled ▸ hsome) with hreq | hdown
    · exact .inl (hrequested.trans hreq)
    · exact absurd hdown (hrunning _)

theorem Goes.running {loop : Loop} (h : Goes s loop) (result : Except DiscoverError Unit) :
    s.loop ≠ .returned result ∧ loop ≠ .returned result := by
  cases h <;> simp [*]

theorem Through.running {attached : Bool} (h : Through s attached) (result : Except DiscoverError Unit) :
    s.loop ≠ .returned result := by
  cases h <;> simp [*]

theorem Takes.running {loop : Loop} {handled : Nat} (h : Takes s loop handled) (result : Except DiscoverError Unit) :
    s.loop ≠ .returned result ∧ loop ≠ .returned result := by
  cases h <;> simp [*]

theorem Loses.running {loop : Loop} (h : Loses s loop) (result : Except DiscoverError Unit) :
    s.loop ≠ .returned result ∧ loop ≠ .returned result := by
  cases h <;> simp [*]

/-- The loop goes on. -/
theorem Inv.moves (h : Inv s) (hrunning : ∀ result, s.loop ≠ .returned result ∧ s'.loop ≠ .returned result)
    (hrest : s'.connections = s.connections ∧ s'.listening = s.listening ∧ s'.stop = s.stop ∧ s'.now = s.now ∧
      s'.cancelled = s.cancelled ∧ s'.server = s.server ∧ s'.main = s.main ∧ s'.requested = s.requested) : Inv s' :=
  h.loops s'.loop (fun result => (hrunning result).1) rfl hrest fun result hr => absurd hr (hrunning result).2

/-- A step of the listener. -/
theorem Inv.serves (h : Inv s) (hserver : s.server ≠ .absent ∧ s.server ≠ .returned) (hplace : s'.server ≠ .absent)
    (hrest : s'.loop = s.loop ∧ s'.cancelled = s.cancelled ∧ s'.main = s.main ∧ s'.requested = s.requested)
    (hslots : s'.connections.length ≤ MAX_CONNECTIONS) (hfits : Fits s' s'.server) : Inv s' := by
  obtain ⟨hloop, hcancelled, hmain, hrequested⟩ := hrest
  have hsaw := h.saw
  refine ⟨hslots, hfits, ?_, ?_, ?_⟩
  · rw [hmain]
    cases hm : s.main <;> simp_all [Saw]
  · rw [hcancelled, hrequested, hloop]
    exact h.cause
  · rw [hloop, hrequested]
    exact h.result

theorem Inv.endCycle (h : Inv s) {since : Nat} (hloop : s.loop = .cycling since) (outcome : Except DiscoverError Unit)
    (rateLimited : Bool) : Inv (s.afterCycle outcome rateLimited) := by
  have hrunning : ∀ result, s.loop ≠ .returned result := by simp [hloop]
  unfold State.afterCycle
  cases hf : finishCycle outcome with
  | error e =>
    refine h.loops (.returned (.error e)) hrunning rfl (by simp) fun result hr => .inr ?_
    cases hr
    exact congrArg Except.error (finishCycle_error hf)
  | ok => exact h.loops _ hrunning rfl (by simp) (by simp)

/-- The token is cancelled, for the caller or for the part that has ended. -/
theorem Inv.cancels (h : Inv s) (hrest : s'.connections = s.connections ∧ s'.listening = s.listening ∧
      s'.stop = s.stop ∧ s'.now = s.now ∧ s'.server = s.server ∧ s'.loop = s.loop)
    (hcancelled : s'.cancelled.isSome = true) (hrequested : s.requested = true → s'.requested = true)
    (hsaw : Saw s' s'.main)
    (hcause : s'.requested = true ∨ s'.loop = .returned (.error .chainDiverged)) : Inv s' := by
  obtain ⟨hconnections, hlistening, hstop, hnow, hserver, hloop⟩ := hrest
  refine ⟨hconnections ▸ h.slots, hserver ▸ h.fits.mono hconnections hlistening hstop (by omega) fun _ => hcancelled,
    hsaw, fun _ => hcause, fun result hr => ?_⟩
  rcases h.result result (hloop ▸ hr) with ⟨hok, hreq⟩ | herror
  · exact .inl ⟨hok, hrequested hreq⟩
  · exact .inr herror

theorem Inv.step (h : Inv s) (hstep : Step s s') : Inv s' := by
  have hfits := h.fits
  have hsaw := h.saw
  have hslots := h.slots
  cases hstep with
  | request =>
    refine h.cancels (by simp [State.cancel]) (cancel_isSome s) (fun _ => rfl) ?_ (.inl rfl)
    cases hm : s.main <;> simp_all [Saw, State.cancel]
  | test hloop => exact h.moves (by simp [hloop]) (by simp)
  | go loop hgoes => exact h.moves hgoes.running (by simp)
  | begin attached hthrough =>
    exact h.moves (fun result => ⟨hthrough.running result, nofun⟩) (by simp [State.beginCycle])
  | take loop handled inbox htakes => exact h.moves htakes.running (by simp)
  | lose loop hloses => exact h.moves hloses.running (by simp)
  | stopped hloop hcancelled =>
    refine h.loops (.returned (.ok ())) (by simp [hloop]) rfl (by simp) fun result hr => .inl ?_
    cases hr
    rcases h.cause hcancelled with hreq | hdown
    · exact ⟨rfl, hreq⟩
    · simp [hloop] at hdown
  | endCycle since outcome rateLimited hloop => exact h.endCycle hloop outcome rateLimited
  | leave hserver hcancelled | leavePause till hserver hcancelled =>
    exact h.serves (by simp [hserver]) (by simp) (by simp) hslots hcancelled
  | poll hserver | unready hserver | acceptFailed hserver | wait hserver | resume till hserver =>
    rw [hserver] at hfits
    exact h.serves (by simp [hserver]) (by simp) (by simp) hslots hfits
  | reap before after c hserver hconnections hended =>
    rw [hserver] at hfits
    rw [hconnections] at hslots
    exact h.serves (by simp [hserver]) (by simp) (by simp) (by simp at hslots ⊢; omega) hfits
  | accept hserver hroom =>
    rw [hserver] at hfits
    exact h.serves (by simp [hserver]) (by simp) (by simp) (by simp; omega) hfits
  | close hserver =>
    rw [hserver] at hfits
    exact h.serves (by simp [hserver]) (by simp) (by simp) hslots ⟨rfl, hfits, s.now, rfl, rfl⟩
  | collect deadline before after c hserver hconnections hended =>
    rw [hserver] at hfits
    rw [hconnections] at hslots
    refine h.serves (by simp [hserver]) (by simp [hserver]) (by simp) (by simp at hslots ⊢; omega) ?_
    show Fits _ s.server
    rw [hserver]
    exact hfits
  | cleaned deadline hserver hconnections =>
    rw [hserver] at hfits
    exact h.serves (by simp [hserver]) (by simp) (by simp) hslots ⟨hfits.1, hfits.2.1, .inl hconnections⟩
  | giveUp deadline hserver hlate =>
    rw [hserver] at hfits
    obtain ⟨hlistening, hcancelled, stop, hstop, rfl⟩ := hfits
    exact h.serves (by simp [hserver]) (by simp) (by simp) hslots ⟨hlistening, hcancelled, .inr ⟨stop, hstop, hlate⟩⟩
  | dropped hserver hended =>
    rw [hserver] at hfits
    exact h.serves (by simp [hserver]) (by simp) (by simp) (by simp) ⟨rfl, hfits.1, hfits.2.1⟩
  | ends before after c hconnections | enqueue before after c hconnections =>
    rw [hconnections] at hslots
    have hplace : s.server ≠ .absent ∧ s.server ≠ .returned := by
      constructor <;> intro hserver <;> rw [hserver] at hfits <;> simp [Fits, hconnections] at hfits
    refine h.serves hplace hplace.1 (by simp) (by simpa using hslots) ?_
    cases hs : s.server <;> simp_all [Fits]
  | attesterFirst result hmain hloop =>
    simp only [hmain, Saw] at hsaw
    refine h.cancels (by simp [State.cancel]) (cancel_isSome s) id ⟨hsaw, hloop⟩ ?_
    rcases h.result result hloop with ⟨-, hreq⟩ | rfl
    · exact .inl hreq
    · exact .inr hloop
  | serverFirst hmain hserver =>
    rw [hserver] at hfits
    exact h.cancels (by simp [State.cancel]) (cancel_isSome s) id hserver (h.cause hfits.cancelled)
  | joinServer result hmain hserver =>
    simp only [hmain, Saw] at hsaw
    exact ⟨hslots, hfits, ⟨hsaw.2, .inr hserver⟩, h.cause, h.result⟩
  | joinAttester result hmain hloop =>
    simp only [hmain, Saw] at hsaw
    exact ⟨hslots, hfits, ⟨hloop, .inr hsaw⟩, h.cause, h.result⟩
  | alone result hmain hloop =>
    simp only [hmain, Saw] at hsaw
    exact ⟨hslots, hfits, ⟨hloop, .inl hsaw⟩, h.cause, h.result⟩
  | tick now hle =>
    refine ⟨hslots, hfits.mono rfl rfl rfl hle id, ?_, h.cause, h.result⟩
    cases hm : s.main <;> simp_all [Saw]

theorem Reachable.inv (h : Reachable s) : Inv s := by
  obtain ⟨admin, pollInterval, now, hrun⟩ := h
  induction hrun with
  | refl => exact Inv.first admin pollInterval now
  | tail _ hstep ih => exact ih.step hstep

/-! ## Every run -/

/-- However the caller, the attester, the listener and the operators' connections interleave: at most
`MAX_CONNECTIONS` are served at once; a connection is aborted only after `CLEANUP_WAIT` to finish in; and where the
service has returned, nothing of it is left, neither the listener nor a connection, and its result is what the
attester came to, which is success only after the caller's own request and else a diverged chain. -/
theorem service_returns (h : Reachable s) :
    s.connections.length ≤ MAX_CONNECTIONS ∧
      (s.server = .dropping → s.connections ≠ [] → ∃ stop, s.stop = some stop ∧ stop + CLEANUP_WAIT ≤ s.now) ∧
      ∀ result, s.main = .returned result → s.loop = .returned result ∧
        (result = .ok () ∧ s.requested = true ∨ result = .error .chainDiverged) ∧
        (s.server = .absent ∨ s.server = .returned) ∧ s.connections = [] ∧ s.listening = false := by
  have hfits := h.inv.fits
  have hsaw := h.inv.saw
  refine ⟨h.inv.slots, fun hserver hne => ?_, fun result hmain => ?_⟩
  · rw [hserver] at hfits
    exact hfits.2.2.resolve_left hne
  · rw [hmain] at hsaw
    obtain ⟨hloop, hserver⟩ := hsaw
    refine ⟨hloop, h.inv.result result hloop, hserver, ?_⟩
    rcases hserver with hserver | hserver
    · rw [hserver] at hfits
      exact hfits
    · rw [hserver] at hfits
      exact ⟨hfits.1, hfits.2.1⟩

/-- A checkpoint that finds no command, and the cycle after it. -/
theorem cycle_begins {R : State → State → Prop} (hstep : ∀ {s s'}, Step s s' → s'.now = s.now → R s s')
    (hloop : s.loop = .head) (hcancelled : s.cancelled = none) (hattached : s.attached = true) (hinbox : s.inbox = 0)
    (hserver : s.server ≠ .returned) :
    Relation.ReflTransGen R s { s with loop := .cycling s.now, cycles := s.cycles + 1, handled := 0 } := by
  have htested := Relation.ReflTransGen.single (hstep (.test s hloop hcancelled) rfl)
  have hentered := htested.tail (hstep (.go _ _ (.enter rfl hattached hcancelled)) rfl)
  have hasked := hentered.tail (hstep (.go _ _ (.ask 7 rfl hcancelled)) rfl)
  exact hasked.tail (hstep (.begin _ _ (.empty 7 rfl hinbox hserver)) rfl)

/-- The caller stops the service, and an operator's connection that does not end is aborted. -/
theorem service_returns_stopped : ∃ s : State, s.main = .returned (.ok ()) ∧ s.requested = true ∧
    s.connections = [] ∧ s.listening = false := by
  have hbegun : Relation.ReflTransGen Step (.first true second 0) _ :=
    cycle_begins (fun hstep _ => hstep) rfl rfl rfl rfl nofun
  have hopen := ((hbegun.tail (.poll _ rfl rfl)).tail (.unready _ rfl (by simp [State.first]))).tail
    (.accept _ rfl (by decide))
  have hasked := (((hopen.tail (.request _)).tail (.endCycle _ 0 (.ok ()) false rfl)).tail
    (.go _ _ (.cut _ rfl rfl))).tail (.stopped _ rfl rfl)
  have hclean := (((hasked.tail (.leave _ rfl rfl)).tail (.close _ rfl)).tail (.attesterFirst _ _ rfl rfl)).tail
    (.tick _ CLEANUP_WAIT (by decide))
  have hdropped := (((hclean.tail (.giveUp _ _ rfl (by decide))).tail (.ends _ [] [] _ rfl rfl)).tail
    (.dropped _ rfl (by simp))).tail (.joinServer _ _ rfl rfl)
  obtain ⟨-, -, hreturned⟩ := service_returns ⟨true, second, 0, hdropped⟩
  obtain ⟨-, hresult, -, hconnections, hlistening⟩ := hreturned _ rfl
  exact ⟨_, rfl, rfl, hconnections, hlistening⟩

/-! ## The clock -/

/-- When the clock may move on to `now`: what is ready is taken first, and no timer is passed. -/
structure Idle (s : State) (now : Nat) : Prop where
  connections : ∀ c ∈ s.connections, c.ended = none → now ≤ c.accepted + CONNECTION_WAIT
  server : match s.server with
    | .accepting => s.cancelled = none ∧ ∀ c ∈ s.connections, c.ended = none
    | .pausing till => s.cancelled = none ∧ now ≤ till
    | .cleaning deadline => now ≤ deadline
    | .absent | .returned => True
    | .polled | .joined | .closing | .dropping => False
  loop : match s.loop with
    | .sleeping wakeAt =>
      s.cancelled = none ∧ now ≤ wakeAt ∧ (s.attached = true → s.inbox = 0 ∧ s.server ≠ .returned)
    | .cycling _ | .returned _ => True
    | .head | .tested | .draining _ | .receiving _ | .looked _ | .waiting _ => False
  main : match s.main with
    | .alone => ∀ result, s.loop ≠ .returned result
    | .selecting => (∀ result, s.loop ≠ .returned result) ∧ s.server ≠ .returned
    | .attesterFirst _ => s.server ≠ .returned
    | .serverFirst => ∀ result, s.loop ≠ .returned result
    | .returned _ => True

/-- A step in time. A cycle may take as long as it likes. -/
def Timely (s s' : State) : Prop := Step s s' ∧ (s.now < s'.now → Idle s s'.now)

def TimelyReachable (s : State) : Prop :=
  ∃ admin pollInterval now, Relation.ReflTransGen Timely (.first admin pollInterval now) s

def Main.pending : Main → Bool
  | .returned _ => false
  | _ => true

/-- How far the clock may be, at each place of the listener. -/
def Prompt (s : State) : Server → Prop
  | .absent | .returned => True
  | .accepting | .polled =>
    (∀ t, s.cancelled = some t → s.now ≤ t) ∧ ∀ c ∈ s.connections, ∀ e, c.ended = some e → s.now ≤ e + ACCEPT_PAUSE
  | .joined => (∀ t, s.cancelled = some t → s.now ≤ t) ∧ ∀ c ∈ s.connections, ∀ e, c.ended = some e → s.now ≤ e
  | .pausing till => s.now ≤ till ∧ till ≤ s.now + ACCEPT_PAUSE ∧ (∀ t, s.cancelled = some t → s.now ≤ t) ∧
      ∀ c ∈ s.connections, ∀ e, c.ended = some e → till ≤ e + ACCEPT_PAUSE
  | .closing => ∀ t, s.cancelled = some t → s.now ≤ t
  | .cleaning deadline => s.now ≤ deadline ∧ deadline ≤ s.now + CLEANUP_WAIT ∧
      ∀ t, s.cancelled = some t → deadline ≤ t + CLEANUP_WAIT
  | .dropping => ∀ t, s.cancelled = some t → s.now ≤ t + CLEANUP_WAIT

structure InTime (s : State) : Prop where
  connections : ∀ c ∈ s.connections, c.ended.getD s.now ≤ c.accepted + CONNECTION_WAIT
  server : Prompt s s.server
  /-- What the service may still be waiting for once its token is cancelled. -/
  main : s.main.pending = true → ∀ t, s.cancelled = some t →
    s.now ≤ t + CLEANUP_WAIT ∨ (∃ since, s.loop = .cycling since) ∨ s.ended = some s.now

/-- A token that is already cancelled keeps its time. -/
theorem cancel_cancelled {t : Nat} (h : s.cancel.cancelled = some t) : s.cancelled = some t ∨ s.now ≤ t := by
  cases hs : s.cancelled <;> simp_all [State.cancel]

/-- The listener stands where it stood: a connection may have ended now, and the token been cancelled now. -/
theorem Prompt.mono {place : Server} (h : Prompt s place) (hnow : s'.now = s.now)
    (hconnections : ∀ c ∈ s'.connections, ∀ e, c.ended = some e → c ∈ s.connections ∨ s.now ≤ e)
    (hcancelled : ∀ t, s'.cancelled = some t → s.cancelled = some t ∨ s.now ≤ t) : Prompt s' place := by
  have hprompt : (∀ t, s.cancelled = some t → s.now ≤ t) → ∀ t, s'.cancelled = some t → s'.now ≤ t := by
    intro hold t ht
    rcases hcancelled t ht with hc | hle
    · exact hnow ▸ hold t hc
    · exact hnow ▸ hle
  cases place with
  | absent | returned => trivial
  | accepting | polled =>
    refine ⟨hprompt h.1, fun c hc e he => ?_⟩
    rcases hconnections c hc e he with hold | hle
    · exact hnow ▸ h.2 c hold e he
    · omega
  | joined =>
    refine ⟨hprompt h.1, fun c hc e he => ?_⟩
    rcases hconnections c hc e he with hold | hle
    · exact hnow ▸ h.2 c hold e he
    · omega
  | pausing till =>
    obtain ⟨htill, hshort, hc, hended⟩ := h
    refine ⟨by omega, by omega, hprompt hc, fun c hc e he => ?_⟩
    rcases hconnections c hc e he with hold | hle
    · exact hended c hold e he
    · omega
  | closing => exact hprompt h
  | cleaning deadline =>
    obtain ⟨hdeadline, hshort, hold⟩ := h
    refine ⟨by omega, by omega, fun t ht => ?_⟩
    rcases hcancelled t ht with hc | hle
    · exact hold t hc
    · omega
  | dropping =>
    intro t ht
    rcases hcancelled t ht with hc | hle
    · exact hnow ▸ h t hc
    · omega

/-- A step of the listener takes no time. -/
theorem InTime.serves (h : InTime s) (hrest : s'.now = s.now ∧ s'.cancelled = s.cancelled ∧ s'.loop = s.loop ∧
    s'.ended = s.ended ∧ s'.main = s.main)
    (hconnections : ∀ c ∈ s'.connections, c.ended.getD s.now ≤ c.accepted + CONNECTION_WAIT)
    (hserver : Prompt s' s'.server) : InTime s' := by
  obtain ⟨hnow, hcancelled, hloop, hended, hmain⟩ := hrest
  refine ⟨hnow ▸ hconnections, hserver, ?_⟩
  rw [hmain, hcancelled, hloop, hended, hnow]
  exact h.main

/-- Nor does a step of the attester or of the service. -/
theorem InTime.goes (h : InTime s) (hrest : s'.now = s.now ∧ s'.connections = s.connections ∧ s'.server = s.server)
    (hcancelled : ∀ t, s'.cancelled = some t → s.cancelled = some t ∨ s.now ≤ t)
    (hpending : s'.main.pending = true → s.main.pending = true)
    (hloop : (∀ since, s.loop ≠ .cycling since) ∧ s'.ended = s.ended ∨ s'.loop = s.loop ∧ s'.ended = s.ended ∨
      s'.ended = some s.now) : InTime s' := by
  obtain ⟨hnow, hconnections, hserver⟩ := hrest
  refine ⟨by rw [hconnections, hnow]; exact h.connections, ?_, fun hp t ht => ?_⟩
  · rw [hserver]
    exact h.server.mono hnow (fun c hc _ _ => .inl (hconnections ▸ hc)) hcancelled
  · rw [hnow]
    rcases hloop with ⟨hcycling, hended⟩ | ⟨hloop, hended⟩ | hended
    · rcases hcancelled t ht with hc | hle
      · rcases h.main (hpending hp) t hc with hle | ⟨since, hs⟩ | he
        · exact .inl hle
        · exact absurd hs (hcycling since)
        · exact .inr (.inr (hended.trans he))
      · exact .inl (by omega)
    · rw [hloop, hended]
      rcases hcancelled t ht with hc | hle
      · exact h.main (hpending hp) t hc
      · exact .inl (by omega)
    · exact .inr (.inr hended)

theorem mem_reaped {before after : List Connection} {c d : Connection} (hsplit : s.connections = before ++ c :: after)
    (hd : d ∈ before ++ after) : d ∈ s.connections := by
  rw [hsplit]
  rcases List.mem_append.mp hd with hbefore | hafter
  · exact List.mem_append_left _ hbefore
  · exact List.mem_append_right _ (List.mem_cons_of_mem _ hafter)

theorem mem_replaced {before after : List Connection} {c c' d : Connection}
    (hsplit : s.connections = before ++ c :: after) (hd : d ∈ before ++ c' :: after) : d ∈ s.connections ∨ d = c' := by
  rcases List.mem_append.mp hd with hbefore | hd
  · exact .inl (mem_reaped hsplit (List.mem_append_left _ hbefore))
  · rcases List.mem_cons.mp hd with rfl | hafter
    · exact .inr rfl
    · exact .inl (mem_reaped hsplit (List.mem_append_right _ hafter))

/-- The clock moves on, in a service whose token is cancelled: a cycle is under way, or the listener is cleaning up. -/
theorem Idle.waits {now t : Nat} (h : Idle s now) (hinv : Inv s) (hpending : s.main.pending = true)
    (hcancelled : s.cancelled = some t) :
    (∃ since, s.loop = .cycling since) ∨ ∃ deadline, s.server = .cleaning deadline ∧ now ≤ deadline := by
  have hserver := h.server
  have hloop := h.loop
  have hmain := h.main
  have hsaw := hinv.saw
  cases hl : s.loop with
  | head | tested | draining | receiving | looked | waiting => simp [hl] at hloop
  | cycling since => exact .inl ⟨since, rfl⟩
  | sleeping wakeAt => simp [hl, hcancelled] at hloop
  | returned result =>
    cases hm : s.main with
    | alone | selecting | serverFirst => simp [hm, hl] at hmain
    | returned _ => simp [hm, Main.pending] at hpending
    | attesterFirst _ =>
      simp only [hm, Saw] at hmain hsaw
      cases hs : s.server with
      | absent => exact absurd hs hsaw.1
      | returned => exact absurd hs hmain
      | cleaning deadline =>
        simp only [hs] at hserver
        exact .inr ⟨deadline, rfl, hserver⟩
      | accepting | pausing | polled | joined | closing | dropping => simp [hs, hcancelled] at hserver

theorem InTime.tick {now : Nat} (h : InTime s) (hinv : Inv s) (hlt : s.now < now) (hidle : Idle s now) :
    InTime { s with now := now } where
  connections c hc := by
    have hold := h.connections c hc
    cases he : c.ended with
    | none => exact hidle.connections c hc he
    | some e => simpa [he] using hold
  server := by
    have hprompt := h.server
    have hserver := hidle.server
    show Prompt _ s.server
    cases hs : s.server with
    | absent | returned => trivial
    | accepting =>
      simp only [hs] at hserver
      refine ⟨by simp [hserver.1], fun c hc e he => ?_⟩
      simp [hserver.2 c hc] at he
    | pausing till =>
      simp only [hs] at hserver hprompt
      obtain ⟨htill, hshort, -, hended⟩ := hprompt
      exact ⟨hserver.2, Nat.le_trans hshort (by simp; omega), by simp [hserver.1], hended⟩
    | cleaning deadline =>
      simp only [hs] at hserver hprompt
      obtain ⟨hdeadline, hshort, hold⟩ := hprompt
      exact ⟨hserver, Nat.le_trans hshort (by simp; omega), hold⟩
    | polled | joined | closing | dropping => simp [hs] at hserver
  main hpending t hcancelled := by
    rcases hidle.waits hinv hpending hcancelled with hcycling | ⟨deadline, hserver, hle⟩
    · exact .inr (.inl hcycling)
    · have hprompt := h.server
      simp only [hserver, Prompt] at hprompt
      exact .inl (Nat.le_trans hle (hprompt.2.2 t hcancelled))

theorem Goes.between {loop : Loop} (h : Goes s loop) (since : Nat) : s.loop ≠ .cycling since := by
  cases h <;> simp [*]

theorem Through.between {attached : Bool} (h : Through s attached) (since : Nat) : s.loop ≠ .cycling since := by
  cases h <;> simp [*]

theorem Takes.between {loop : Loop} {handled : Nat} (h : Takes s loop handled) :
    (∀ since, s.loop ≠ .cycling since) ∨ loop = s.loop := by
  cases h <;> simp [*]

theorem Loses.between {loop : Loop} (h : Loses s loop) : (∀ since, s.loop ≠ .cycling since) ∨ loop = s.loop := by
  cases h <;> simp [*]

theorem InTime.step (h : InTime s) (hinv : Inv s) (hstep : Timely s s') : InTime s' := by
  obtain ⟨hstep, hidle⟩ := hstep
  have hprompt := h.server
  have hconnections := h.connections
  cases hstep with
  | request => exact h.goes (by simp [State.cancel]) (fun _ => cancel_cancelled) id (.inr (.inl ⟨rfl, rfl⟩))
  | test hloop | stopped hloop => exact h.goes (by simp) (fun _ => .inl) id (.inl ⟨by simp [hloop], rfl⟩)
  | go loop hgoes => exact h.goes (by simp) (fun _ => .inl) id (.inl ⟨hgoes.between, rfl⟩)
  | begin attached hthrough =>
    exact h.goes (by simp [State.beginCycle]) (fun _ => .inl) id (.inl ⟨hthrough.between, rfl⟩)
  | take loop handled inbox htakes =>
    exact h.goes (by simp) (fun _ => .inl) id (htakes.between.imp (⟨·, rfl⟩) fun hloop => .inl ⟨hloop, rfl⟩)
  | lose loop hloses =>
    exact h.goes (by simp) (fun _ => .inl) id (hloses.between.imp (⟨·, rfl⟩) fun hloop => .inl ⟨hloop, rfl⟩)
  | endCycle since outcome rateLimited hloop =>
    unfold State.afterCycle
    split <;> exact h.goes (by simp) (fun _ => .inl) id (.inr (.inr rfl))
  | leave hserver | poll hserver =>
    rw [hserver] at hprompt
    exact h.serves (by simp) hconnections (by first | exact hprompt | exact hprompt.1)
  | reap before after c hserver hsplit hended =>
    rw [hserver] at hprompt
    have hsub : ∀ d ∈ before ++ after, d ∈ s.connections := fun d hd => mem_reaped hsplit hd
    exact h.serves (by simp) (fun d hd => hconnections d (hsub d hd)) ⟨hprompt.1, fun d hd => hprompt.2 d (hsub d hd)⟩
  | unready hserver hopen =>
    rw [hserver] at hprompt
    exact h.serves (by simp) hconnections ⟨hprompt.1, fun c hc e he => by simp [hopen c hc] at he⟩
  | accept hserver hroom =>
    rw [hserver] at hprompt
    refine h.serves (by simp) (fun c hc => ?_) ⟨hprompt.1, fun c hc e he => ?_⟩
    · rcases List.mem_append.mp hc with hold | hnew
      · exact hconnections c hold
      · simp only [List.mem_singleton] at hnew
        simp [hnew]
    · rcases List.mem_append.mp hc with hold | hnew
      · exact Nat.le_trans (hprompt.2 c hold e he) (by omega)
      · simp only [List.mem_singleton] at hnew
        simp [hnew] at he
  | acceptFailed hserver hroom =>
    rw [hserver] at hprompt
    refine h.serves (by simp) hconnections ⟨by simp, by simp, hprompt.1, fun c hc e he => ?_⟩
    exact Nat.add_le_add_right (hprompt.2 c hc e he) _
  | wait hserver =>
    rw [hserver] at hprompt
    exact h.serves (by simp) hconnections ⟨hprompt.1, fun c hc e he => Nat.le_trans (hprompt.2 c hc e he) (by omega)⟩
  | resume till hserver hlate =>
    rw [hserver] at hprompt
    obtain ⟨htill, hshort, hc, hended⟩ := hprompt
    exact h.serves (by simp) hconnections ⟨hc, fun c hc e he => Nat.le_trans htill (hended c hc e he)⟩
  | leavePause till hserver =>
    rw [hserver] at hprompt
    exact h.serves (by simp) hconnections hprompt.2.2.1
  | close hserver =>
    rw [hserver] at hprompt
    exact h.serves (by simp) hconnections ⟨by simp, by simp, fun t ht => Nat.add_le_add_right (hprompt t ht) _⟩
  | collect deadline before after c hserver hsplit hended =>
    rw [hserver] at hprompt
    have hsub : ∀ d ∈ before ++ after, d ∈ s.connections := fun d hd => mem_reaped hsplit hd
    refine h.serves (by simp) (fun d hd => hconnections d (hsub d hd)) ?_
    show Prompt _ s.server
    rw [hserver]
    exact hprompt
  | cleaned deadline hserver | giveUp deadline hserver =>
    rw [hserver] at hprompt
    obtain ⟨hdeadline, hshort, hold⟩ := hprompt
    exact h.serves (by simp) hconnections fun t ht => Nat.le_trans hdeadline (hold t ht)
  | dropped hserver => exact h.serves (by simp) (by simp) trivial
  | enqueue before after c hsplit hopen =>
    have hmem : ∀ d ∈ before ++ { c with sent := true } :: after,
        d ∈ s.connections ∨ d = { c with sent := true } := fun d hd => mem_replaced hsplit hd
    refine h.serves (by simp) (fun d hd => ?_) (hprompt.mono rfl (fun d hd e he => ?_) fun _ => .inl)
    · rcases hmem d hd with hold | rfl
      · exact hconnections d hold
      · exact hconnections c (by simp [hsplit])
    · rcases hmem d hd with hold | rfl
      · exact .inl hold
      · simp [hopen] at he
  | ends before after c hsplit hopen =>
    have hmem : ∀ d ∈ before ++ { c with ended := some s.now } :: after,
        d ∈ s.connections ∨ d = { c with ended := some s.now } := fun d hd => mem_replaced hsplit hd
    refine h.serves (by simp) (fun d hd => ?_) (hprompt.mono rfl (fun d hd e he => ?_) fun _ => .inl)
    · rcases hmem d hd with hold | rfl
      · exact hconnections d hold
      · have hc := hconnections c (by simp [hsplit])
        simpa [hopen] using hc
    · rcases hmem d hd with hold | rfl
      · exact .inl hold
      · simp at he
        exact .inr (by omega)
  | attesterFirst result hmain | serverFirst hmain =>
    exact h.goes (by simp [State.cancel]) (fun _ => cancel_cancelled) (fun _ => by rw [hmain]; rfl)
      (.inr (.inl ⟨rfl, rfl⟩))
  | joinServer | joinAttester | alone =>
    exact h.goes (by simp) (fun _ => .inl) nofun (.inr (.inl ⟨rfl, rfl⟩))
  | tick now hle =>
    rcases Nat.eq_or_lt_of_le hle with rfl | hlt
    · exact h
    · exact h.tick hinv hlt (hidle hlt)

theorem TimelyReachable.reachable (h : TimelyReachable s) : Reachable s := by
  obtain ⟨admin, pollInterval, now, hrun⟩ := h
  exact ⟨admin, pollInterval, now, hrun.lift id fun _ _ hstep => hstep.1⟩

theorem InTime.first (admin : Bool) (pollInterval now : Nat) : InTime (.first admin pollInterval now) := by
  cases admin <;> exact ⟨by simp [State.first], by simp [State.first, Prompt], by simp [State.first]⟩

theorem TimelyReachable.inTime (h : TimelyReachable s) : InTime s := by
  obtain ⟨admin, pollInterval, now, hrun⟩ := h
  induction hrun with
  | refl => exact InTime.first admin pollInterval now
  | tail hrun hstep ih => exact ih.step (TimelyReachable.reachable ⟨admin, pollInterval, now, hrun⟩).inv hstep

/-- Whether `Server::run` is still in its loop. -/
def Server.inLoop : Server → Bool
  | .accepting | .polled | .joined | .pausing _ => true
  | _ => false

theorem Prompt.slot {c : Connection} (h : Prompt s s.server) (hloop : s.server.inLoop = true)
    (hc : c ∈ s.connections) {e : Nat} (he : c.ended = some e) : s.now ≤ e + ACCEPT_PAUSE := by
  cases hs : s.server <;> simp only [hs, Prompt, Server.inLoop, Bool.false_eq_true] at h hloop
  case accepting | polled => exact h.2 c hc e he
  case joined => exact Nat.le_trans (h.2 c hc e he) (by omega)
  case pausing till => exact Nat.le_trans h.1 (h.2.2.2 c hc e he)

theorem Prompt.cleanup {t : Nat} (h : Prompt s s.server) (hrunning : s.server ≠ .absent ∧ s.server ≠ .returned)
    (ht : s.cancelled = some t) : s.now ≤ t + CLEANUP_WAIT := by
  cases hs : s.server <;> simp only [hs, Prompt, ne_eq, not_true_eq_false, false_and, and_false] at h hrunning
  case accepting | polled | joined => exact Nat.le_trans (h.1 t ht) (by omega)
  case pausing => exact Nat.le_trans (h.2.2.1 t ht) (by omega)
  case closing => exact Nat.le_trans (h t ht) (by omega)
  case cleaning => exact Nat.le_trans h.1 (h.2.2 t ht)
  case dropping => exact h t ht

/-- A service in time: no connection is open for longer than `CONNECTION_WAIT`, none keeps its slot for longer than
that and the pause after a failed accept, and once the token is cancelled the listener has returned within
`CLEANUP_WAIT`, and the service with it unless a cycle is still under way, or has ended only now. -/
theorem service_in_time (h : TimelyReachable s) :
    (∀ c ∈ s.connections, c.ended = none → s.now ≤ c.accepted + CONNECTION_WAIT) ∧
      (s.server.inLoop = true → ∀ c ∈ s.connections, s.now ≤ c.accepted + CONNECTION_WAIT + ACCEPT_PAUSE) ∧
      ∀ t, s.cancelled = some t →
        (s.server ≠ .absent → s.server ≠ .returned → s.now ≤ t + CLEANUP_WAIT) ∧
        (s.main.pending = true →
          s.now ≤ t + CLEANUP_WAIT ∨ (∃ since, s.loop = .cycling since) ∨ s.ended = some s.now) := by
  obtain ⟨hconnections, hserver, hmain⟩ := h.inTime
  refine ⟨fun c hc he => ?_, fun hloop c hc => ?_, fun t ht => ⟨fun habsent hreturned => ?_, fun hp => hmain hp t ht⟩⟩
  · simpa [he] using hconnections c hc
  · have hc' := hconnections c hc
    cases he : c.ended with
    | none =>
      simp only [he, Option.getD_none] at hc'
      omega
    | some e =>
      have hslot := hserver.slot hloop hc he
      simp only [he, Option.getD_some] at hc'
      omega
  · exact hserver.cleanup ⟨habsent, hreturned⟩ ht

theorem Timely.of_step (hstep : Step s s') (hnow : s'.now = s.now) : Timely s s' :=
  ⟨hstep, fun hlt => absurd hnow.symm (Nat.ne_of_lt hlt)⟩

/-- The limit is reached: an operator's connection that does not end holds the listener for all of `CLEANUP_WAIT`. -/
theorem service_in_time_cleanup : ∃ (s : State) (t : Nat), s.cancelled = some t ∧ s.server = .dropping ∧
    s.connections ≠ [] ∧ s.now = t + CLEANUP_WAIT ∧ s.now ≤ t + CLEANUP_WAIT := by
  have hbegun : Relation.ReflTransGen Timely (.first true second 0) _ :=
    cycle_begins Timely.of_step rfl rfl rfl rfl nofun
  have hopen := ((hbegun.tail (.of_step (.poll _ rfl rfl) rfl)).tail
    (.of_step (.unready _ rfl (by simp [State.first])) rfl)).tail (.of_step (.accept _ rfl (by decide)) rfl)
  have hasked := ((hopen.tail (.of_step (.request _) rfl)).tail (.of_step (.leave _ rfl rfl) rfl)).tail
    (.of_step (.close _ rfl) rfl)
  have hlate := (hasked.tail ⟨.tick _ CLEANUP_WAIT (by decide), fun _ =>
    ⟨by simp [State.first, State.cancel]; decide, Nat.le_refl _, trivial, nofun, nofun⟩⟩).tail
    (.of_step (.giveUp _ _ rfl (by decide)) rfl)
  obtain ⟨-, -, hcancelled⟩ := service_in_time ⟨true, second, 0, hlate⟩
  obtain ⟨hserver, -⟩ := hcancelled 0 rfl
  exact ⟨_, 0, rfl, rfl, by simp [State.first, State.cancel], rfl, hserver nofun nofun⟩

/-! ## The pause between cycles -/

/-- The pause after this many cycles in a row have met a 429: it doubles up to a minute, and is never less than the
configured interval. -/
def pauseAfter (pollInterval streak : Nat) : Nat :=
  max pollInterval (min MAX_RATE_LIMITED_PAUSE (pollInterval * 2 ^ streak))

theorem pauseAfter_zero (pollInterval : Nat) : pauseAfter pollInterval 0 = pollInterval := by
  simp [pauseAfter]

/-- Doubling never saturates below the cap. -/
theorem saturatingMul_capped (duration factor : Nat) :
    min (saturatingMul duration factor) MAX_RATE_LIMITED_PAUSE = min (duration * factor) MAX_RATE_LIMITED_PAUSE := by
  have hcap : MAX_RATE_LIMITED_PAUSE ≤ durationMax := by decide +kernel
  rw [saturatingMul, Nat.min_assoc, Nat.min_eq_right hcap]

theorem nextPause_pauseAfter (pollInterval streak : Nat) :
    nextPause pollInterval (pauseAfter pollInterval streak) true = pauseAfter pollInterval (streak + 1) := by
  have hpow : pollInterval * 2 ^ (streak + 1) = 2 * (pollInterval * 2 ^ streak) := by
    rw [Nat.pow_succ]
    ac_rfl
  have hone : pollInterval ≤ pollInterval * 2 ^ streak := Nat.le_mul_of_pos_right _ (Nat.two_pow_pos streak)
  simp only [nextPause, if_true, saturatingMul_capped]
  unfold pauseAfter
  omega

/-- How many commands were taken, at each place of the checkpoint and at the start of the cycle. -/
def Room (s : State) : Loop → Prop
  | .tested => s.handled = 0
  | .draining left => s.handled + left ≤ ADMIN_COMMANDS_PER_CHECKPOINT
  | .receiving left => s.handled + left + 1 ≤ ADMIN_COMMANDS_PER_CHECKPOINT
  | .cycling _ => s.handled ≤ ADMIN_COMMANDS_PER_CHECKPOINT
  | _ => True

/-- When the loop is there: the clock stands still from the end of the pause to the start of the cycle. -/
def Due (s : State) : Loop → Prop
  | .head => s.cancelled = none → ∀ t, s.ended = some t → s.now = t + s.pause
  | .tested | .draining _ | .receiving _ =>
    (∀ t, s.cancelled = some t → s.now ≤ t) ∧ ∀ t, s.ended = some t → s.now = t + s.pause
  | .cycling since =>
    since ≤ s.now ∧ (∀ t, s.cancelled = some t → since ≤ t) ∧ ∀ t, s.ended = some t → since = t + s.pause
  | .sleeping wakeAt | .looked wakeAt | .waiting wakeAt =>
    s.now ≤ wakeAt ∧ ∀ t, s.ended = some t → wakeAt = t + s.pause
  | .returned _ => True

structure Paced (s : State) : Prop where
  pause : s.pause = pauseAfter s.pollInterval s.streak
  room : Room s s.loop
  due : Due s s.loop

theorem Paced.first (admin : Bool) (pollInterval now : Nat) : Paced (.first admin pollInterval now) :=
  ⟨(pauseAfter_zero pollInterval).symm, trivial, by simp [State.first, Due]⟩

/-- Only the token may have changed, and been cancelled now. -/
theorem Due.mono {loop : Loop} (h : Due s loop)
    (hrest : s'.now = s.now ∧ s'.pause = s.pause ∧ s'.ended = s.ended)
    (hcancelled : ∀ t, s'.cancelled = some t → s.cancelled = some t ∨ s.now ≤ t)
    (hkept : s'.cancelled = none → s.cancelled = none) : Due s' loop := by
  obtain ⟨hnow, hpause, hended⟩ := hrest
  cases loop with
  | returned result => trivial
  | head =>
    unfold Due at h ⊢
    rw [hnow, hpause, hended]
    exact fun hnone => h (hkept hnone)
  | sleeping | looked | waiting =>
    unfold Due at h ⊢
    rwa [hnow, hpause, hended]
  | tested | draining | receiving =>
    unfold Due at h ⊢
    rw [hnow, hpause, hended]
    refine ⟨fun t ht => ?_, h.2⟩
    rcases hcancelled t ht with hc | hle
    · exact h.1 t hc
    · exact hle
  | cycling since =>
    unfold Due at h ⊢
    rw [hnow, hpause, hended]
    refine ⟨h.1, fun t ht => ?_, h.2.2⟩
    rcases hcancelled t ht with hc | hle
    · exact h.2.1 t hc
    · exact Nat.le_trans h.1 hle

theorem Room.mono {loop : Loop} (h : Room s loop) (hhandled : s'.handled = s.handled) : Room s' loop := by
  cases loop <;> simp_all [Room]

theorem Paced.within (h : Paced s) (hrest : s'.pollInterval = s.pollInterval ∧ s'.now = s.now ∧ s'.loop = s.loop ∧
    s'.pause = s.pause ∧ s'.ended = s.ended ∧ s'.streak = s.streak ∧ s'.handled = s.handled)
    (hcancelled : ∀ t, s'.cancelled = some t → s.cancelled = some t ∨ s.now ≤ t)
    (hkept : s'.cancelled = none → s.cancelled = none) : Paced s' := by
  obtain ⟨hpoll, hnow, hloop, hpause, hended, hstreak, hhandled⟩ := hrest
  refine ⟨by rw [hpause, hpoll, hstreak]; exact h.pause, ?_, ?_⟩
  · rw [hloop]
    exact h.room.mono hhandled
  · rw [hloop]
    exact h.due.mono ⟨hnow, hpause, hended⟩ hcancelled hkept

theorem cancel_none (h : s.cancel.cancelled = none) : s.cancelled = none := by
  have := cancel_isSome s
  simp [h] at this

theorem Paced.go {loop : Loop} (h : Paced s) (hgoes : Goes s loop) : Paced { s with loop := loop } := by
  obtain ⟨hpause, hroom, hdue⟩ := h
  refine ⟨hpause, ?_, ?_⟩
  · cases hgoes with
    | enter hloop =>
      rw [hloop] at hroom
      exact Nat.le_of_eq (by rw [show s.handled = 0 from hroom, Nat.zero_add])
    | ask left hloop =>
      rw [hloop] at hroom
      exact hroom
    | cut | look | wake | early | park => trivial
  · cases hgoes with
    | enter hloop | ask left hloop | look wakeAt hloop | park wakeAt hloop | early wakeAt hloop =>
      rw [hloop] at hdue
      exact hdue
    | cut wakeAt hloop hsome => exact fun hnone => by simp [show s.cancelled = none from hnone] at hsome
    | wake wakeAt hloop hlate =>
      rw [hloop] at hdue
      intro _ t ht
      have hwake := hdue.2 t ht
      have hnow := hdue.1
      show s.now = t + s.pause
      omega

theorem Paced.begin {attached : Bool} (h : Paced s) (hthrough : Through s attached) : Paced (s.beginCycle attached) := by
  obtain ⟨hpause, hroom, hdue⟩ := h
  cases hthrough with
  | skip hloop | drained left hloop | empty left hloop | disconnected left hloop =>
    rw [hloop] at hroom hdue
    refine ⟨hpause, ?_, Nat.le_refl _, hdue⟩
    show s.handled ≤ ADMIN_COMMANDS_PER_CHECKPOINT
    simp only [Room] at hroom
    omega

theorem Paced.endCycle (h : Paced s) (outcome : Except DiscoverError Unit) (rateLimited : Bool) :
    Paced (s.afterCycle outcome rateLimited) := by
  unfold State.afterCycle
  cases finishCycle outcome with
  | error e => exact ⟨h.pause, trivial, trivial⟩
  | ok =>
    refine ⟨?_, trivial, by simp [Due]⟩
    cases rateLimited with
    | false => simp [nextPause, pauseAfter_zero]
    | true => simp [h.pause, nextPause_pauseAfter]

theorem Paced.take {loop : Loop} {handled inbox : Nat} (h : Paced s) (htakes : Takes s loop handled) :
    Paced { s with loop := loop, handled := handled, inbox := inbox } := by
  obtain ⟨hpause, hroom, hdue⟩ := h
  cases htakes with
  | checkpoint left hloop =>
    rw [hloop] at hroom hdue
    refine ⟨hpause, ?_, hdue⟩
    simp only [Room] at hroom ⊢
    omega
  | pause wakeAt hloop =>
    rw [hloop] at hdue
    exact ⟨hpause, trivial, hdue⟩
  | cycle since hloop =>
    rw [hloop] at hroom hdue
    exact ⟨hpause, hroom, hdue⟩

theorem Paced.lose {loop : Loop} (h : Paced s) (hloses : Loses s loop) :
    Paced { s with loop := loop, attached := false } := by
  obtain ⟨hpause, hroom, hdue⟩ := h
  cases hloses with
  | pause wakeAt hloop | cycle since hloop =>
    rw [hloop] at hroom hdue
    exact ⟨hpause, hroom, hdue⟩

theorem Paced.tick {now : Nat} (h : Paced s) (hlt : s.now < now) (hidle : Idle s now) :
    Paced { s with now := now } where
  pause := h.pause
  room := h.room
  due := by
    have hdue := h.due
    have hloop := hidle.loop
    show Due _ s.loop
    cases hl : s.loop with
    | returned result => trivial
    | head | tested | draining | receiving | looked | waiting => simp [hl] at hloop
    | cycling since =>
      rw [hl] at hdue
      exact ⟨Nat.le_of_lt (Nat.lt_of_le_of_lt hdue.1 hlt), hdue.2⟩
    | sleeping wakeAt =>
      simp only [hl] at hloop hdue
      exact ⟨hloop.2.1, hdue.2⟩

theorem Paced.step (h : Paced s) (hstep : Timely s s') : Paced s' := by
  obtain ⟨hstep, hidle⟩ := hstep
  cases hstep with
  | request => exact h.within (by simp [State.cancel]) (fun _ => cancel_cancelled) cancel_none
  | attesterFirst | serverFirst => exact h.within (by simp [State.cancel]) (fun _ => cancel_cancelled) cancel_none
  | test hloop hnone =>
    have hdue := h.due
    rw [hloop] at hdue
    exact ⟨h.pause, rfl, by simp [hnone], hdue hnone⟩
  | go loop hgoes => exact h.go hgoes
  | begin attached hthrough => exact h.begin hthrough
  | stopped => exact ⟨h.pause, trivial, trivial⟩
  | endCycle since outcome rateLimited => exact h.endCycle outcome rateLimited
  | take loop handled inbox htakes => exact h.take htakes
  | lose loop hloses => exact h.lose hloses
  | tick now hle =>
    rcases Nat.eq_or_lt_of_le hle with rfl | hlt
    · exact h
    · exact h.tick hlt (hidle hlt)
  | leave | poll | reap | unready | accept | acceptFailed | wait | resume | leavePause | close | collect | cleaned
    | giveUp | dropped | enqueue | ends | joinServer | joinAttester | alone =>
    exact h.within (by simp) (fun _ => .inl) id

theorem TimelyReachable.paced (h : TimelyReachable s) : Paced s := by
  obtain ⟨admin, pollInterval, now, hrun⟩ := h
  induction hrun with
  | refl => exact Paced.first admin pollInterval now
  | tail _ hstep ih => exact ih.step hstep

/-- The cycle whose turn has passed the test of the token. -/
def Loop.turn : Loop → Nat
  | .tested | .draining _ | .receiving _ => 1
  | _ => 0

/-- Once the token is cancelled, no turn is given: what begins is what had its turn. -/
theorem Step.turn (hstep : Step s s') (hcancelled : s.cancelled.isSome = true) :
    s'.cancelled.isSome = true ∧ s'.cycles + s'.loop.turn ≤ s.cycles + s.loop.turn := by
  cases hstep with
  | test hloop hnone => simp [hnone] at hcancelled
  | go loop hgoes =>
    refine ⟨hcancelled, Nat.add_le_add_left ?_ _⟩
    cases hgoes with
    | enter hloop | ask left hloop | cut wakeAt hloop | look wakeAt hloop | wake wakeAt hloop | early wakeAt hloop
    | park wakeAt hloop => simp [hloop, Loop.turn]
  | begin attached hthrough =>
    refine ⟨hcancelled, ?_⟩
    cases hthrough with
    | skip hloop | drained left hloop | empty left hloop | disconnected left hloop =>
      simp [hloop, Loop.turn, State.beginCycle]
  | stopped hloop => exact ⟨hcancelled, by simp [hloop, Loop.turn]⟩
  | endCycle since outcome rateLimited hloop =>
    unfold State.afterCycle
    split <;> exact ⟨hcancelled, by simp [hloop, Loop.turn]⟩
  | take loop handled inbox htakes =>
    refine ⟨hcancelled, Nat.add_le_add_left ?_ _⟩
    cases htakes with
    | checkpoint left hloop | pause wakeAt hloop | cycle since hloop => simp [hloop, Loop.turn]
  | lose loop hloses =>
    refine ⟨hcancelled, Nat.add_le_add_left ?_ _⟩
    cases hloses with
    | pause wakeAt hloop | cycle since hloop => simp [hloop, Loop.turn]
  | request | attesterFirst | serverFirst => exact ⟨cancel_isSome s, Nat.le_refl _⟩
  | leave | poll | reap | unready | accept | acceptFailed | wait | resume | leavePause | close | collect | cleaned
    | giveUp | dropped | enqueue | ends | joinServer | joinAttester | alone | tick => exact ⟨hcancelled, Nat.le_refl _⟩

theorem cycles_after_cancel (hcancelled : s.cancelled.isSome = true) (hrun : Relation.ReflTransGen Step s s') :
    s'.cycles ≤ s.cycles + s.loop.turn := by
  suffices h : s'.cancelled.isSome = true ∧ s'.cycles + s'.loop.turn ≤ s.cycles + s.loop.turn from
    Nat.le_trans (Nat.le_add_right _ _) h.2
  induction hrun with
  | refl => exact ⟨hcancelled, Nat.le_refl _⟩
  | tail _ hstep ih =>
    obtain ⟨hkept, hle⟩ := hstep.turn ih.1
    exact ⟨hkept, Nat.le_trans hle ih.2⟩

/-- In the pause between two cycles. -/
def Loop.pausing : Loop → Bool
  | .sleeping _ | .looked _ | .waiting _ => true
  | _ => false

/-- The pause is over, or cut short, and the loop has not found out. -/
def Over (s : State) : Loop → Prop
  | .sleeping wakeAt => s.cancelled.isSome = true ∨ wakeAt ≤ s.now
  | .looked wakeAt => wakeAt ≤ s.now
  | _ => False

/-- The pause of this cycle is over after so many commands, or behind the loop. -/
def Closed (cycles handled : Nat) (s : State) : Prop :=
  s.cycles = cycles ∧ s.handled = handled ∧ Over s s.loop ∨
    s.cycles = cycles ∧ (∀ since, s.loop ≠ .cycling since) ∧ s.loop.pausing = false ∨ cycles < s.cycles

theorem Over.mono {loop : Loop} (h : Over s loop) (hnow : s.now ≤ s'.now)
    (hcancelled : s.cancelled.isSome = true → s'.cancelled.isSome = true) : Over s' loop := by
  cases loop with
  | sleeping wakeAt => exact h.imp hcancelled fun hle => Nat.le_trans hle hnow
  | looked wakeAt => exact Nat.le_trans h hnow
  | head | tested | draining | receiving | cycling | waiting | returned => exact h

/-- The loop stands where it stood. -/
theorem Closed.mono {cycles handled : Nat} (h : Closed cycles handled s)
    (hrest : s'.cycles = s.cycles ∧ s'.handled = s.handled ∧ s'.loop = s.loop) (hnow : s.now ≤ s'.now)
    (hcancelled : s.cancelled.isSome = true → s'.cancelled.isSome = true) : Closed cycles handled s' := by
  obtain ⟨hcycles, hhandled, hloop⟩ := hrest
  unfold Closed at h ⊢
  rw [hcycles, hhandled, hloop]
  exact h.imp_left fun ⟨hc, hh, hover⟩ => ⟨hc, hh, hover.mono hnow hcancelled⟩

theorem Closed.go {cycles handled : Nat} {loop : Loop} (h : Closed cycles handled s) (hgoes : Goes s loop) :
    Closed cycles handled { s with loop := loop } := by
  rcases h with ⟨hcycles, hhandled, hover⟩ | ⟨hcycles, hbetween, hout⟩ | hlt
  · cases hgoes with
    | enter hloop | ask left hloop | park wakeAt hloop =>
      rw [hloop] at hover
      exact hover.elim
    | cut | wake => exact .inr (.inl ⟨hcycles, nofun, rfl⟩)
    | look wakeAt hloop hnone =>
      -- It was not cut short, so the timer is over.
      rw [hloop] at hover
      exact .inl ⟨hcycles, hhandled, hover.resolve_left (by simp [hnone])⟩
    | early wakeAt hloop hearly =>
      rw [hloop] at hover
      exact absurd hover (Nat.not_le.mpr hearly)
  · cases hgoes with
    | enter | ask => exact .inr (.inl ⟨hcycles, nofun, rfl⟩)
    | cut wakeAt hloop | look wakeAt hloop | wake wakeAt hloop | early wakeAt hloop | park wakeAt hloop =>
      rw [hloop] at hout
      cases hout
  · exact .inr (.inr hlt)

theorem Closed.step {cycles handled : Nat} (h : Closed cycles handled s) (hstep : Step s s') :
    Closed cycles handled s' := by
  cases hstep with
  | test hloop | stopped hloop => simp_all [Closed, Over, Loop.pausing]
  | go loop hgoes => exact h.go hgoes
  | begin attached hthrough =>
    refine .inr (.inr ?_)
    show cycles < s.cycles + 1
    rcases h with ⟨hc, -⟩ | ⟨hc, -⟩ | hlt <;> omega
  | endCycle since outcome rateLimited hloop =>
    have hlt : cycles < s.cycles := by simpa [Closed, hloop, Over] using h
    unfold State.afterCycle
    split <;> exact .inr (.inr hlt)
  | take loop handled inbox htakes =>
    cases htakes with
    | checkpoint left hloop | pause wakeAt hloop | cycle since hloop => simp_all [Closed, Over, Loop.pausing]
  | lose loop hloses =>
    cases hloses with
    | pause wakeAt hloop | cycle since hloop => simp_all [Closed, Over, Loop.pausing]
  | request | attesterFirst | serverFirst => exact h.mono ⟨rfl, rfl, rfl⟩ (Nat.le_refl _) fun _ => cancel_isSome s
  | tick now hle => exact h.mono ⟨rfl, rfl, rfl⟩ hle id
  | leave | poll | reap | unready | accept | acceptFailed | wait | resume | leavePause | close | collect | cleaned
    | giveUp | dropped | enqueue | ends | joinServer | joinAttester | alone =>
    exact h.mono ⟨rfl, rfl, rfl⟩ (Nat.le_refl _) id

theorem Closed.run {cycles handled : Nat} (h : Closed cycles handled s) (hrun : Relation.ReflTransGen Step s s') :
    Closed cycles handled s' := by
  induction hrun with
  | refl => exact h
  | tail _ hstep ih => exact ih.step hstep

/-- Commands do not hold up a pause that is over. -/
theorem Over.kept (hover : Over s s.loop) (hrun : Relation.ReflTransGen Step s s') (hcycles : s'.cycles = s.cycles)
    (hpausing : s'.loop.pausing = true) : s'.handled = s.handled := by
  have hclosed : Closed s.cycles s.handled s' := Closed.run (.inl ⟨rfl, rfl, hover⟩) hrun
  rcases hclosed with ⟨-, hhandled, -⟩ | ⟨-, -, hout⟩ | hlt
  · exact hhandled
  · simp [hout] at hpausing
  · omega

/-- Cycles in time. Each begins exactly the pause after the last one ended, behind at most
`ADMIN_COMMANDS_PER_CHECKPOINT` commands, and not later than the cancellation. After it at most one more begins, which
had its turn by then. A pause that is over, or cut short, takes no more commands. The pause is the configured interval,
doubled up to a minute for each cycle in a row that met a 429. -/
theorem cycles_paced (h : TimelyReachable s) :
    (∀ since, s.loop = .cycling since → s.handled ≤ ADMIN_COMMANDS_PER_CHECKPOINT ∧
        (∀ t, s.ended = some t → since = t + pauseAfter s.pollInterval s.streak) ∧
        ∀ t, s.cancelled = some t → since ≤ t) ∧
      (s.cancelled.isSome = true → ∀ s', Relation.ReflTransGen Step s s' → s'.cycles ≤ s.cycles + s.loop.turn) ∧
      ∀ wakeAt, s.loop = .sleeping wakeAt → s.cancelled.isSome = true ∨ wakeAt ≤ s.now →
        ∀ s', Relation.ReflTransGen Step s s' → s'.cycles = s.cycles → s'.loop.pausing = true →
          s'.handled = s.handled := by
  obtain ⟨hpause, hroom, hdue⟩ := h.paced
  refine ⟨fun since hloop => ?_, fun hcancelled s' hrun => cycles_after_cancel hcancelled hrun,
    fun wakeAt hloop hover s' hrun => Over.kept ?_ hrun⟩
  · rw [hloop] at hroom hdue
    exact ⟨hroom, fun t ht => hpause ▸ hdue.2.2 t ht, hdue.2.1⟩
  · rw [hloop]
    exact hover

/-- A 429 doubles the pause of a second, and a cancellation between the test of the token and the cycle does not stop
that cycle, but every further one. -/
theorem cycles_paced_limited : ∃ (s : State) (t : Nat), s.loop = .cycling (2 * second) ∧ s.ended = some t ∧
    2 * second = t + pauseAfter s.pollInterval s.streak ∧ s.cancelled = some (2 * second) ∧ s.cycles = 2 ∧
    ∀ s', Relation.ReflTransGen Step s s' → s'.cycles ≤ 2 := by
  have hbegun : Relation.ReflTransGen Timely (.first true second 0) _ :=
    cycle_begins Timely.of_step rfl rfl rfl rfl nofun
  have hlimited := hbegun.tail (.of_step (.endCycle _ 0 (.ok ()) true rfl) rfl)
  have hslept := hlimited.tail ⟨.tick _ (2 * second) (by decide), fun _ =>
    ⟨nofun, ⟨rfl, nofun⟩, ⟨rfl, by decide, fun _ => ⟨rfl, nofun⟩⟩, nofun, nofun⟩⟩
  have hawake := (hslept.tail (.of_step (.go _ _ (.look _ rfl rfl)) rfl)).tail
    (.of_step (.go _ _ (.wake _ rfl (by decide))) rfl)
  have htested := (hawake.tail (.of_step (.test _ rfl rfl) rfl)).tail (.of_step (.request _) rfl)
  have hagain := htested.tail (.of_step (.begin _ _ (.skip rfl (.inr rfl))) rfl)
  obtain ⟨hcycle, hcancelled, -⟩ := cycles_paced ⟨true, second, 0, hagain⟩
  exact ⟨_, 0, rfl, rfl, (hcycle _ rfl).2.1 0 rfl, rfl, rfl, hcancelled rfl⟩

end

end LightAttester.Running
