import MidenUsdcx.Lib.Window
import Mathlib.Data.List.Basic
import Mathlib.Logic.Relation
/-!
# Requests to Circle, one at a time (`circle.rs:115`, `151-203`)

Any number of callers are in `CircleClient::send` at once. They take the lock of `next_dispatch` in the order they asked
for it, and each may be dropped at any of its awaits. `Step` is one step of a caller or of the clock.

| here | there |
| --- | --- |
| `State.queue`, `State.turn` | the lock: who waits for it and who holds it |
| `Turn.sleeping` | `sleep_until(*next_dispatch)` |
| `Turn.sending` | `client.execute(request)` and `read_reply` |
| `State.nextDispatch` | `next_dispatch` |
| `State.sent` | the requests that went out, oldest first, kept for the statements |

Times are in nanoseconds. What a request says and what comes back is in `Submission`.
-/
namespace LightAttester.Pacing

/-- `REQUEST_GAP` (`circle.rs:115`). -/
def REQUEST_GAP : Nat := 250000000

/-- A call of `send`, by its number: when it came, and how many were before it and not done. -/
structure Wait where
  call : Nat
  arrived : Nat
  ahead : Nat

/-- A request that went out. One whose caller was dropped has no end. -/
structure Attempt where
  wait : Wait
  started : Nat
  ended : Option Nat

inductive Turn where
  | free
  | sleeping (wait : Wait)
  | sending (wait : Wait) (since : Nat)

structure State where
  requestTimeout : Nat
  now : Nat
  nextDispatch : Nat
  calls : Nat
  queue : List Wait
  turn : Turn
  sent : List Attempt

/-- How many are done before a call that comes now. -/
def State.inLine (s : State) : Nat :=
  s.queue.length + match s.turn with
    | .free => 0
    | .sleeping _ | .sending _ _ => 1

/-- `CircleClient::new` (`circle.rs:160`). -/
def State.new (requestTimeout now : Nat) : State where
  requestTimeout := requestTimeout
  now := now
  nextDispatch := now
  calls := 0
  queue := []
  turn := .free
  sent := []

/-- A call comes. -/
def State.arrives (s : State) : State :=
  { s with queue := s.queue ++ [⟨s.calls, s.now, s.inLine⟩], calls := s.calls + 1 }

/-- The request goes out (`circle.rs:196`). -/
def State.sends (s : State) (w : Wait) : State :=
  { s with nextDispatch := s.now + REQUEST_GAP, turn := .sending w s.now, sent := s.sent ++ [⟨w, s.now, none⟩] }

/-- The attempt is over, and the lock is dropped (`circle.rs:201`). -/
def State.ends (s : State) (before : List Attempt) (a : Attempt) : State :=
  { s with nextDispatch := s.now + REQUEST_GAP, turn := .free, sent := before ++ [{ a with ended := some s.now }] }

inductive Step : State → State → Prop where
  | arrive (s : State) : Step s s.arrives
  | lock (s : State) (w : Wait) (rest : List Wait) (h : s.turn = .free) (hqueue : s.queue = w :: rest) :
    Step s { s with queue := rest, turn := .sleeping w }
  | dispatch (s : State) (w : Wait) (h : s.turn = .sleeping w) (hnow : s.nextDispatch ≤ s.now) : Step s (s.sends w)
  /-- A reply, or an error. -/
  | answered (s : State) (before : List Attempt) (a : Attempt) (h : s.turn = .sending a.wait a.started)
    (hsent : s.sent = before ++ [a]) : Step s (s.ends before a)
  | leaveQueue (s : State) (before after : List Wait) (w : Wait) (h : s.queue = before ++ w :: after) :
    Step s { s with queue := before ++ after }
  /-- The holder is dropped, and the lock with it. -/
  | leaveTurn (s : State) (h : s.turn ≠ .free) : Step s { s with turn := .free }
  | tick (s : State) (now : Nat) (h : s.now ≤ now) : Step s { s with now := now }

/-- The states of every run. -/
def Reachable (s : State) : Prop := ∃ requestTimeout now, Relation.ReflTransGen Step (.new requestTimeout now) s

/-- From when on the next request may go out. -/
def Attempt.clear (a : Attempt) : Nat := a.ended.getD a.started + REQUEST_GAP

/-- The calls that went out, the one that sleeps and those in the queue. -/
def State.order (s : State) : List Nat :=
  s.sent.map (·.wait.call) ++ (match s.turn with
    | .sleeping w => [w.call]
    | .free | .sending _ _ => []) ++ s.queue.map (·.call)

/-! ## What one step keeps -/

structure Inv (s : State) : Prop where
  gap : s.nextDispatch ≤ s.now + REQUEST_GAP
  clear : ∀ a ∈ s.sent, a.clear ≤ s.nextDispatch
  started : ∀ a ∈ s.sent, a.started ≤ a.ended.getD a.started
  spaced : s.sent.Pairwise fun earlier later => earlier.clear ≤ later.started
  order : s.order.Pairwise (· < ·)
  below : ∀ call ∈ s.order, call < s.calls

section
variable {s s' : State}

theorem Inv.new (requestTimeout now : Nat) : Inv (.new requestTimeout now) := by
  constructor <;> simp [State.new, State.order]

/-- A step that sends nothing, and after which no call is new. -/
theorem Inv.keeps (h : Inv s) (hnow : s.now ≤ s'.now) (hdispatch : s'.nextDispatch = s.nextDispatch)
    (hsent : s'.sent = s.sent) (horder : s'.order.Sublist s.order) (hcalls : s'.calls = s.calls) : Inv s' where
  gap := by
    have hgap := h.gap
    omega
  clear a ha := hdispatch ▸ h.clear a (hsent ▸ ha)
  started a ha := h.started a (hsent ▸ ha)
  spaced := hsent ▸ h.spaced
  order := h.order.sublist horder
  below call hc := hcalls ▸ h.below call (horder.subset hc)

theorem Inv.dispatch (h : Inv s) {w : Wait} (hturn : s.turn = .sleeping w) (hnow : s.nextDispatch ≤ s.now) :
    Inv (s.sends w) := by
  have horder : (s.sends w).order = s.order := by simp [State.sends, State.order, hturn]
  refine ⟨Nat.le_refl _, fun a ha => ?_, fun a ha => ?_, ?_, horder ▸ h.order, horder ▸ h.below⟩
  · rcases List.mem_append.mp ha with hold | hnew
    · have hclear := h.clear a hold
      simp only [State.sends]
      omega
    · simp only [List.mem_singleton] at hnew
      simp [hnew, Attempt.clear, State.sends]
  · rcases List.mem_append.mp ha with hold | hnew
    · exact h.started a hold
    · simp only [List.mem_singleton] at hnew
      simp [hnew]
  · refine List.pairwise_append.mpr ⟨h.spaced, List.pairwise_singleton .., fun a ha b hb => ?_⟩
    simp only [List.mem_singleton] at hb
    subst hb
    exact Nat.le_trans (h.clear a ha) hnow

theorem Inv.answered (h : Inv s) {before : List Attempt} {a : Attempt} (hturn : s.turn = .sending a.wait a.started)
    (hsent : s.sent = before ++ [a]) : Inv (s.ends before a) := by
  have hgap := h.gap
  have hstarted : a.started ≤ s.now := by
    have hclear := h.clear a (by simp [hsent])
    have hle := h.started a (by simp [hsent])
    simp only [Attempt.clear] at hclear
    omega
  have horder : (s.ends before a).order = s.order := by simp [State.ends, State.order, hturn, hsent]
  have hspaced := h.spaced
  rw [hsent] at hspaced
  obtain ⟨hbefore, -, hlast⟩ := List.pairwise_append.mp hspaced
  refine ⟨Nat.le_refl _, fun b hb => ?_, fun b hb => ?_, ?_, horder ▸ h.order, horder ▸ h.below⟩
  · rcases List.mem_append.mp hb with hold | hnew
    · exact Nat.le_trans (h.clear b (by simp [hsent, hold])) hgap
    · simp only [List.mem_singleton] at hnew
      simp [hnew, Attempt.clear, State.ends]
  · rcases List.mem_append.mp hb with hold | hnew
    · exact h.started b (by simp [hsent, hold])
    · simp only [List.mem_singleton] at hnew
      simp [hnew, hstarted]
  · refine List.pairwise_append.mpr ⟨hbefore, List.pairwise_singleton .., fun b hb c hc => ?_⟩
    simp only [List.mem_singleton] at hc
    subst hc
    exact hlast b hb a (by simp)

theorem Inv.step (h : Inv s) (hstep : Step s s') : Inv s' := by
  cases hstep with
  | arrive =>
    have horder : s.arrives.order = s.order ++ [s.calls] := by simp [State.arrives, State.order]
    refine ⟨h.gap, h.clear, h.started, h.spaced, ?_, fun call hc => ?_⟩
    · rw [horder]
      refine List.pairwise_append.mpr ⟨h.order, List.pairwise_singleton .., fun call hc last hlast => ?_⟩
      simp only [List.mem_singleton] at hlast
      exact hlast ▸ h.below call hc
    · rw [horder] at hc
      rcases List.mem_append.mp hc with hold | hnew
      · exact Nat.lt_succ_of_lt (h.below call hold)
      · simp only [List.mem_singleton] at hnew
        simp [hnew, State.arrives]
  | lock w rest hturn hqueue => exact h.keeps (Nat.le_refl _) rfl rfl (by simp [State.order, hturn, hqueue]) rfl
  | dispatch w hturn hnow => exact h.dispatch hturn hnow
  | answered before a hturn hsent => exact h.answered hturn hsent
  | leaveQueue before after w hqueue =>
    refine h.keeps (Nat.le_refl _) rfl rfl ?_ rfl
    simp [State.order, hqueue]
  | leaveTurn hturn =>
    refine h.keeps (Nat.le_refl _) rfl rfl ?_ rfl
    cases ht : s.turn <;> simp [State.order, ht]
  | tick now hle => exact h.keeps hle rfl rfl (List.Sublist.refl _) rfl

theorem Reachable.inv (h : Reachable s) : Inv s := by
  obtain ⟨requestTimeout, now, hrun⟩ := h
  induction hrun with
  | refl => exact Inv.new requestTimeout now
  | tail _ hstep ih => exact ih.step hstep

/-! ## Every run -/

/-- When the clock may move on to `now`: a free lock is taken, a sleep ends on time, a request ends by its timeout. -/
def Idle (s : State) (now : Nat) : Prop :=
  match s.turn with
  | .free => s.queue = []
  | .sleeping _ => now ≤ s.nextDispatch
  | .sending _ since => now ≤ since + s.requestTimeout

def Timely (s s' : State) : Prop := Step s s' ∧ (s.now < s'.now → Idle s s'.now)

def TimelyReachable (requestTimeout : Nat) (s : State) : Prop :=
  ∃ now, Relation.ReflTransGen Timely (.new requestTimeout now) s

/-- By when a call's request goes out: a whole attempt and its gap for each call before it, and one gap more. -/
def Wait.due (requestTimeout : Nat) (w : Wait) : Nat :=
  w.arrived + w.ahead * (requestTimeout + REQUEST_GAP) + REQUEST_GAP

/-- How long the first of the queue may still have to wait. -/
def State.left (s : State) : Nat :=
  match s.turn with
  | .free => s.nextDispatch - s.now
  | .sleeping _ => s.nextDispatch - s.now + (s.requestTimeout + REQUEST_GAP)
  | .sending _ since => since + s.requestTimeout - s.now + REQUEST_GAP

structure InTurn (s : State) : Prop where
  queue : ∀ i w, s.queue[i]? = some w →
    s.now + s.left + i * (s.requestTimeout + REQUEST_GAP) ≤ w.due s.requestTimeout
  turn : match s.turn with
    | .free => True
    | .sleeping w => s.now ≤ w.due s.requestTimeout ∧ s.nextDispatch ≤ w.due s.requestTimeout
    | .sending _ since => since ≤ s.now ∧ s.now ≤ since + s.requestTimeout
  sent : ∀ a ∈ s.sent, a.started ≤ a.wait.due s.requestTimeout

theorem InTurn.new (requestTimeout now : Nat) : InTurn (.new requestTimeout now) := by
  constructor <;> simp [State.new]

/-- A call that comes now waits for those in line. -/
theorem InTurn.arrive (h : InTurn s) (hgap : s.nextDispatch ≤ s.now + REQUEST_GAP) : InTurn s.arrives where
  queue i w hw := by
    have hleft : s.arrives.left = s.left := rfl
    rcases Nat.lt_or_ge i s.queue.length with hlt | hge
    · have hold : s.queue[i]? = some w := by
        rw [← hw]
        exact (List.getElem?_append_left hlt).symm
      exact h.queue i w hold
    · have hnew : i = s.queue.length ∧ w = ⟨s.calls, s.now, s.inLine⟩ := by
        have hw' : (s.queue ++ [⟨s.calls, s.now, s.inLine⟩])[i]? = some w := hw
        have hlt := (List.getElem?_eq_some_iff.mp hw').1
        simp only [List.length_append, List.length_singleton] at hlt
        have hi : i = s.queue.length := by omega
        subst hi
        simp only [List.getElem?_concat_length, Option.some.injEq] at hw'
        exact ⟨rfl, hw'.symm⟩
      obtain ⟨rfl, rfl⟩ := hnew
      have hturn := h.turn
      rw [hleft]
      simp only [State.arrives, Wait.due, State.inLine, State.left]
      cases ht : s.turn with
      | free =>
        simp only [Nat.add_zero]
        omega
      | sleeping w =>
        simp only [Nat.succ_mul]
        omega
      | sending w since =>
        simp only [ht] at hturn
        simp only [Nat.succ_mul]
        omega
  turn := h.turn
  sent := h.sent

theorem InTurn.lock (h : InTurn s) {w : Wait} {rest : List Wait} (hturn : s.turn = .free)
    (hqueue : s.queue = w :: rest) : InTurn { s with queue := rest, turn := .sleeping w } where
  queue i v hv := by
    have hnext := h.queue (i + 1) v (by simpa [hqueue] using hv)
    simp only [State.left, hturn, Nat.succ_mul] at hnext ⊢
    omega
  turn := by
    have hfirst := h.queue 0 w (by simp [hqueue])
    simp only [State.left, hturn] at hfirst ⊢
    omega
  sent := h.sent

theorem InTurn.dispatch (h : InTurn s) {w : Wait} (hturn : s.turn = .sleeping w) : InTurn (s.sends w) where
  queue i v hv := by
    have hold := h.queue i v hv
    simp only [State.left, hturn, State.sends] at hold ⊢
    omega
  turn := by simp [State.sends]
  sent a ha := by
    rcases List.mem_append.mp ha with hold | hnew
    · exact h.sent a hold
    · simp only [List.mem_singleton] at hnew
      have hdue := h.turn
      simp only [hturn] at hdue
      exact hnew ▸ hdue.1

theorem InTurn.answered (h : InTurn s) {before : List Attempt} {a : Attempt}
    (hturn : s.turn = .sending a.wait a.started) (hsent : s.sent = before ++ [a]) : InTurn (s.ends before a) where
  queue i v hv := by
    have hold := h.queue i v hv
    simp only [State.left, hturn, State.ends] at hold ⊢
    omega
  turn := trivial
  sent b hb := by
    rcases List.mem_append.mp hb with hold | hnew
    · exact h.sent b (by simp [hsent, hold])
    · simp only [List.mem_singleton] at hnew
      exact hnew ▸ h.sent a (by simp [hsent])

/-- Those behind a call that leaves move up. -/
theorem InTurn.leaveQueue (h : InTurn s) {before after : List Wait} {w : Wait}
    (hqueue : s.queue = before ++ w :: after) : InTurn { s with queue := before ++ after } where
  queue i v hv := by
    have hv' : (before ++ after)[i]? = some v := hv
    have hleft : State.left { s with queue := before ++ after } = s.left := rfl
    rw [hleft]
    rcases Nat.lt_or_ge i before.length with hlt | hge
    · have hsame : s.queue[i]? = some v := by
        rw [hqueue, List.getElem?_append_left hlt]
        rwa [List.getElem?_append_left hlt] at hv'
      exact h.queue i v hsame
    · have hnext : s.queue[i + 1]? = some v := by
        rw [List.getElem?_append_right hge] at hv'
        rw [hqueue, List.getElem?_append_right (by omega), Nat.succ_sub hge]
        exact hv'
      have hlater := h.queue (i + 1) v hnext
      rw [Nat.succ_mul] at hlater
      show s.now + s.left + i * (s.requestTimeout + REQUEST_GAP) ≤ v.due s.requestTimeout
      omega
  turn := h.turn
  sent := h.sent

/-- The next caller need not wait for an attempt that nobody waits for any more. -/
theorem InTurn.leaveTurn (h : InTurn s) (hgap : s.nextDispatch ≤ s.now + REQUEST_GAP) (hturn : s.turn ≠ .free) :
    InTurn { s with turn := .free } where
  queue i v hv := by
    have hold := h.queue i v hv
    cases ht : s.turn with
    | free => exact absurd ht hturn
    | sleeping w | sending w since =>
      simp only [State.left, ht] at hold ⊢
      omega
  turn := trivial
  sent := h.sent

theorem InTurn.tick (h : InTurn s) {now : Nat} (hlt : s.now < now) (hidle : Idle s now) :
    InTurn { s with now := now } where
  queue i v hv := by
    have hold := h.queue i v hv
    cases ht : s.turn with
    | free =>
      simp only [Idle, ht] at hidle
      simp [hidle] at hv
    | sleeping w | sending w since =>
      simp only [Idle, ht] at hidle
      simp only [State.left, ht] at hold ⊢
      omega
  turn := by
    have hturn := h.turn
    cases ht : s.turn with
    | free => trivial
    | sleeping w =>
      simp only [Idle, ht] at hidle hturn ⊢
      omega
    | sending w since =>
      simp only [Idle, ht] at hidle hturn ⊢
      omega
  sent := h.sent

theorem InTurn.step (h : InTurn s) (hinv : Inv s) (hstep : Timely s s') : InTurn s' := by
  obtain ⟨hstep, hidle⟩ := hstep
  cases hstep with
  | arrive => exact h.arrive hinv.gap
  | lock w rest hturn hqueue => exact h.lock hturn hqueue
  | dispatch w hturn => exact h.dispatch hturn
  | answered before a hturn hsent => exact h.answered hturn hsent
  | leaveQueue before after w hqueue => exact h.leaveQueue hqueue
  | leaveTurn hturn => exact h.leaveTurn hinv.gap hturn
  | tick now hle =>
    rcases Nat.eq_or_lt_of_le hle with rfl | hlt
    · exact h
    · exact h.tick hlt (hidle hlt)

theorem TimelyReachable.reachable {requestTimeout : Nat} (h : TimelyReachable requestTimeout s) : Reachable s := by
  obtain ⟨now, hrun⟩ := h
  exact ⟨requestTimeout, now, hrun.lift id fun _ _ hstep => hstep.1⟩

theorem Step.requestTimeout (h : Step s s') : s'.requestTimeout = s.requestTimeout := by cases h <;> rfl

theorem TimelyReachable.inTurn {requestTimeout : Nat} (h : TimelyReachable requestTimeout s) :
    InTurn s ∧ s.requestTimeout = requestTimeout := by
  obtain ⟨now, hrun⟩ := h
  induction hrun with
  | refl => exact ⟨InTurn.new requestTimeout now, rfl⟩
  | tail hrun hstep ih =>
    exact ⟨ih.1.step (TimelyReachable.reachable ⟨now, hrun⟩).inv hstep, hstep.1.requestTimeout.trans ih.2⟩

/-- Nobody starves: a call waits no longer than a whole attempt and its gap for each call that was before it, and one
gap more, whatever the others do, also those that are dropped. -/
theorem requests_in_turn {requestTimeout : Nat} (h : TimelyReachable requestTimeout s) :
    (∀ a ∈ s.sent, a.started ≤ a.wait.due requestTimeout) ∧
      (∀ w ∈ s.queue, s.now ≤ w.due requestTimeout) ∧
      ∀ w, s.turn = .sleeping w → s.now ≤ w.due requestTimeout := by
  obtain ⟨hturn, rfl⟩ := h.inTurn
  refine ⟨hturn.sent, fun w hw => ?_, fun w hw => ?_⟩
  · obtain ⟨i, hi⟩ := List.getElem?_of_mem hw
    have hdue := hturn.queue i w hi
    omega
  · have hdue := hturn.turn
    simp only [hw] at hdue
    exact hdue.1

theorem Timely.of_step (hstep : Step s s') (hnow : s'.now = s.now) : Timely s s' :=
  ⟨hstep, fun hlt => absurd hnow.symm (Nat.ne_of_lt hlt)⟩

/-- The first request takes all of its timeout, and the second goes out the gap after it. -/
theorem requests_in_turn_second : ∃ a : Attempt, a.wait.call = 1 ∧ a.started = 1000 + REQUEST_GAP ∧
    a.started ≤ a.wait.due 1000 := by
  have hnew : Relation.ReflTransGen Timely (.new 1000 0) (.new 1000 0) := .refl
  have hboth := (hnew.tail (.of_step (.arrive _) rfl)).tail (.of_step (.arrive _) rfl)
  have hfirst := (hboth.tail (.of_step (.lock _ _ _ rfl rfl) rfl)).tail (.of_step (.dispatch _ _ rfl (by decide)) rfl)
  have htimeout := (hfirst.tail ⟨.tick _ 1000 (by decide), fun _ => Nat.le_refl _⟩).tail
    (.of_step (.answered _ [] ⟨_, 0, none⟩ rfl rfl) rfl)
  have hsecond := ((htimeout.tail (.of_step (.lock _ _ _ rfl rfl) rfl)).tail
    ⟨.tick _ (1000 + REQUEST_GAP) (by decide), fun _ => Nat.le_refl _⟩).tail
    (.of_step (.dispatch _ _ rfl (by decide)) rfl)
  have hdue := (requests_in_turn ⟨0, hsecond⟩).1 ⟨⟨1, 0, 1⟩, 1000 + REQUEST_GAP, none⟩
    (List.Mem.tail _ (List.Mem.head _))
  exact ⟨_, rfl, rfl, hdue⟩

end

end LightAttester.Pacing
