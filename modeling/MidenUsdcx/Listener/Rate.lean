import MidenUsdcx.Listener.Submit
import MidenUsdcx.Lib.Window
import Mathlib.Data.List.MinMax
/-!
# The rate governor (`circle/rate.rs`, `client.rs:355-370`)

| here | there |
| --- | --- |
| `RateGovernor`, `RateGovernor.new` | `rate.rs:51-91` |
| `RateGovernor.pass` | one turn of the loop of `acquire` (`rate.rs:134-166`) |
| `prune`, `windowWait` | `rate.rs:180-201` |
| `Standing` | where a task is in `CircleClient::execute` (`client.rs:355`) |
| `Process.step`, `Process.run` | any number of tasks over one governor |

A pass through the lock is atomic, and so is a step of a task; what happens between two passes of a
task is a sleep, and nobody relies on its length. A task that is dropped while it sleeps takes no more
steps. Instants are nanoseconds of the monotonic clock, read inside the lock, so the readings of
successive passes do not decrease.

The counter of permits is an `AtomicUsize` there, which wraps after 2^64 permits, and a `Nat` here: what is said of it
holds of fewer permits than that.
-/
namespace WithdrawalListener
open Sliding

/-- `RATE_WINDOW` (`rate.rs:33`). -/
def rateWindow : Nat := 1000000000

/-- `MIN_GOVERNOR_SLEEP` (`rate.rs:37`). -/
def minGovernorSleep : Nat := 1000000

/-- A ceiling as `RateGovernor::new` reads it: at least one. -/
structure Ceiling where
  qps : UInt32
  positive : 0 < qps.toNat

/-- `qps.max(1)` (`rate.rs:86`). -/
def Ceiling.read (qps : UInt32) : Ceiling :=
  if h : 0 < qps.toNat then ⟨qps, h⟩ else ⟨1, Nat.one_pos⟩

/-- `RateGovernor` with its `GovernorState` (`rate.rs:51-75`); a host without an entry has an empty window. -/
structure RateGovernor where
  qpsPerIp : Ceiling
  qpsGlobal : Ceiling
  global : List Nat
  perHost : String → List Nat
  /-- Every permit ever granted, short of 2^64. -/
  granted : Nat

/-- `RateGovernor::new` (`rate.rs:85`). -/
def RateGovernor.new (qpsPerIp qpsGlobal : UInt32) : RateGovernor where
  qpsPerIp := .read qpsPerIp
  qpsGlobal := .read qpsGlobal
  global := []
  perHost := fun _ => []
  granted := 0

/-- `prune` (`rate.rs:180`). -/
def prune (now : Nat) : List Nat → List Nat
  | [] => []
  | oldest :: window => if rateWindow ≤ now - oldest then prune now window else oldest :: window

theorem Ceiling.head_of_full (limit : Ceiling) {window : List Nat} (h : ¬ window.length < limit.qps.toNat) :
    window ≠ [] := by
  rintro rfl
  exact h limit.positive

/-- `window_wait` (`rate.rs:193`). -/
def windowWait (window : List Nat) (limit : Ceiling) (now : Nat) : Option Nat :=
  if h : window.length < limit.qps.toNat then none
  else some (rateWindow - (now - window.head (limit.head_of_full h)))

/-- How a pass through the lock ends: with a permit, stamped, or with a sleep. -/
inductive Pass where
  | granted (stamp : Nat)
  | wait (sleep : Nat)
deriving DecidableEq

/-- `self.perHost` with the window of one host. -/
def RateGovernor.atHost (g : RateGovernor) (host : String) (window : List Nat) : String → List Nat :=
  fun other => if other = host then window else g.perHost other

@[simp] theorem RateGovernor.atHost_self (g : RateGovernor) (host : String) (window : List Nat) :
    g.atHost host window host = window := if_pos rfl

theorem RateGovernor.atHost_ne (g : RateGovernor) {host other : String} (h : other ≠ host) (window : List Nat) :
    g.atHost host window other = g.perHost other := if_neg h

/-- One pass of `acquire` (`rate.rs:136-166`). -/
def RateGovernor.pass (g : RateGovernor) (host : String) (now : Nat) : Pass × RateGovernor :=
  let global := prune now g.global
  let hostWindow := prune now (g.perHost host)
  let hostWait := windowWait hostWindow g.qpsPerIp now
  let globalWait := windowWait global g.qpsGlobal now
  match max hostWait globalWait with
  | none => (.granted now, { g with
      global := global ++ [now], perHost := g.atHost host (hostWindow ++ [now]), granted := g.granted + 1 })
  | some wait => (.wait (max wait minGovernorSleep), { g with
      global := global, perHost := g.atHost host hostWindow })

/-! ## Tasks -/

/-- A permit handed out: for which host, and the instant recorded for it. -/
structure Permit where
  host : String
  stamp : Nat
deriving DecidableEq

/-- The calls that go to Circle, all of them through `execute` (`withdrawal_api.rs:288,363`, `submit.rs:300`). -/
def Call.toCircle : Call → Bool
  | .claimBurns _ | .record _ _ _ => false
  | .postPrepare _ | .postWithdraw _ | .getWithdrawal _ => true

/-- Where a task stands: at its next call, with the permit for a request, or waiting for the response. -/
inductive Standing (α : Type) where
  | running (p : Interact.Prog calls α)
  | permitted (stamp : Nat) (o : Call) (k : o.Answer → Interact.Prog calls α)
  | sent (o : Call) (k : o.Answer → Interact.Prog calls α)

/-- What the outside sees of `execute`: a permit handed to a task, and its request at the transport. -/
inductive Mark where
  | permit (task : Nat) (permit : Permit)
  | request (task : Nat) (host : String) (o : Call)

/-- The tasks of a process, each with the host of its client, and all marks so far. -/
structure Process (α : Type) where
  governor : RateGovernor
  tasks : Nat → Option (String × Standing α)
  marks : List Mark

/-- What happens next: a task starts, is dropped, or goes on; a call is answered from a moment and a ledger. -/
inductive Turn (α : Type) where
  | spawn (task : Nat) (host : String) (p : Interact.Prog calls α)
  | cancel (task : Nat)
  | go (task : Nat) (m : Moment) (l : Ledger)

section
variable {α : Type}

def Process.start (g : RateGovernor) : Process α := ⟨g, fun _ => none, []⟩

def Process.setTask (s : Process α) (task : Nat) (standing : Option (String × Standing α)) :
    Nat → Option (String × Standing α) :=
  fun other => if other = task then standing else s.tasks other

/-- A task that runs goes on to its next call, one for Circle first to the governor (`client.rs:360`). -/
def Process.next (s : Process α) (now task : Nat) (host : String) (m : Moment) (l : Ledger) :
    Interact.Prog calls α → Process α
  | .ret _ => s
  | .call o k =>
    if Call.toCircle o then
      match s.governor.pass host now with
      | (.granted stamp, g) => ⟨g, s.setTask task (some (host, .permitted stamp o k)),
          s.marks ++ [.permit task ⟨host, stamp⟩]⟩
      | (.wait _, g) => { s with governor := g }
    else { s with tasks := s.setTask task (some (host, .running (k (Call.answer m l o).1))) }

def Process.step (s : Process α) (now : Nat) : Turn α → Process α
  | .spawn task host p =>
    match s.tasks task with
    | none => { s with tasks := s.setTask task (some (host, .running p)) }
    | some _ => s
  | .cancel task =>
    match s.tasks task with
    -- nothing is awaited between the permit and the transport
    | some (_, .permitted _ _ _) => s
    | _ => { s with tasks := s.setTask task none }
  | .go task m l =>
    match s.tasks task with
    | none => s
    | some (host, .running p) => s.next now task host m l p
    | some (host, .permitted _ o k) =>
      { s with tasks := s.setTask task (some (host, .sent o k)), marks := s.marks ++ [.request task host o] }
    | some (host, .sent o k) =>
      { s with tasks := s.setTask task (some (host, .running (k (Call.answer m l o).1))) }

/-- The turns one after the other, each with the clock's reading. -/
def Process.run (s : Process α) (turns : List (Nat × Turn α)) : Process α :=
  turns.foldl (fun s turn => s.step turn.1 turn.2) s
end

/-! ## What was handed out -/

def Mark.permit? : Mark → Option Permit
  | .permit _ p => some p
  | .request _ _ _ => none

def Mark.task : Mark → Nat
  | .permit task _ => task
  | .request task _ _ => task

/-- The permits handed out, in order. -/
def Process.permits {α : Type} (s : Process α) : List Permit := s.marks.filterMap Mark.permit?

/-- The marks of one task, in order. -/
def Process.own {α : Type} (s : Process α) (task : Nat) : List Mark := s.marks.filter (·.task == task)

def stamps (permits : List Permit) : List Nat := permits.map (·.stamp)

def stampsAt (host : String) (permits : List Permit) : List Nat := stamps (permits.filter (·.host == host))

/-- Requests of one task, each right after the permit that was taken for it and for the same host. -/
def rounds (task : Nat) (requests : List (Permit × Call)) : List Mark :=
  requests.flatMap fun r => [.permit task r.1, .request task r.1.host r.2]

/-- The permit a task holds and has not spent. -/
def held {α : Type} (task : Nat) : Option (String × Standing α) → List Mark
  | some (host, .permitted stamp _ _) => [.permit task ⟨host, stamp⟩]
  | _ => []

/-! ## One pass -/

theorem prune_eq (now : Nat) (window : List Nat) : prune now window = expire rateWindow now window := by
  induction window with
  | nil => rfl
  | cons oldest window ih =>
    by_cases hold : rateWindow ≤ now - oldest
    · have hle : oldest + rateWindow ≤ now := by unfold rateWindow at hold ⊢; omega
      rw [prune, if_pos hold, ih, expire, expire, List.dropWhile_cons_of_pos (by simpa using hle)]
    · have hlt : ¬ oldest + rateWindow ≤ now := by omega
      rw [prune, if_neg hold, expire, List.dropWhile_cons_of_neg (by simpa using hlt)]

theorem windowWait_eq_none {window : List Nat} {limit : Ceiling} {now : Nat} :
    windowWait window limit now = none ↔ window.length < limit.qps.toNat := by
  unfold windowWait
  by_cases h : window.length < limit.qps.toNat
  · simp only [h, dite_true]
  · simp only [h, dite_false, reduceCtorEq]

/-- Both windows have room, once what is too old is gone. -/
def RateGovernor.Room (g : RateGovernor) (host : String) (now : Nat) : Prop :=
  (expire rateWindow now (g.perHost host)).length < g.qpsPerIp.qps.toNat ∧
    (expire rateWindow now g.global).length < g.qpsGlobal.qps.toNat

/-- All a pass can do: with room, hand out a permit and record it in both windows; else only drop what is too old. -/
theorem pass_cases (g : RateGovernor) (host : String) (now : Nat) :
    (g.Room host now ∧ g.pass host now = (.granted now, { g with
        global := expire rateWindow now g.global ++ [now]
        perHost := g.atHost host (expire rateWindow now (g.perHost host) ++ [now])
        granted := g.granted + 1 })) ∨
      (¬ g.Room host now ∧ ∃ sleep, g.pass host now = (.wait sleep, { g with
        global := expire rateWindow now g.global
        perHost := g.atHost host (expire rateWindow now (g.perHost host)) })) := by
  unfold RateGovernor.Room RateGovernor.pass
  simp only [prune_eq]
  rw [← @windowWait_eq_none (expire rateWindow now (g.perHost host)) g.qpsPerIp now,
    ← @windowWait_eq_none (expire rateWindow now g.global) g.qpsGlobal now]
  cases windowWait (expire rateWindow now (g.perHost host)) g.qpsPerIp now with
  | none =>
    cases windowWait (expire rateWindow now g.global) g.qpsGlobal now with
    | none => exact .inl ⟨⟨rfl, rfl⟩, rfl⟩
    | some wait => exact .inr ⟨fun h => Option.some_ne_none wait h.2, _, rfl⟩
  | some wait =>
    refine .inr ⟨fun h => Option.some_ne_none wait h.1, ?_⟩
    cases windowWait (expire rateWindow now g.global) g.qpsGlobal now with
    | none => exact ⟨_, rfl⟩
    | some wait => exact ⟨_, rfl⟩

/-! ## The governor's books -/

/-- The governor's state against all the permits it handed out, at an instant no earlier than the last. -/
structure Accounts (g : RateGovernor) (permits : List Permit) (now : Nat) : Prop where
  sorted : (stamps permits).Pairwise (· ≤ ·)
  past : ∀ t ∈ stamps permits, t ≤ now
  hostSpaced : ∀ host, Spaced g.qpsPerIp.qps.toNat rateWindow (stampsAt host permits)
  globalSpaced : Spaced g.qpsGlobal.qps.toNat rateWindow (stamps permits)
  hostTracks : ∀ host, Tracks rateWindow now (g.perHost host) (stampsAt host permits)
  globalTracks : Tracks rateWindow now g.global (stamps permits)
  granted : g.granted = permits.length

theorem accounts_new (qpsPerIp qpsGlobal : UInt32) (now : Nat) : Accounts (.new qpsPerIp qpsGlobal) [] now where
  sorted := List.Pairwise.nil
  past := by intro t ht; cases ht
  hostSpaced := fun _ => spaced_nil
  globalSpaced := spaced_nil
  hostTracks := fun _ => tracks_nil
  globalTracks := tracks_nil
  granted := rfl

section
variable {g g' : RateGovernor} {permits : List Permit} {host : String} {now later stamp : Nat}

theorem stamps_concat (p : Permit) : stamps (permits ++ [p]) = stamps permits ++ [p.stamp] := List.map_append ..

theorem stampsAt_concat (p : Permit) :
    stampsAt host (permits ++ [p]) =
      if p.host = host then stampsAt host permits ++ [p.stamp] else stampsAt host permits := by
  unfold stampsAt
  rw [List.filter_append]
  by_cases h : p.host = host
  · rw [if_pos h, List.filter_cons_of_pos (by simpa using h), List.filter_nil, stamps_concat]
  · rw [if_neg h, List.filter_cons_of_neg (by simpa using h), List.filter_nil, List.append_nil]

theorem stampsAt_sublist (host : String) (permits : List Permit) : (stampsAt host permits).Sublist (stamps permits) :=
  List.filter_sublist.map _

theorem Accounts.mono (h : Accounts g permits now) (hlater : now ≤ later) : Accounts g permits later where
  sorted := h.sorted
  past := fun t ht => (h.past t ht).trans hlater
  hostSpaced := h.hostSpaced
  globalSpaced := h.globalSpaced
  hostTracks := fun host => (h.hostTracks host).mono hlater
  globalTracks := h.globalTracks.mono hlater
  granted := h.granted

/-- There is room exactly when both ceilings still hold with the new stamp. -/
theorem Accounts.room_iff (h : Accounts g permits now) (host : String) :
    g.Room host now ↔ Spaced g.qpsPerIp.qps.toNat rateWindow (stampsAt host permits ++ [now]) ∧
      Spaced g.qpsGlobal.qps.toNat rateWindow (stamps permits ++ [now]) := by
  have hhost := (h.hostTracks host).room_iff g.qpsPerIp.positive (h.sorted.sublist (stampsAt_sublist host permits))
    (h.hostSpaced host)
  have hglobal := h.globalTracks.room_iff g.qpsGlobal.positive h.sorted h.globalSpaced
  exact and_congr hhost hglobal

/-- A permit keeps the books. -/
theorem Accounts.grant (h : Accounts g permits now) (hroom : g.Room host now) :
    Accounts { g with
        global := expire rateWindow now g.global ++ [now]
        perHost := g.atHost host (expire rateWindow now (g.perHost host) ++ [now])
        granted := g.granted + 1 } (permits ++ [⟨host, now⟩]) now := by
  obtain ⟨hhost, hglobal⟩ := (h.room_iff host).mp hroom
  refine ⟨?_, ?_, fun other => ?_, ?_, fun other => ?_, ?_, ?_⟩
  · rw [stamps_concat]
    exact List.pairwise_append.mpr ⟨h.sorted, List.pairwise_singleton .., fun t ht u hu => by
      rw [List.mem_singleton.mp hu]; exact h.past t ht⟩
  · intro t ht
    rw [stamps_concat] at ht
    rcases List.mem_append.mp ht with ht | ht
    · exact h.past t ht
    · exact (List.mem_singleton.mp ht).le
  · rw [stampsAt_concat]
    by_cases heq : host = other
    · rw [if_pos heq, ← heq]
      exact hhost
    · rw [if_neg heq]
      exact h.hostSpaced other
  · rw [stamps_concat]
    exact hglobal
  · rw [stampsAt_concat]
    by_cases heq : host = other
    · simp only [← heq, RateGovernor.atHost_self]
      exact (h.hostTracks host).expire.push now
    · simp only [if_neg heq, RateGovernor.atHost_ne g (Ne.symm heq)]
      exact h.hostTracks other
  · rw [stamps_concat]
    exact h.globalTracks.expire.push now
  · rw [List.length_append, List.length_singleton, h.granted]

/-- A pass that has to wait keeps them too. -/
theorem Accounts.wait (h : Accounts g permits now) (host : String) :
    Accounts { g with
        global := expire rateWindow now g.global
        perHost := g.atHost host (expire rateWindow now (g.perHost host)) } permits now where
  sorted := h.sorted
  past := h.past
  hostSpaced := h.hostSpaced
  globalSpaced := h.globalSpaced
  hostTracks := fun other => by
    by_cases heq : other = host
    · simp only [heq, RateGovernor.atHost_self]
      exact (h.hostTracks host).expire
    · simp only [RateGovernor.atHost_ne g heq]
      exact h.hostTracks other
  globalTracks := h.globalTracks.expire
  granted := h.granted

/-- Whatever a pass does, the books are kept and the ceilings stay; a permit carries the instant of its pass. -/
theorem Accounts.pass (h : Accounts g permits now) (host : String) :
    (g.pass host now).2.qpsPerIp = g.qpsPerIp ∧ (g.pass host now).2.qpsGlobal = g.qpsGlobal ∧
      (((g.pass host now).1 = .granted now ∧ Accounts (g.pass host now).2 (permits ++ [⟨host, now⟩]) now) ∨
        ∃ sleep, (g.pass host now).1 = .wait sleep ∧ Accounts (g.pass host now).2 permits now) := by
  rcases pass_cases g host now with ⟨hroom, hpass⟩ | ⟨-, sleep, hpass⟩ <;> rw [hpass]
  · exact ⟨rfl, rfl, .inl ⟨rfl, h.grant hroom⟩⟩
  · exact ⟨rfl, rfl, .inr ⟨sleep, rfl, h.wait host⟩⟩

end

/-! ## Runs -/

section
variable {α : Type} {qpsPerIp qpsGlobal : UInt32} {s : Process α} {now later task other : Nat}

/-- What holds of the governor, of all permits and of every task after any number of turns. -/
structure Governed (qpsPerIp qpsGlobal : UInt32) (now : Nat) (s : Process α) : Prop where
  perIp : s.governor.qpsPerIp = .read qpsPerIp
  overall : s.governor.qpsGlobal = .read qpsGlobal
  accounts : Accounts s.governor s.permits now
  paired : ∀ task, ∃ requests, s.own task = rounds task requests ++ held task (s.tasks task)

theorem governed_start (qpsPerIp qpsGlobal : UInt32) (now : Nat) :
    Governed qpsPerIp qpsGlobal now (Process.start (.new qpsPerIp qpsGlobal) : Process α) where
  perIp := rfl
  overall := rfl
  accounts := accounts_new qpsPerIp qpsGlobal now
  paired := fun _ => ⟨[], rfl⟩

@[simp] theorem setTask_self (s : Process α) (task : Nat) (standing : Option (String × Standing α)) :
    s.setTask task standing task = standing := if_pos rfl

theorem setTask_ne (s : Process α) (h : other ≠ task) (standing : Option (String × Standing α)) :
    s.setTask task standing other = s.tasks other := if_neg h

/-- A task that changes its standing without a mark, holding no permit before or after. -/
theorem Governed.move (h : Governed qpsPerIp qpsGlobal now s) {standing : Option (String × Standing α)}
    (hbefore : held task (s.tasks task) = []) (hafter : held task standing = []) :
    Governed qpsPerIp qpsGlobal now { s with tasks := s.setTask task standing } where
  perIp := h.perIp
  overall := h.overall
  accounts := h.accounts
  paired := fun other => by
    obtain ⟨requests, hown⟩ := h.paired other
    refine ⟨requests, ?_⟩
    by_cases heq : other = task
    · subst heq
      simp only [setTask_self]
      rw [hafter, ← hbefore]
      exact hown
    · simp only [setTask_ne s heq]
      exact hown

theorem own_concat_self (s : Process α) (g : RateGovernor) (tasks : Nat → Option (String × Standing α)) (mark : Mark)
    (h : mark.task = task) : (Process.mk g tasks (s.marks ++ [mark])).own task = s.own task ++ [mark] := by
  unfold Process.own
  rw [List.filter_append, List.filter_cons_of_pos (by simpa using h), List.filter_nil]

theorem own_concat_ne (s : Process α) (g : RateGovernor) (tasks : Nat → Option (String × Standing α)) (mark : Mark)
    (h : mark.task ≠ task) : (Process.mk g tasks (s.marks ++ [mark])).own task = s.own task := by
  unfold Process.own
  rw [List.filter_append, List.filter_cons_of_neg (by simpa using h), List.filter_nil, List.append_nil]

/-- The request goes out under the permit its task holds. -/
theorem Governed.send (h : Governed qpsPerIp qpsGlobal now s) {host : String} {stamp : Nat} {o : Call}
    {k : o.Answer → Interact.Prog calls α} (htask : s.tasks task = some (host, .permitted stamp o k)) :
    Governed qpsPerIp qpsGlobal now { s with
      tasks := s.setTask task (some (host, .sent o k)), marks := s.marks ++ [.request task host o] } where
  perIp := h.perIp
  overall := h.overall
  accounts := by
    have hsame : (s.marks ++ [Mark.request task host o]).filterMap Mark.permit? = s.permits := by
      rw [List.filterMap_append]
      exact List.append_nil _
    rw [Process.permits, hsame]
    exact h.accounts
  paired := fun other => by
    obtain ⟨requests, hown⟩ := h.paired other
    by_cases heq : other = task
    · subst heq
      refine ⟨requests ++ [(⟨host, stamp⟩, o)], ?_⟩
      refine (own_concat_self s _ _ (.request other host o) rfl).trans ?_
      change s.own other ++ _ = _
      rw [hown, htask]
      simp only [setTask_self, rounds, held, List.flatMap_append, List.flatMap_singleton, List.append_assoc,
        List.append_nil, List.cons_append, List.nil_append]
    · refine ⟨requests, ?_⟩
      rw [own_concat_ne s _ _ _ (Ne.symm heq), hown]
      simp only [setTask_ne s heq]

/-- A permit goes to a task that holds none. -/
theorem Governed.permit (h : Governed qpsPerIp qpsGlobal now s) {host : String} {g : RateGovernor} {o : Call}
    {k : o.Answer → Interact.Prog calls α} (hip : g.qpsPerIp = s.governor.qpsPerIp)
    (hall : g.qpsGlobal = s.governor.qpsGlobal) (hbooks : Accounts g (s.permits ++ [⟨host, now⟩]) now)
    (hbefore : held task (s.tasks task) = []) :
    Governed qpsPerIp qpsGlobal now ⟨g, s.setTask task (some (host, .permitted now o k)),
      s.marks ++ [.permit task ⟨host, now⟩]⟩ where
  perIp := hip.trans h.perIp
  overall := hall.trans h.overall
  accounts := by
    have hmore : (s.marks ++ [Mark.permit task ⟨host, now⟩]).filterMap Mark.permit? =
        s.permits ++ [⟨host, now⟩] := List.filterMap_append
    rw [Process.permits, hmore]
    exact hbooks
  paired := fun other => by
    obtain ⟨requests, hown⟩ := h.paired other
    refine ⟨requests, ?_⟩
    by_cases heq : other = task
    · subst heq
      refine (own_concat_self s _ _ (.permit other ⟨host, now⟩) rfl).trans ?_
      change s.own other ++ _ = _
      rw [hown, hbefore, List.append_nil]
      simp only [setTask_self, held]
    · rw [own_concat_ne s _ _ _ (Ne.symm heq), hown]
      simp only [setTask_ne s heq]

/-- A running task goes on: to its next call, through the governor if that is for Circle. -/
theorem Governed.next (h : Governed qpsPerIp qpsGlobal now s) {host : String} {p : Interact.Prog calls α} (m : Moment)
    (l : Ledger) (htask : s.tasks task = some (host, .running p)) :
    Governed qpsPerIp qpsGlobal now (s.next now task host m l p) := by
  have hbefore : held task (s.tasks task) = [] := by rw [htask]; rfl
  cases p with
  | ret a => exact h
  | call o k =>
    by_cases hcircle : Call.toCircle o = true
    · simp only [Process.next, hcircle, if_true]
      obtain ⟨hip, hall, hpass⟩ := h.accounts.pass host
      rcases hres : s.governor.pass host now with ⟨result, g⟩
      rw [hres] at hip hall hpass
      rcases hpass with ⟨rfl, hbooks⟩ | ⟨sleep, rfl, hbooks⟩
      · exact h.permit hip hall hbooks hbefore
      · exact ⟨hip.trans h.perIp, hall.trans h.overall, hbooks, h.paired⟩
    · simp only [Process.next, hcircle, Bool.false_eq_true, if_false]
      exact h.move hbefore rfl

/-- Every turn keeps it, at any instant that is not earlier. -/
theorem Governed.step (h : Governed qpsPerIp qpsGlobal now s) (hlater : now ≤ later) (turn : Turn α) :
    Governed qpsPerIp qpsGlobal later (s.step later turn) := by
  have h : Governed qpsPerIp qpsGlobal later s := ⟨h.perIp, h.overall, h.accounts.mono hlater, h.paired⟩
  cases turn with
  | spawn task host p =>
    simp only [Process.step]
    cases htask : s.tasks task with
    | none => exact h.move (by rw [htask]; rfl) rfl
    | some standing => exact h
  | cancel task =>
    simp only [Process.step]
    rcases htask : s.tasks task with _ | ⟨host, p | ⟨stamp, o, k⟩ | ⟨o, k⟩⟩
    · exact h.move (by rw [htask]; rfl) rfl
    · exact h.move (by rw [htask]; rfl) rfl
    · exact h
    · exact h.move (by rw [htask]; rfl) rfl
  | go task m l =>
    simp only [Process.step]
    rcases htask : s.tasks task with _ | ⟨host, p | ⟨stamp, o, k⟩ | ⟨o, k⟩⟩
    · exact h
    · exact h.next m l htask
    · exact h.send htask
    · exact h.move (by rw [htask]; rfl) rfl

/-- And so does every run under a clock that does not go back. -/
theorem Governed.run {turns : List (Nat × Turn α)} (h : Governed qpsPerIp qpsGlobal now s)
    (hstart : ∀ turn ∈ turns, now ≤ turn.1) (hclock : (turns.map Prod.fst).Pairwise (· ≤ ·))
    (hlater : now ≤ later) (hend : ∀ turn ∈ turns, turn.1 ≤ later) :
    Governed qpsPerIp qpsGlobal later (s.run turns) := by
  induction turns generalizing s now with
  | nil => exact ⟨h.perIp, h.overall, h.accounts.mono hlater, h.paired⟩
  | cons turn turns ih =>
    rw [List.map_cons, List.pairwise_cons] at hclock
    have hstep := h.step (hstart turn List.mem_cons_self) turn.2
    exact ih hstep (fun t ht => hclock.1 t.1 (List.mem_map_of_mem ht)) hclock.2 (hend turn List.mem_cons_self)
      fun t ht => hend t (List.mem_cons_of_mem turn ht)

/-- A pass that has to wait leaves no stamp behind: both windows are what was left of them, nothing else changes. -/
theorem pass_waits {g g' : RateGovernor} {host : String} {sleep : Nat} (h : g.pass host now = (.wait sleep, g')) :
    g'.global <:+ g.global ∧ (∀ other, g'.perHost other <:+ g.perHost other) ∧ g'.granted = g.granted := by
  rcases pass_cases g host now with ⟨-, hpass⟩ | ⟨-, sleep', hpass⟩
  · rw [hpass] at h
    cases h
  · rw [hpass] at h
    cases h
    refine ⟨List.dropWhile_suffix _, fun other => ?_, rfl⟩
    by_cases heq : other = host
    · simp only [heq, RateGovernor.atHost_self]
      exact List.dropWhile_suffix _
    · simp only [RateGovernor.atHost_ne g heq]
      exact List.suffix_refl _

theorem pass_grants_iff {g : RateGovernor} {host : String} : (g.pass host now).1 = .granted now ↔ g.Room host now := by
  rcases pass_cases g host now with ⟨hroom, hpass⟩ | ⟨hfull, sleep, hpass⟩ <;> rw [hpass]
  · exact iff_of_true rfl hroom
  · exact iff_of_false (fun h => by cases h) hfull

theorem Ceiling.read_toNat (qps : UInt32) : (Ceiling.read qps).qps.toNat = max 1 qps.toNat := by
  unfold Ceiling.read
  by_cases h : 0 < qps.toNat
  · rw [dif_pos h, Nat.max_eq_right h]
  · have hzero : qps.toNat = 0 := Nat.eq_zero_of_not_pos h
    rw [dif_neg h, hzero]
    rfl

/-- Over any turns of any number of tasks and hosts, dropped wherever they sleep, both ceilings hold of the
permits handed out, the counter counts them, a pass waits without a trace and hands out a permit exactly when
the ceilings allow it, and every request of a task comes right after a permit of its own. -/
theorem ceilings_hold {α : Type} (qpsPerIp qpsGlobal : UInt32) (turns : List (Nat × Turn α))
    (hclock : (turns.map Prod.fst).Pairwise (· ≤ ·)) :
    let s := (Process.start (.new qpsPerIp qpsGlobal)).run turns
    (∀ host, Spaced (max 1 qpsPerIp.toNat) rateWindow (stampsAt host s.permits)) ∧
    Spaced (max 1 qpsGlobal.toNat) rateWindow (stamps s.permits) ∧
    (stamps s.permits).Pairwise (· ≤ ·) ∧
    s.governor.granted = s.permits.length ∧
    (∀ host now, (∀ turn ∈ turns, turn.1 ≤ now) →
      (∀ sleep g, s.governor.pass host now = (.wait sleep, g) →
        g.global <:+ s.governor.global ∧ (∀ other, g.perHost other <:+ s.governor.perHost other) ∧
          g.granted = s.governor.granted) ∧
      ((s.governor.pass host now).1 = .granted now ↔
        Spaced (max 1 qpsPerIp.toNat) rateWindow (stampsAt host s.permits ++ [now]) ∧
          Spaced (max 1 qpsGlobal.toNat) rateWindow (stamps s.permits ++ [now]))) ∧
    ∀ task, ∃ requests, s.own task = rounds task requests ++ held task (s.tasks task) := by
  intro s
  have hgoverned : ∀ now, (∀ turn ∈ turns, turn.1 ≤ now) → Governed qpsPerIp qpsGlobal now s := fun now hend =>
    (governed_start qpsPerIp qpsGlobal 0).run (fun _ _ => Nat.zero_le _) hclock (Nat.zero_le now) hend
  have hip : (Ceiling.read qpsPerIp).qps.toNat = max 1 qpsPerIp.toNat := Ceiling.read_toNat qpsPerIp
  have hall : (Ceiling.read qpsGlobal).qps.toNat = max 1 qpsGlobal.toNat := Ceiling.read_toNat qpsGlobal
  obtain ⟨last, hlast⟩ : ∃ last, ∀ turn ∈ turns, turn.1 ≤ last :=
    ⟨(turns.map Prod.fst).foldr max 0, fun turn ht => List.le_max_of_le' 0 (List.mem_map_of_mem ht) le_rfl⟩
  have hs := hgoverned last hlast
  refine ⟨fun host => ?_, ?_, hs.accounts.sorted, hs.accounts.granted,
    fun host now hnow => ⟨fun sleep g => pass_waits, ?_⟩, hs.paired⟩
  · rw [← hip, ← hs.perIp]
    exact hs.accounts.hostSpaced host
  · rw [← hall, ← hs.overall]
    exact hs.accounts.globalSpaced
  · have hnow := hgoverned now hnow
    rw [pass_grants_iff, hnow.accounts.room_iff host, hnow.perIp, hnow.overall, hip, hall]

end

namespace Rush

def id : Uuid := ⟨"00000000-0000-0000-0000-000000000000", by decide⟩

def poll : Interact.Prog calls Unit := .call (.getWithdrawal id) fun _ => .ret ()

def go (task : Nat) : Turn Unit := .go task ⟨[], 0, false, .failed⟩ .empty

/-- Two hosts under ceilings of none and one: the second task sleeps until the second is over. -/
def turns : List (Nat × Turn Unit) :=
  [(0, .spawn 0 "one" poll), (0, .spawn 1 "two" poll), (5, go 0), (6, go 0), (7, go 1), (1000000004, go 1),
    (1000000005, go 1), (1000000005, go 1)]

end Rush

theorem ceilings_hold_rush :
    stamps (Process.run (Process.start (.new 0 1)) Rush.turns).permits = [5, 1000000005] ∧
      Spaced (max 1 (1 : UInt32).toNat) rateWindow (stamps (Process.run (Process.start (.new 0 1)) Rush.turns).permits) :=
  ⟨by decide, (ceilings_hold 0 1 Rush.turns (by decide)).2.1⟩

end WithdrawalListener
