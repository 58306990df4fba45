import MidenUsdcx.Attester.Holds
import MidenUsdcx.Attester.Calls
import Mathlib.Data.List.Dedup
/-!
# Releasing holds offline (`store.rs:332-458`, `attester.rs:703`)

`release_holds` goes through the named notes one by one inside one transaction. Each release looks only at its own note,
so one that fails is one that would have failed first, and what the loop leaves can be said note by note (`Batch`).

| here | there |
| --- | --- |
| `holdsBurn` | `SELECT 1 FROM burns WHERE note_id = ?1 AND hold_reason IS NOT NULL` |
| `holdsWithdrawal` | `SELECT 1 FROM submissions WHERE note_id = ?1 AND status = 'HELD' AND withdrawal_id IS NULL` |
| `releaseEvent` | the history row `release_hold` writes before it changes anything |
-/
namespace LightAttester
open Checked Interact Keyed Store

namespace Store

def holdsBurn (s : Store) (n : NoteId) : Bool := (s.burn n).any fun b => b.holdReason.isSome

def holdsWithdrawal (s : Store) (n : NoteId) : Bool :=
  (s.row n).any fun r => decide (r.status = .held) && r.withdrawalId.isNone

/-- The row of a release, as the burn and its submission stood before it. -/
def releaseEvent (s : Store) (n : NoteId) : Option EventRow :=
  (s.burn n).map fun b => eventOf b (s.row n) (if b.holdReason.isSome then .burnReleased else .operatorRelease) none

end Store

variable {C : Crates} {s s1 s' : Store} {n m : NoteId}

/-! ## One note -/

/-- What a release leaves of the note: a held burn without its hold, or a burn without its submission. -/
structure GivenUp (s s' : Store) (n : NoteId) : Prop where
  burn : s'.burn n = (s.burn n).map fun b => { b with holdReason := none }
  row : s'.row n = if s.holdsBurn n then s.row n else none

/-- A held submission is held for the one reason there is, and its burn is not held. -/
theorem releasable_of_holds (h : NoteInv C (s.burn n) (s.row n)) (hheld : s.holdsWithdrawal n = true) :
    s.releasableRow n = true ∧ ∃ b, s.burn n = some b ∧ b.holdReason = none := by
  obtain ⟨r, hr, hcase⟩ := (Option.any_eq_true _ _).1 hheld
  obtain ⟨hstatus, hid⟩ := Bool.and_eq_true_iff.1 hcase
  have hstatus : r.status = .held := of_decide_eq_true hstatus
  obtain ⟨hok, hnoId, b, hb, -⟩ := h.row r hr
  have hreason : r.holdReason = some .httpRejected := by
    have hsome := (rowOk_of_submissionOk hok hnoId).held.1 hstatus
    obtain ⟨reason, hreason⟩ := Option.isSome_iff_exists.1 hsome
    cases reason
    exact hreason
  refine ⟨?_, b, hb, ?_⟩
  · simp only [releasableRow, hr, Option.any_some, hstatus, hreason, hid, decide_true, Bool.and_self]
  · cases hhold : b.holdReason with
    | none => rfl
    | some reason =>
      have hexpired := (h.hold b hb (by rw [hhold]; rfl)).2 r hr
      rw [hstatus] at hexpired
      cases hexpired

theorem holdsBurn_of_burn {b : BurnRow} (hb : s.burn n = some b) : s.holdsBurn n = b.holdReason.isSome := by
  rw [holdsBurn, hb, Option.any_some]

theorem recordEvent_of_burn {b : BurnRow} {kind : EventKind} {cs : Option String} (hb : s.burn n = some b) :
    s.recordEvent n kind cs = .ok (s.addEvent (eventOf b (s.row n) kind cs)) := by
  rw [recordEvent, hb]
  rfl

/-- What `release_hold` does with a note, once an operator vouches for it. -/
theorem releaseHold_cases (h : NoteInv C (s.burn n) (s.row n)) :
    (∃ s', s.releaseHold n true = .ok (s', 1, 0) ∧ s.holdsBurn n = true ∧ s.holdsWithdrawal n = false) ∨
    (∃ s', s.releaseHold n true = .ok (s', 0, 1) ∧ s.holdsBurn n = false ∧ s.holdsWithdrawal n = true) ∨
    (s.releaseHold n true = .error (.release (.notHeld n)) ∧ s.holdsBurn n = false ∧ s.holdsWithdrawal n = false) := by
  cases hburn : s.holdsBurn n with
  | true =>
    obtain ⟨b, hb, hheld⟩ := (Option.any_eq_true _ _).1 hburn
    have hfilter : ((s.burn n).filter fun b => b.holdReason.isSome) = some b := Option.filter_eq_some_iff.2 ⟨hb, hheld⟩
    have hrow : s.holdsWithdrawal n = false := by
      rw [Bool.eq_false_iff]
      intro hrow
      obtain ⟨-, b', hb', hnone⟩ := releasable_of_holds h hrow
      obtain rfl : b = b' := Option.some.inj (hb.symm.trans hb')
      rw [hnone] at hheld
      cases hheld
    refine .inl ⟨(s.addEvent (eventOf b (s.row n) .burnReleased none)).putBurn { b with holdReason := none }, ?_, rfl, hrow⟩
    simp only [releaseHold, hfilter, recordEvent_of_burn hb]
    rfl
  | false =>
    have hfilter : ((s.burn n).filter fun b => b.holdReason.isSome) = none := by
      rw [Option.filter_eq_none_iff]
      intro b hb
      rw [← holdsBurn_of_burn hb, hburn]
      exact Bool.false_ne_true
    cases hrow : s.holdsWithdrawal n with
    | true =>
      obtain ⟨hreleasable, b, hb, -⟩ := releasable_of_holds h hrow
      refine .inr (.inl ⟨(s.addEvent (eventOf b (s.row n) .operatorRelease none)).dropRow n, ?_, rfl, rfl⟩)
      simp only [releaseHold, hfilter, ensure, hreleasable, if_true, recordEvent_of_burn hb]
      rfl
    | false =>
      have hreleasable : s.releasableRow n = false := by
        cases hr : s.row n with
        | none => rw [releasableRow, hr, Option.any_none]
        | some r =>
          rw [holdsWithdrawal, hr, Option.any_some] at hrow
          rw [releasableRow, hr, Option.any_some]
          cases hstatus : decide (r.status = .held) with
          | false => simp
          | true =>
            rw [hstatus, Bool.true_and] at hrow
            rw [hrow, Bool.and_false]
      refine .inr (.inr ⟨?_, rfl, rfl⟩)
      simp only [releaseHold, hfilter, ensure, hreleasable, Bool.false_eq_true, if_false]
      rfl

theorem releaseHold_givenUp {flag : Bool} {k : Nat × Nat} (h : s.releaseHold n flag = .ok (s', k)) :
    GivenUp s s' n := by
  rcases releaseHold_ok h with ⟨b, hb, hheld, rfl⟩ | ⟨b, r, hb, hnone, hr, -, -, rfl⟩
  · constructor
    · rw [hb]
      exact putBurn_burn_self (b := { b with holdReason := none }) (burn_noteId (s := s) (b := b) hb)
    · rw [holdsBurn_of_burn hb, if_pos hheld]
      rfl
  · constructor
    · show s.burn n = _
      rw [hb, Option.map_some, ← hnone]
    · rw [holdsBurn_of_burn hb, hnone, dropRow_row, if_pos rfl]
      rfl

theorem releaseHold_event {flag : Bool} {k : Nat × Nat} (h : s.releaseHold n flag = .ok (s', k)) :
    ∃ e, s.releaseEvent n = some e ∧ s'.events = s.events ++ [e] := by
  rcases releaseHold_ok h with ⟨b, hb, hheld, rfl⟩ | ⟨b, r, hb, hnone, hr, -, -, rfl⟩
  · refine ⟨eventOf b (s.row n) .burnReleased none, ?_, rfl⟩
    rw [releaseEvent, hb, Option.map_some, if_pos hheld]
  · refine ⟨eventOf b (some r) .operatorRelease none, ?_, rfl⟩
    rw [releaseEvent, hb, Option.map_some, hnone, hr]
    rfl

/-! ## The named notes -/

/-- What the loop leaves: each named note given up and written down once, in order, and nothing else touched. -/
structure Batch (s s' : Store) (ns : List NoteId) : Prop where
  named : ∀ n ∈ ns, GivenUp s s' n
  others : ∀ m, m ∉ ns → s'.burn m = s.burn m ∧ s'.row m = s.row m
  history : s'.events = s.events ++ ns.filterMap s.releaseEvent
  chain : s'.state = s.state ∧ s'.version = s.version

/-- The note stands alike in both stores. -/
structure Alike (s s1 : Store) (m : NoteId) : Prop where
  burn : s1.burn m = s.burn m
  row : s1.row m = s.row m

theorem Alike.holdsBurn (h : Alike s s1 m) : s1.holdsBurn m = s.holdsBurn m := by
  unfold Store.holdsBurn
  rw [h.burn]

theorem Alike.holdsWithdrawal (h : Alike s s1 m) : s1.holdsWithdrawal m = s.holdsWithdrawal m := by
  unfold Store.holdsWithdrawal
  rw [h.row]

theorem Alike.releaseEvent (h : Alike s s1 m) : s1.releaseEvent m = s.releaseEvent m := by
  unfold Store.releaseEvent
  rw [h.burn, h.row]

theorem Alike.givenUp (h : Alike s s1 m) (hgiven : GivenUp s1 s' m) : GivenUp s s' m where
  burn := by rw [hgiven.burn, h.burn]
  row := by rw [hgiven.row, h.holdsBurn, h.row]

theorem releaseHold_alike {flag : Bool} {k : Nat × Nat} (h : s.releaseHold n flag = .ok (s1, k)) (hm : m ≠ n) :
    Alike s s1 m := ⟨((releaseHold_only h).others m hm).1, ((releaseHold_only h).others m hm).2⟩

/-- One release, then a batch that does not name its note again. -/
theorem Batch.cons {ns : List NoteId} {flag : Bool} {k : Nat × Nat} (hfirst : s.releaseHold n flag = .ok (s1, k))
    (hn : n ∉ ns) (hrest : Batch s1 s' ns) : Batch s s' (n :: ns) := by
  have hne : ∀ m ∈ ns, m ≠ n := fun m hm heq => hn (heq ▸ hm)
  constructor
  · intro m hm
    rcases List.mem_cons.1 hm with rfl | hm
    · have hgiven := releaseHold_givenUp hfirst
      obtain ⟨hburn, hrow⟩ := hrest.others m hn
      exact ⟨hburn.trans hgiven.burn, hrow.trans hgiven.row⟩
    · exact (releaseHold_alike hfirst (hne m hm)).givenUp (hrest.named m hm)
  · intro m hm
    have halike := releaseHold_alike hfirst (List.ne_of_not_mem_cons hm)
    obtain ⟨hburn, hrow⟩ := hrest.others m (List.not_mem_of_not_mem_cons hm)
    exact ⟨hburn.trans halike.burn, hrow.trans halike.row⟩
  · obtain ⟨e, he, hevents⟩ := releaseHold_event hfirst
    have hsame : ns.filterMap s1.releaseEvent = ns.filterMap s.releaseEvent :=
      List.filterMap_congr fun m hm => (releaseHold_alike hfirst (hne m hm)).releaseEvent
    rw [hrest.history, hsame, hevents, List.filterMap_cons_some he, List.append_assoc]
    rfl
  · have hchain := (releaseHold_only hfirst).chain
    exact ⟨hrest.chain.1.trans hchain.1, hrest.chain.2.trans hchain.2⟩

/-- What the loop of `release_holds` comes to: it gets through with the holds of each kind counted, or stops at a note
without one. -/
inductive Looped (s : Store) (burns withdrawals : Nat) (ns : List NoteId) : Prop where
  | released (s' : Store) (holds : ∀ n ∈ ns, s.holdsBurn n = true ∨ s.holdsWithdrawal n = true) (batch : Batch s s' ns)
    (ran : s.releaseEach burns withdrawals ns =
      .ok (s', burns + ns.countP s.holdsBurn, withdrawals + ns.countP s.holdsWithdrawal))
  | refused (n : NoteId) (named : n ∈ ns) (burn : s.holdsBurn n = false) (row : s.holdsWithdrawal n = false)
    (ran : s.releaseEach burns withdrawals ns = .error (.release (.notHeld n)))

theorem Looped.cons {ns : List NoteId} {burns withdrawals burn withdrawal : Nat} (hn : n ∉ ns)
    (hfirst : s.releaseHold n true = .ok (s1, burn, withdrawal))
    (hholds : s.holdsBurn n = true ∨ s.holdsWithdrawal n = true)
    (hburn : burn = if s.holdsBurn n = true then 1 else 0)
    (hwithdrawal : withdrawal = if s.holdsWithdrawal n = true then 1 else 0)
    (hrest : Looped s1 (burns + burn) (withdrawals + withdrawal) ns) : Looped s burns withdrawals (n :: ns) := by
  have halike : ∀ m ∈ ns, Alike s s1 m := fun m hm => releaseHold_alike hfirst fun heq => hn (heq ▸ hm)
  have hran : s.releaseEach burns withdrawals (n :: ns) = s1.releaseEach (burns + burn) (withdrawals + withdrawal) ns := by
    rw [releaseEach, hfirst]
    rfl
  cases hrest with
  | released s' holds batch ran =>
    refine .released s' (fun m hm => ?_) (batch.cons hfirst hn) ?_
    · rcases List.mem_cons.1 hm with rfl | hm
      · exact hholds
      · rw [← (halike m hm).holdsBurn, ← (halike m hm).holdsWithdrawal]
        exact holds m hm
    · have hcountBurn : ns.countP s1.holdsBurn = ns.countP s.holdsBurn :=
        List.countP_congr fun m hm => by rw [(halike m hm).holdsBurn]
      have hcountRow : ns.countP s1.holdsWithdrawal = ns.countP s.holdsWithdrawal :=
        List.countP_congr fun m hm => by rw [(halike m hm).holdsWithdrawal]
      rw [hran, ran, hcountBurn, hcountRow, List.countP_cons, List.countP_cons, hburn, hwithdrawal]
      congr 3
      · omega
      · omega
  | refused m named hb hw ran =>
    rw [(halike m named).holdsBurn] at hb
    rw [(halike m named).holdsWithdrawal] at hw
    exact .refused m (List.mem_cons_of_mem n named) hb hw (hran.trans ran)

theorem looped {ns : List NoteId} : ∀ {s : Store} {burns withdrawals : Nat}, ns.Nodup →
    (∀ n ∈ ns, NoteInv C (s.burn n) (s.row n)) → Looped s burns withdrawals ns := by
  induction ns with
  | nil =>
    intro s burns withdrawals _ _
    refine .released s (fun n hn => absurd hn List.not_mem_nil) ⟨?_, ?_, ?_, ⟨rfl, rfl⟩⟩ rfl
    · exact fun n hn => absurd hn List.not_mem_nil
    · exact fun m _ => ⟨rfl, rfl⟩
    · exact (List.append_nil _).symm
  | cons n ns ih =>
    intro s burns withdrawals hnodup hinv
    obtain ⟨hn, hnodup⟩ := List.nodup_cons.1 hnodup
    have hrest : ∀ {s1 : Store} {k : Nat × Nat}, s.releaseHold n true = .ok (s1, k) →
        ∀ m ∈ ns, NoteInv C (s1.burn m) (s1.row m) := by
      intro s1 k hfirst m hm
      have halike := releaseHold_alike hfirst fun heq : m = n => hn (heq ▸ hm)
      rw [halike.burn, halike.row]
      exact hinv m (List.mem_cons_of_mem n hm)
    rcases releaseHold_cases (hinv n List.mem_cons_self) with
      ⟨s1, hfirst, hburn, hrow⟩ | ⟨s1, hfirst, hburn, hrow⟩ | ⟨hfirst, hburn, hrow⟩
    · exact .cons hn hfirst (.inl hburn) (by rw [if_pos hburn]) (by rw [hrow]; rfl) (ih hnodup (hrest hfirst))
    · exact .cons hn hfirst (.inr hrow) (by rw [hburn]; rfl) (by rw [if_pos hrow]) (ih hnodup (hrest hfirst))
    · refine .refused n List.mem_cons_self hburn hrow ?_
      rw [releaseEach, hfirst]
      rfl

/-! ## The set of notes -/

theorem mem_of_mem_noteSet {ns : List NoteId} (h : n ∈ noteSet ns) : n ∈ ns := by
  have hfold : ∀ (ns set : List NoteId), n ∈ ns.foldl (fun set n => Keyed.putRow id n set) set → n ∈ ns ∨ n ∈ set := by
    intro ns
    induction ns with
    | nil => exact fun set hn => .inr hn
    | cons m ns ih =>
      intro set hn
      rcases ih _ hn with hn | hn
      · exact .inl (List.mem_cons_of_mem m hn)
      · rcases mem_putRow id hn with rfl | hn
        · exact .inl List.mem_cons_self
        · exact .inr hn
  exact (hfold ns [] h).resolve_right List.not_mem_nil

theorem noteSet_nodup (ns : List NoteId) : (noteSet ns).Nodup := by
  have hfold : ∀ (ns set : List NoteId), set.Pairwise (fun a b => id a < id b) →
      (ns.foldl (fun set n => Keyed.putRow id n set) set).Pairwise fun a b => id a < id b := by
    intro ns
    induction ns with
    | nil => exact fun set hset => hset
    | cons m ns ih => exact fun set hset => ih _ (putRow_sorted id m hset)
  exact (hfold ns [] .nil).imp fun h => ne_of_lt h

/-- The set is the list without its repetitions. -/
theorem noteSet_perm (ns : List NoteId) : (noteSet ns).Perm ns.dedup :=
  (List.perm_ext_iff_of_nodup (noteSet_nodup ns) (List.nodup_dedup ns)).2 fun n => by
    rw [List.mem_dedup]
    exact ⟨mem_of_mem_noteSet, mem_noteSet⟩

/-! ## What a release writes down -/

/-- The row says why the note was held. -/
def RecordsHold (s : Store) (n : NoteId) (e : EventRow) : Prop :=
  (∃ b, s.burn n = some b ∧ b.holdReason.isSome ∧ e.kind = .burnReleased ∧ e.burnHoldReason = b.holdReason) ∨
    ∃ r, s.row n = some r ∧ r.status = .held ∧ r.holdReason.isSome ∧ e.kind = .operatorRelease ∧
      e.holdReason = r.holdReason

theorem releaseEvent_noteId {e : EventRow} (h : s.releaseEvent n = some e) : e.noteId = n := by
  obtain ⟨b, hb, rfl⟩ := Option.map_eq_some_iff.1 h
  exact burn_noteId hb

theorem releaseEvent_records (hinv : NoteInv C (s.burn n) (s.row n))
    (h : s.holdsBurn n = true ∨ s.holdsWithdrawal n = true) :
    ∃ e, s.releaseEvent n = some e ∧ RecordsHold s n e := by
  rcases h with hburn | hrow
  · obtain ⟨b, hb, hheld⟩ := (Option.any_eq_true _ _).1 hburn
    refine ⟨eventOf b (s.row n) .burnReleased none, ?_, .inl ⟨b, hb, hheld, rfl, rfl⟩⟩
    rw [releaseEvent, hb, Option.map_some, if_pos hheld]
  · obtain ⟨hreleasable, b, hb, hnone⟩ := releasable_of_holds hinv hrow
    obtain ⟨r, hr, hcase⟩ := (Option.any_eq_true _ _).1 hreleasable
    simp only [Bool.and_eq_true, decide_eq_true_eq] at hcase
    obtain ⟨⟨hstatus, hreason⟩, -⟩ := hcase
    refine ⟨eventOf b (some r) .operatorRelease none, ?_, .inr ⟨r, hr, hstatus, by rw [hreason]; rfl, rfl, rfl⟩⟩
    rw [releaseEvent, hb, Option.map_some, hnone, hr]
    rfl

/-- Of the rows of a batch, one is about each of its notes. -/
theorem filter_releaseEvent {ns : List NoteId} {e : EventRow} (hnodup : ns.Nodup) (hn : n ∈ ns)
    (he : s.releaseEvent n = some e) : (ns.filterMap s.releaseEvent).filter (fun e => e.noteId == n) = [e] := by
  have hnone : ∀ ms : List NoteId, n ∉ ms → (ms.filterMap s.releaseEvent).filter (fun e => e.noteId == n) = [] := by
    intro ms hms
    rw [List.filter_eq_nil_iff]
    intro e' he' heq
    obtain ⟨m, hm, hevent⟩ := List.mem_filterMap.1 he'
    rw [releaseEvent_noteId hevent] at heq
    exact hms (beq_iff_eq.1 heq ▸ hm)
  induction ns with
  | nil => cases hn
  | cons m ns ih =>
    obtain ⟨hm, hnodup⟩ := List.nodup_cons.1 hnodup
    rcases List.mem_cons.1 hn with rfl | hn
    · rw [List.filterMap_cons_some he, List.filter_cons_of_pos (by rw [releaseEvent_noteId he]; exact beq_self_eq_true n),
        hnone ns hm]
    · have hne : m ≠ n := fun heq => hm (heq ▸ hn)
      cases hevent : s.releaseEvent m with
      | none =>
        rw [List.filterMap_cons_none hevent]
        exact ih hnodup hn
      | some e' =>
        have hother : ¬ (e'.noteId == n) = true := by
          rw [releaseEvent_noteId hevent, beq_iff_eq]
          exact hne
        rw [List.filterMap_cons_some hevent, List.filter_cons_of_neg (p := fun e : EventRow => e.noteId == n) hother]
        exact ih hnodup hn

/-! ## The offline command -/

/-- What a release of the named holds leaves, and what it returns. -/
structure ReleasedAll (s s' : Store) (notes : List NoteId) (burns withdrawals : Nat) : Prop where
  /-- A held burn loses its hold and nothing else. -/
  burn : ∀ n ∈ notes, ∀ b, s.burn n = some b → b.holdReason.isSome →
    s'.burn n = some { b with holdReason := none } ∧ s'.row n = s.row n
  /-- A held withdrawal loses its row, and its burn stays. -/
  withdrawal : ∀ n ∈ notes, ∀ r, s.row n = some r → r.status = .held → s'.row n = none ∧ s'.burn n = s.burn n
  /-- The history keeps its rows and gains one for each note, with the reason of the hold. -/
  history : ∃ added, s'.events = s.events ++ added ∧ (∀ e ∈ added, e.noteId ∈ notes) ∧
    ∀ n ∈ notes, ∃ e, added.filter (fun e => e.noteId == n) = [e] ∧ RecordsHold s n e
  /-- A note named twice counts once. -/
  counts : burns = notes.dedup.countP s.holdsBurn ∧ withdrawals = notes.dedup.countP s.holdsWithdrawal
  others : ∀ m, m ∉ notes → s'.burn m = s.burn m ∧ s'.row m = s.row m
  chain : s'.state = s.state ∧ s'.version = s.version

structure OfflineRelease (C : Crates) (w : World) (notes : List NoteId) : Prop where
  succeeds : (∃ s' k, w.store.releaseHolds notes = .ok (s', k)) ↔
    ∀ n ∈ notes, (∃ b, w.store.burn n = some b ∧ b.holdReason.isSome) ∨
      ∃ r, w.store.row n = some r ∧ r.status = .held ∧ r.withdrawalId = none
  released : ∀ s' burns withdrawals, w.store.releaseHolds notes = .ok (s', burns, withdrawals) →
    ReleasedAll w.store s' notes burns withdrawals
  /-- The command leaves the store of a release that went through, or the one it found: also when it fails, or crashes at
  any call. -/
  whole : ∀ faucet anchor env,
    (Lifetime.run C w (.releaseHolds faucet anchor notes env)).store = w.store ∨
      ∃ k, w.store.releaseHolds notes = .ok ((Lifetime.run C w (.releaseHolds faucet anchor notes env)).store, k)

theorem holds_iff : s.holdsBurn n = true ∨ s.holdsWithdrawal n = true ↔
    (∃ b, s.burn n = some b ∧ b.holdReason.isSome) ∨ ∃ r, s.row n = some r ∧ r.status = .held ∧ r.withdrawalId = none := by
  unfold holdsBurn holdsWithdrawal
  rw [Option.any_eq_true, Option.any_eq_true]
  simp only [Bool.and_eq_true, decide_eq_true_eq, Option.isNone_iff_eq_none]

theorem Batch.releasedAll {notes : List NoteId} (hinv : StoreInv C s)
    (hholds : ∀ n ∈ noteSet notes, s.holdsBurn n = true ∨ s.holdsWithdrawal n = true) (h : Batch s s' (noteSet notes)) :
    ReleasedAll s s' notes ((noteSet notes).countP s.holdsBurn) ((noteSet notes).countP s.holdsWithdrawal) where
  burn n hn b hb hheld := by
    obtain ⟨hburn, hrow⟩ := h.named n (mem_noteSet hn)
    rw [hb, Option.map_some] at hburn
    rw [holdsBurn_of_burn hb, if_pos hheld] at hrow
    exact ⟨hburn, hrow⟩
  withdrawal n hn r hr hstatus := by
    obtain ⟨hburn, hrow⟩ := h.named n (mem_noteSet hn)
    have hheld : s.holdsWithdrawal n = true := by
      have hid := ((hinv.notes n).row r hr).2.1 hstatus
      simp only [holdsWithdrawal, hr, Option.any_some, hstatus, hid, decide_true, Option.isNone_none, Bool.and_self]
    obtain ⟨-, b, hb, hnone⟩ := releasable_of_holds (hinv.notes n) hheld
    rw [holdsBurn_of_burn hb, hnone] at hrow
    rw [hb, Option.map_some, ← hnone] at hburn
    exact ⟨hrow, hburn.trans hb.symm⟩
  history := by
    refine ⟨_, h.history, fun e he => ?_, fun n hn => ?_⟩
    · obtain ⟨n, hn, hevent⟩ := List.mem_filterMap.1 he
      rw [releaseEvent_noteId hevent]
      exact mem_of_mem_noteSet hn
    · obtain ⟨e, hevent, hrecords⟩ := releaseEvent_records (hinv.notes n) (hholds n (mem_noteSet hn))
      exact ⟨e, filter_releaseEvent (noteSet_nodup notes) (mem_noteSet hn) hevent, hrecords⟩
  counts := ⟨(noteSet_perm notes).countP_eq _, (noteSet_perm notes).countP_eq _⟩
  others m hm := h.others m fun hmem => hm (mem_of_mem_noteSet hmem)
  chain := h.chain

/-- The store the command found, or the one its transaction committed. -/
def WholeRelease (w : World) (notes : List NoteId) (w' : World) : Prop :=
  w'.store = w.store ∨ ∃ k, w.store.releaseHolds notes = .ok (w'.store, k)

theorem meets_releaseOffline {faucet : AccountId} {anchor : TrustedAnchor} (w : World) (notes : List NoteId) :
    Meets (handler C) (WholeRelease w notes) (releaseOffline C faucet anchor notes) (fun _ => WholeRelease w notes) w := by
  refine meets_call_bind (.inl rfl) fun e => ?_
  have hopened : ((handler C).step (.openFile false) e w).2.store = w.store := rfl
  generalize ((handler C).step (.openFile false) e w).2 = w1 at hopened
  refine Meets.seq (R := fun _ w2 => w2.store = w.store) (meets_attempt (fun _ _ => hopened) fun _ _ => hopened) ?_
    fun _ _ h => .inl h
  intro _ w2 h2
  have hcalls : Calls (S := calls) (fun o => o = Call.query)
      (query id fun s => s.openExisting C faucet anchor : Task StoreError Unit) := calls_query rfl
  have hread : Meets (handler C) (fun w' => w'.store = w.store) (query id fun s => s.openExisting C faucet anchor)
      (fun _ w3 => w3.store = w.store) w2 := hcalls.meets (fun o e w' ho hw' => by cases ho; exact hw') h2
  refine Meets.seq (hread.weaken fun _ h => .inl h) ?_ fun _ _ h => .inl h
  intro _ w3 h3
  refine meets_call_bind (.inl h3) fun e => ?_
  have hwritten : WholeRelease w notes ((handler C).step (.write (.releaseAll notes)) e w3).2 := by
    show WholeRelease w notes (w3.transact C (.releaseAll notes) e.storeFails).2
    unfold World.transact
    split
    · exact .inl h3
    · split
      · rename_i s' hs'
        obtain ⟨k, hk⟩ := releaseAll_apply_ok hs'
        rw [h3] at hk
        exact .inr ⟨k, hk⟩
      · exact .inl h3
  exact meets_attempt (fun _ _ => hwritten) fun _ _ => hwritten

/-- **An offline release is all or nothing.** -/
theorem offline_release_whole (C : Crates) (lifetimes : List Lifetime) (notes : List NoteId) :
    OfflineRelease C (runAll C lifetimes) notes := by
  have hinv : StoreInv C (runAll C lifetimes).store := legal_inv (runs_legal lifetimes)
  have hloop : Looped (runAll C lifetimes).store 0 0 (noteSet notes) :=
    looped (C := C) (noteSet_nodup notes) fun n _ => hinv.notes n
  constructor
  · cases hloop with
    | released s' holds batch ran =>
      exact ⟨fun _ n hn => holds_iff.1 (holds n (mem_noteSet hn)), fun _ => ⟨s', _, ran⟩⟩
    | refused n named burn row ran =>
      constructor
      · rintro ⟨s', k, hok⟩
        cases ran.symm.trans hok
      · intro hall
        rcases holds_iff.2 (hall n (mem_of_mem_noteSet named)) with h | h
        · rw [burn] at h
          cases h
        · rw [row] at h
          cases h
  · intro s' burns withdrawals hok
    cases hloop with
    | released s'' holds batch ran =>
      have hsame := Except.ok.inj (ran.symm.trans hok)
      rw [Nat.zero_add, Nat.zero_add] at hsame
      cases hsame
      exact batch.releasedAll hinv holds
    | refused n named burn row ran => cases ran.symm.trans hok
  · intro faucet anchor env
    have hmeets : Meets (handler C) (WholeRelease (runAll C lifetimes) notes) (releaseOffline C faucet anchor notes)
      (fun _ => WholeRelease (runAll C lifetimes) notes) (runAll C lifetimes) := meets_releaseOffline _ notes
    exact hmeets.always (fun _ h => h) (fun _ _ h => h) env

end LightAttester
