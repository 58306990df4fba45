import MidenUsdcx.Lib.Census
import MidenUsdcx.Attester.Refinement
/-!
# The work a cycle reports (`store.rs:176-193, 867-905`)

| here | there |
| --- | --- |
| `Progress` | `Progress` (`store.rs:178`) |
| `Store.unfinished` | the join and its `WHERE` (`store.rs:880-882`) |
| `Store.progress` | `Store::progress` (`store.rs:868`) |
| `Part` | the four counts of separate work, and what is paid out |

Each count is a query of its own, over the burns or over the submissions. A submission belongs to a consumed burn, and
a held burn has at most an expired one, so every consumed burn is in one count and no count holds anything else.
-/
namespace LightAttester
open Checked Interact Keyed Store

/-- The work the attester has not finished. -/
structure Progress where
  burnsHeld : Nat
  withdrawalsHeld : Nat
  withdrawalsFailed : Nat
  withdrawalsPending : Nat
  burnsUnfinished : Nat
  oldestUnfinishedBurn : Option BlockNumber
  withdrawalLimitWaiting : Nat
deriving DecidableEq, Repr

namespace Store

/-- Consumed and not held, and its withdrawal, if it has one, is neither final nor held nor failed. -/
def unfinished (s : Store) (b : BurnRow) : Bool :=
  b.consumptionBlock.isSome && b.holdReason.isNone &&
    (s.row b.noteId).all fun r => decide (r.status ∉ [.held, .failed, .finalized])

/-- `COUNT(*) FROM submissions WHERE status IN (…)`. -/
def countStatus (s : Store) (statuses : List SubmissionStatus) : Nat :=
  s.submissions.rows.countP fun r => decide (r.status ∈ statuses)

def progress (s : Store) : Progress where
  burnsHeld := s.burns.rows.countP fun b => b.holdReason.isSome
  withdrawalsHeld := s.countStatus [.held]
  withdrawalsFailed := s.countStatus [.failed]
  withdrawalsPending := s.countStatus [.submitting, .submitted]
  burnsUnfinished := s.burns.rows.countP s.unfinished
  oldestUnfinishedBurn := ((s.burns.rows.filter s.unfinished).filterMap (·.consumptionBlock)).min?
  withdrawalLimitWaiting := s.burns.rows.countP fun b => b.limitRetryAt.isSome

end Store

/-! ## The parts -/

/-- Where a consumed burn is counted. -/
inductive Part where
  | burnHeld
  | withdrawalHeld
  | withdrawalFailed
  | unfinished
  | finalized
deriving DecidableEq, Repr

namespace Part

instance : Fintype Part where
  elems := {.burnHeld, .withdrawalHeld, .withdrawalFailed, .unfinished, .finalized}
  complete part := by cases part <;> simp

theorem sum_parts (f : Part → Nat) : ∑ part, f part =
    f .burnHeld + f .withdrawalHeld + f .withdrawalFailed + f .unfinished + f .finalized := by
  have huniv : (Finset.univ : Finset Part) =
    {.burnHeld, .withdrawalHeld, .withdrawalFailed, .unfinished, .finalized} := rfl
  simp only [huniv, Finset.mem_insert, Finset.mem_singleton, reduceCtorEq, or_false, not_false_eq_true,
    Finset.sum_insert, Finset.sum_singleton]
  omega

/-- Whether the burn, or its submission, is a row that the part counts. -/
def counts (s : Store) (b : BurnRow) : Part → Bool
  | .burnHeld => b.holdReason.isSome
  | .withdrawalHeld => (s.row b.noteId).any fun r => decide (r.status = .held)
  | .withdrawalFailed => (s.row b.noteId).any fun r => decide (r.status = .failed)
  | .unfinished => s.unfinished b
  | .finalized => (s.row b.noteId).any fun r => decide (r.status = .finalized)

/-- What the part's query counts. -/
def count (s : Store) : Part → Nat
  | .burnHeld => s.progress.burnsHeld
  | .withdrawalHeld => s.progress.withdrawalsHeld
  | .withdrawalFailed => s.progress.withdrawalsFailed
  | .unfinished => s.progress.burnsUnfinished
  | .finalized => s.countStatus [.finalized]

end Part

variable {C : Crates} {s : Store}

theorem unfinished_iff {b : BurnRow} : s.unfinished b = true ↔ b.consumptionBlock.isSome ∧ b.holdReason = none ∧
    ∀ r, s.row b.noteId = some r → r.status ≠ .held ∧ r.status ≠ .failed ∧ r.status ≠ .finalized := by
  simp [unfinished, Option.all_eq_true, and_assoc]

/-- A submission with one of these statuses is counted at its burn. -/
theorem StoreInv.countStatus (h : StoreInv C s) (statuses : List SubmissionStatus) :
    s.countStatus statuses = s.burns.rows.countP fun b =>
      (s.row b.noteId).any fun r => decide (r.status ∈ statuses) := by
  refine Table.countP_join s.burns s.submissions fun r hr _ => ?_
  obtain ⟨-, -, b, hb, -⟩ := (h.notes r.noteId).row r (Table.get?_of_mem hr)
  rw [show s.burns.get? r.noteId = some b from hb]
  rfl

/-- A part counts consumed burns only. -/
theorem StoreInv.counts_consumed (h : StoreInv C s) {b : BurnRow} (hb : b ∈ s.burns.rows) {part : Part}
    (hpart : part.counts s b = true) : b.consumptionBlock.isSome = true := by
  have hburn : s.burn b.noteId = some b := Table.get?_of_mem hb
  have hrow : ∀ r, s.row b.noteId = some r → b.consumptionBlock.isSome = true := by
    intro r hr
    obtain ⟨-, -, b', hb', hc⟩ := (h.notes b.noteId).row r hr
    rw [hburn] at hb'
    cases hb'
    exact hc
  cases part with
  | burnHeld => exact ((h.notes b.noteId).hold b hburn hpart).1
  | unfinished => exact (unfinished_iff.1 hpart).1
  | withdrawalHeld | withdrawalFailed | finalized =>
    obtain ⟨r, hr, -⟩ := (Option.any_eq_true _ _).1 hpart
    exact hrow r hr

/-- The part of a burn with this hold, and a submission with this status. -/
def Part.of : Option BurnHoldReason → Option SubmissionStatus → Part
  | some _, _ => .burnHeld
  | none, some .held => .withdrawalHeld
  | none, some .failed => .withdrawalFailed
  | none, some .finalized => .finalized
  | none, some .submitting | none, some .submitted | none, some .expired | none, none => .unfinished

/-- A consumed burn is counted in the part its hold decides, or else its submission. -/
theorem StoreInv.counts_iff (h : StoreInv C s) {b : BurnRow} (hb : b ∈ s.burns.rows)
    (hc : b.consumptionBlock.isSome = true) {part : Part} :
    part.counts s b = true ↔ part = Part.of b.holdReason ((s.row b.noteId).map (·.status)) := by
  cases hh : b.holdReason with
  | some reason =>
    -- nothing of a held burn is in flight
    have hrow : ∀ r, s.row b.noteId = some r → r.status = .expired :=
      ((h.notes b.noteId).hold b (Table.get?_of_mem hb) (by rw [hh]; rfl)).2
    cases hr : s.row b.noteId with
    | none => cases part <;> simp [Part.counts, unfinished, Part.of, hh, hr]
    | some r => cases part <;> simp [Part.counts, unfinished, Part.of, hh, hr, hrow r hr]
  | none =>
    cases hr : s.row b.noteId with
    | none => cases part <;> simp [Part.counts, unfinished, Part.of, hc, hh, hr]
    | some r =>
      cases hst : r.status <;> cases part <;> simp [Part.counts, unfinished, Part.of, hc, hh, hr, hst]

/-- Every consumed burn is counted in one of the parts, and in no other. -/
theorem StoreInv.counted_once (h : StoreInv C s) {b : BurnRow} (hb : b ∈ s.burns.rows)
    (hc : b.consumptionBlock.isSome = true) : ∃! part : Part, part.counts s b = true :=
  ⟨_, (h.counts_iff hb hc).2 rfl, fun _ => (h.counts_iff hb hc).1⟩

/-- What a part's query counts are the burns in the part. -/
theorem StoreInv.count_eq (h : StoreInv C s) (part : Part) : part.count s = s.burns.rows.countP (part.counts s) := by
  cases part with
  | burnHeld | unfinished => rfl
  | withdrawalHeld | withdrawalFailed | finalized =>
    rw [Part.count]
    simp only [progress, h.countStatus, List.mem_singleton]
    rfl

/-! ## The counts together -/

theorem StoreInv.pending_unfinished (h : StoreInv C s) :
    s.progress.withdrawalsPending ≤ s.progress.burnsUnfinished := by
  simp only [progress, h.countStatus]
  refine List.countP_mono_left fun b hb hpending => ?_
  obtain ⟨r, hr, hst⟩ := (Option.any_eq_true _ _).1 hpending
  have hburn : s.burn b.noteId = some b := Table.get?_of_mem hb
  have hst : r.status = .submitting ∨ r.status = .submitted := by simpa using hst
  obtain ⟨-, -, b', hb', hc⟩ := (h.notes b.noteId).row r hr
  cases hburn.symm.trans hb'
  refine unfinished_iff.2 ⟨hc, ?_, fun r' hr' => ?_⟩
  · by_contra hh
    have hexpired := ((h.notes b.noteId).hold b hburn (Option.isSome_iff_ne_none.2 hh)).2 r hr
    rcases hst with hst | hst <;> rw [hst] at hexpired <;> cases hexpired
  · cases hr.symm.trans hr'
    rcases hst with hst | hst <;> simp [hst]

theorem StoreInv.waiting_unfinished (h : StoreInv C s) :
    s.progress.withdrawalLimitWaiting ≤ s.progress.burnsUnfinished := by
  refine List.countP_mono_left fun b hb hwaits => ?_
  obtain ⟨hc, hh, hrow⟩ := (h.notes b.noteId).wait b (Table.get?_of_mem hb) hwaits
  refine unfinished_iff.2 ⟨hc, hh, fun r hr => ?_⟩
  rcases hrow r hr with hst | hst <;> simp [hst]

/-- The counts of a cycle's report against the burns of the store. -/
structure Partitioned (s : Store) : Prop where
  /-- Each consumed burn is in exactly one part, and no other burn is in any. -/
  once : ∀ b ∈ s.burns.rows, b.consumptionBlock.isSome = true → ∃! part : Part, part.counts s b = true
  consumed : ∀ b ∈ s.burns.rows, ∀ part : Part, part.counts s b = true → b.consumptionBlock.isSome = true
  count : ∀ part : Part, part.count s = s.burns.rows.countP (part.counts s)
  total : (s.burns.rows.countP fun b => b.consumptionBlock.isSome) =
    s.progress.burnsHeld + s.progress.withdrawalsHeld + s.progress.withdrawalsFailed + s.progress.burnsUnfinished +
      s.countStatus [.finalized]
  pending : s.progress.withdrawalsPending ≤ s.progress.burnsUnfinished
  waiting : s.progress.withdrawalLimitWaiting ≤ s.progress.burnsUnfinished
  noneOldest : s.progress.oldestUnfinishedBurn = none ↔ s.progress.burnsUnfinished = 0
  oldest : ∀ k, s.progress.oldestUnfinishedBurn = some k ↔
    (∃ b ∈ s.burns.rows, s.unfinished b = true ∧ b.consumptionBlock = some k) ∧
      ∀ b ∈ s.burns.rows, s.unfinished b = true → ∀ j, b.consumptionBlock = some j → k ≤ j

/-- **The counts partition the consumed burns** in every state a run can reach. -/
theorem progress_partitions (C : Crates) (lifetimes : List Lifetime) : Partitioned (runAll C lifetimes).store := by
  have hinv := legal_inv (runs_legal (C := C) lifetimes)
  generalize (runAll C lifetimes).store = s at hinv
  have htotal : (s.burns.rows.countP fun b => b.consumptionBlock.isSome) = ∑ part : Part, part.count s := by
    rw [countP_parts (fun b hb hc => hinv.counted_once hb hc) (fun b hb part => hinv.counts_consumed hb)]
    exact Finset.sum_congr rfl fun part _ => (hinv.count_eq part).symm
  constructor
  · exact fun b hb hc => hinv.counted_once hb hc
  · exact fun b hb part => hinv.counts_consumed hb
  · exact hinv.count_eq
  · rw [htotal, Part.sum_parts]
    rfl
  · exact hinv.pending_unfinished
  · exact hinv.waiting_unfinished
  · simp only [progress, min?_filterMap_eq_none, List.countP_eq_zero, List.mem_filter]
    constructor
    · intro hnone b hb hunfinished
      have hc := (unfinished_iff.1 hunfinished).1
      rw [hnone b ⟨hb, hunfinished⟩] at hc
      cases hc
    · exact fun hzero b hb => absurd hb.2 (hzero b hb.1)
  · intro k
    simp only [progress, min?_filterMap_eq_some, List.mem_filter, and_assoc, and_imp]

end LightAttester
