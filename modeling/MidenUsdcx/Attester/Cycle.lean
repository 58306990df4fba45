import MidenUsdcx.Attester.Refinement
/-!
# No lost update inside a cycle (`attester.rs:372-446`, `submission.rs:155-221`)

`update_submission_outcome` writes a snapshot back without comparing it with the row, and operators
release holds between any two items. It is still safe: the lists name different notes, a release touches
only held rows, and the steps of an item have nothing between them.
-/
namespace LightAttester
open Checked Interact Keyed Store

variable {C : Crates} {L : List Entry} {s : Store} {n : NoteId}

/-- The lists still say of `n` what the store says. -/
structure Current (work : Work) (s : Store) (n : NoteId) : Prop where
  listed : n ∈ work.notes
  recover : ∀ r ∈ work.recover, r.noteId = n → s.row n = some r ∧ r.status = .submitting
  ready : ∀ d ∈ work.ready, d.noteId = n → FreshBurn s d
  poll : ∀ r ∈ work.poll, r.noteId = n → s.row n = some r ∧ r.status = .submitted

structure CycleKept (C : Crates) (w : World) : Prop where
  /-- The three lists name each note once. -/
  disjoint : ∀ later work s earlier, w.log = later ++ ⟨.snapshot work, s⟩ :: earlier → work.notes.Nodup
  /-- When an item is taken up, the store still has what its list saw. -/
  current : ∀ later n s earlier, w.log = later ++ ⟨.withdraw n, s⟩ :: earlier →
    ∃ work, workOf earlier = some work ∧ Current work s n
  /-- From then to each write of the item there are only its own steps: it overwrites nothing that another item or an
  operator wrote. -/
  alone : ∀ later x s earlier n, w.log = later ++ ⟨.commit x, s⟩ :: earlier → x.isStep = true → x.note = some n →
    AtHand earlier n
  /-- An outcome is written over the row it was read from. -/
  outcome : ∀ later out s earlier, w.log = later ++ ⟨.commit (.outcome out), s⟩ :: earlier →
    ∃ r, (storeOf earlier).row out.noteId = some r ∧ r.Reads out
  noConflict : ∀ later x e s earlier, w.log = later ++ ⟨.refused x e, s⟩ :: earlier → x.isStep = true → e ≠ .conflict
  /-- At every point, a note had at most one of each request since the cycle began. -/
  once : ∀ later earlier n, w.log = later ++ earlier → since (Act.opens n) earlier ≤ 1 ∧
    since (Act.prepares n) earlier ≤ 1 ∧ since (Act.posts n) earlier ≤ 1 ∧ since (Act.gets n) earlier ≤ 1

theorem WriteOk.atHand {x : Write} (h : WriteOk C L s x) (hstep : x.isStep = true) (hn : x.note = some n) :
    AtHand L n := by
  cases x with
  | save record =>
    cases hn
    obtain ⟨d, hd, hitem⟩ := h
    exact hd ▸ hitem.1
  | outcome out =>
    cases hn
    exact h.1
  | hold m reason response =>
    cases hn
    obtain ⟨d, hd, hitem⟩ := h
    exact hd ▸ hitem.1
  | limit m t body sub =>
    cases hn
    exact h.1
  | create | scan | advance | release | releaseAll => cases hstep

theorem Pending.current {work : Work} (h : Pending L s work) (hn : ¬ Worked L n) (hmem : n ∈ work.notes) :
    Current work s n := by
  constructor
  · exact hmem
  · intro r hr he
    subst he
    exact h.recover r hr hn
  · intro d hd he
    subst he
    exact h.ready d hd hn
  · intro r hr he
    subst he
    exact h.poll r hr hn

/-- **No lost update.** In every cycle of every run the snapshots stay true until their turn comes, and the steps of
an item are the only ones on its row. -/
theorem no_lost_update (lifetimes : List Lifetime) : CycleKept C (runAll C lifetimes) := by
  have hlegal := runs_legal (C := C) lifetimes
  constructor
  · intro later work s earlier hlog
    rw [hlog] at hlegal
    obtain ⟨-, -, -, hsnap⟩ := hlegal.entry
    exact hsnap.nodup
  · intro later n s earlier hlog
    rw [hlog] at hlegal
    obtain ⟨hL, hs, hnew, work, hwork, hmem⟩ := hlegal.entry
    obtain rfl : s = storeOf earlier := hs
    exact ⟨work, hwork, (legal_pending hL hwork).current hnew hmem⟩
  · intro later x s earlier n hlog hstep hn
    rw [hlog] at hlegal
    obtain ⟨-, -, hok⟩ := hlegal.entry
    exact hok.atHand hstep hn
  · intro later out s earlier hlog
    rw [hlog] at hlegal
    obtain ⟨-, -, -, -, r, hr, -, hreads⟩ := hlegal.entry
    exact ⟨r, hr, hreads⟩
  · intro later x e s earlier hlog hstep
    rw [hlog] at hlegal
    exact hlegal.entry.2.2 hstep
  · intro later earlier n hlog
    rw [hlog] at hlegal
    exact legal_once hlegal.suffix n

end LightAttester
