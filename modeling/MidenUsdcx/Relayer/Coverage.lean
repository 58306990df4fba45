import MidenUsdcx.Relayer.Scan
/-!
# What the stored progress covers

The file says which part of the feed is done: everything at or below the watermark, and everything from
an unfinished scan's head down to the entry its cursor names (`Covered`). `Legal` says what a relayer
may do with that, one condition for each act of the log:

* it submits notes of entries that are not covered yet, and saves next (`Quiet`);
* it saves a state only if what that covers was handled, if nothing covered before is lost, if the
  watermark is the same or newer, and if the page whose notes were just submitted is covered by it.

That the code's runs are legal is `runs_legal`; this module is about what follows from it.
-/
namespace DepositRelayer

variable {C : Crates} (F : Feed C)

/-- A mint note of the entry at `q`. -/
def NoteOf (q : Nat) (note : XUsdcMintNote) : Prop :=
  ∃ a, ∃ minter : Minter, Attestation.deserialize C (F.entry q) = .ok a ∧ (minter.buildNote C a).1 = .ok note

/-- The entry is one the minter does not turn into a note. -/
def Unbuildable (C : Crates) (entry : Entry) : Prop :=
  ∃ (minter : Minter) (reason : String), (minter.buildEntry C entry).1 = .error reason

/-- The three ways in which the relayer is done with the entry at `q`. -/
inductive Handled (L : List Act) (q : Nat) : Prop where
  | submitted {note : XUsdcMintNote} {notes : List XUsdcMintNote} (own : NoteOf F q note)
      (done : .submitted notes ∈ L) (mem : note ∈ notes)
  | minted {note : XUsdcMintNote} {asked unminted : List DepositNonce} (own : NoteOf F q note)
      (done : .checked asked unminted ∈ L) (mem : note.nonce ∈ asked) (gone : note.nonce ∉ unminted)
  | skipped {i : Nat} (done : .skipped (q + i + 1) (Entry.decode C (i + 1) (F.entry q)) ∈ L)
      (bad : Unbuildable C (Entry.decode C (i + 1) (F.entry q)))

/-- What a state says is done. -/
inductive Covered (s : State) (q : Nat) : Prop where
  | below {h : MessageHash} {p : Nat} (stored : s.watermark = some h) (place : F.hashAt p = some h) (le : q ≤ p)
  | walked {r : ScanProgress} {p : Nat} (stored : s.scan = some r) (place : F.hashAt p = some r.head)
      (from_ : F.names r.resume ≤ q) (le : q ≤ p)

/-- The watermark stays or moves to a newer entry. -/
def Newer (old new : State) : Prop :=
  ∀ h, old.watermark = some h → ∃ h', new.watermark = some h' ∧
    (h' = h ∨ ∃ p p', F.hashAt p = some h ∧ F.hashAt p' = some h' ∧ p < p')

/-- The state on disk after these acts. -/
def stored : List Act → State
  | [] => {}
  | .saved s :: _ => s
  | .saveFailed s true :: _ => s
  | _ :: L => stored L

/-- The last thing logged is not a submission. -/
def Quiet (L : List Act) : Prop := ∀ notes earlier, L ≠ .submitted notes :: earlier

/-! ## The rules -/

structure Advance (L : List Act) (s : State) : Prop where
  handled : ∀ q, Covered F s q → Handled F L q
  keeps : ∀ q, Covered F (stored L) q → Covered F s q
  newer : Newer F (stored L) s
  page : ∀ notes earlier, L = .submitted notes :: earlier → ∀ note ∈ notes, ∃ q, NoteOf F q note ∧ Covered F s q

def Allowed (L : List Act) : Act → Prop
  | .started => True
  | .checked _ _ => Quiet L
  | .skipped _ entry => Quiet L ∧ Unbuildable C entry
  | .submitted notes => Quiet L ∧ ∀ note ∈ notes, ∃ q, NoteOf F q note ∧ ¬ Covered F (stored L) q
  | .saved s => Advance F L s
  | .saveFailed s landed => landed = true → Advance F L s

inductive Legal : List Act → Prop where
  | nil : Legal []
  | step {a : Act} {L : List Act} (hL : Legal L) (ha : Allowed F L a) : Legal (a :: L)

variable {F} {L later earlier : List Act} {s : State} {q : Nat}

/-! ## Lemmas about the definitions -/

theorem Handled.mono {L' : List Act} (h : Handled F L q) (hsub : ∀ a ∈ L, a ∈ L') : Handled F L' q := by
  cases h with
  | submitted own done mem => exact .submitted own (hsub _ done) mem
  | minted own done mem gone => exact .minted own (hsub _ done) mem gone
  | skipped done bad => exact .skipped (hsub _ done) bad

theorem Handled.cons {a : Act} (h : Handled F L q) : Handled F (a :: L) q := h.mono fun _ => List.mem_cons_of_mem a

theorem not_covered_empty : ¬ Covered F {} q := by
  intro h
  cases h with
  | below stored => cases stored
  | walked stored => cases stored

theorem Newer.refl : Newer F s s := fun h hs => ⟨h, hs, .inl rfl⟩

theorem Newer.trans {a b c : State} (hab : Newer F a b) (hbc : Newer F b c) : Newer F a c := by
  intro h hs
  obtain ⟨h', hs', hmove⟩ := hab h hs
  obtain ⟨h'', hs'', hmove'⟩ := hbc h' hs'
  refine ⟨h'', hs'', ?_⟩
  rcases hmove with rfl | ⟨p, p', hp, hp', hlt⟩
  · exact hmove'
  · rcases hmove' with rfl | ⟨r, r', hr, hr', hlt'⟩
    · exact .inr ⟨p, p', hp, hp', hlt⟩
    · obtain rfl : p' = r := F.unique _ _ _ hp' hr
      exact .inr ⟨p, r', hp, hr', hlt.trans hlt'⟩

/-- Saving the state that is there changes nothing. -/
theorem Advance.same (hL : ∀ q, Covered F (stored L) q → Handled F L q)
    (hlast : Quiet L) : Advance F L (stored L) where
  handled := hL
  keeps _ h := h
  newer := .refl
  page notes earlier h := absurd h (hlast notes earlier)

/-- An act either leaves the stored state alone or replaces it by an advance. -/
theorem stored_cases {a : Act} (ha : Allowed F L a) : stored (a :: L) = stored L ∨ Advance F L (stored (a :: L)) := by
  cases a with
  | started | checked | skipped | submitted => exact .inl rfl
  | saved s => exact .inr ha
  | saveFailed s landed =>
    cases landed with
    | true => exact .inr (ha rfl)
    | false => exact .inl rfl

/-! ## What every legal log satisfies -/

/-- What the file covers was handled. -/
theorem Legal.handled (hL : Legal F L) : ∀ q, Covered F (stored L) q → Handled F L q := by
  induction hL with
  | nil => exact fun q h => absurd h not_covered_empty
  | step hL ha ih =>
    intro q hq
    rcases stored_cases ha with heq | hadv
    · exact (ih q (heq ▸ hq)).cons
    · exact (hadv.handled q hq).cons

theorem Legal.last {a : Act} (hL : Legal F (a :: L)) : Legal F L ∧ Allowed F L a := by
  cases hL with
  | step hL ha => exact ⟨hL, ha⟩

theorem Legal.tail (hL : Legal F (later ++ earlier)) : Legal F earlier := by
  induction later with
  | nil => exact hL
  | cons a later ih => exact ih (Legal.last hL).1

theorem Legal.allowed {a : Act} (hL : Legal F (later ++ a :: earlier)) : Allowed F earlier a := hL.tail.last.2

/-- Nothing covered is ever lost again, and the watermark never moves back. -/
theorem Legal.onward (hL : Legal F (later ++ earlier)) :
    (∀ q, Covered F (stored earlier) q → Covered F (stored (later ++ earlier)) q) ∧
      Newer F (stored earlier) (stored (later ++ earlier)) := by
  induction later with
  | nil => exact ⟨fun _ h => h, .refl⟩
  | cons a later ih =>
    rw [List.cons_append] at hL ⊢
    obtain ⟨hL, ha⟩ := hL.last
    obtain ⟨hcov, hnew⟩ := ih hL
    rcases stored_cases ha with heq | hadv
    · rw [heq]
      exact ⟨hcov, hnew⟩
    · exact ⟨fun q h => hadv.keeps q (hcov q h), hnew.trans hadv.newer⟩

/-! ## Submitting twice -/

/-- Different entries give notes with different nonces. -/
def UniqueNonces (F : Feed C) : Prop :=
  ∀ p q note note', NoteOf F p note → NoteOf F q note' → note.nonce = note'.nonce → p = q

/-- The save after the submission that these acts follow failed, or the process ended before it. -/
def Interrupted (later : List Act) : Prop :=
  ∃ mid a, later = mid ++ [a] ∧ (a = .started ∨ ∃ s landed, a = .saveFailed s landed)

/-- Only a save, failed or not, or a new process follows a submission. -/
theorem Legal.after_submission {a : Act} {notes : List XUsdcMintNote} (hL : Legal F (a :: .submitted notes :: earlier)) :
    (∃ s, a = .saved s) ∨ a = .started ∨ ∃ s landed, a = .saveFailed s landed := by
  have ha := hL.last.2
  have hloud : ¬ Quiet (.submitted notes :: earlier) := fun h => h _ _ rfl
  cases a with
  | started => exact .inr (.inl rfl)
  | skipped top entry => exact absurd ha.1 hloud
  | checked asked unminted => exact absurd ha hloud
  | submitted notes' => exact absurd ha.1 hloud
  | saved s => exact .inl ⟨s, rfl⟩
  | saveFailed s landed => exact .inr (.inr ⟨s, landed, rfl⟩)

/-- An entry is submitted again only after its page was interrupted. -/
theorem Legal.again (hN : UniqueNonces F) {mid : List Act} {notes notes' : List XUsdcMintNote}
    (hL : Legal F (later ++ .submitted notes' :: (mid ++ .submitted notes :: earlier)))
    {note note' : XUsdcMintNote} (hq : NoteOf F q note) (hq' : NoteOf F q note') (hmem : note ∈ notes)
    (hmem' : note' ∈ notes') : Interrupted mid := by
  obtain ⟨hquiet, hfree⟩ := hL.allowed
  obtain ⟨q', hown', hfree⟩ := hfree note' hmem'
  obtain rfl : q = q' := hN _ _ _ _ hq' hown' rfl
  rcases List.eq_nil_or_concat mid with rfl | ⟨mid', a, rfl⟩
  · exact absurd rfl (hquiet notes earlier)
  · have hmid : Legal F (mid' ++ a :: .submitted notes :: earlier) := by simpa using hL.tail.last.1
    rcases hmid.tail.after_submission with ⟨s, rfl⟩ | ha
    · -- The save that followed covers the page, and coverage only grows from there to the second submission.
      obtain ⟨q', hown, hcov⟩ := hmid.allowed.page notes earlier rfl note hmem
      obtain rfl : q = q' := hN _ _ _ _ hq hown rfl
      refine absurd ?_ hfree
      simpa using hmid.onward.1 q hcov
    · exact ⟨mid', a, by simp, ha⟩

end DepositRelayer
