import Mathlib.Logic.Function.Basic
import Mathlib.Logic.Relation
/-!
# Replacing a file under power cuts

Files are numbered, and directories name them. What a process sees and what the disk holds are two things: contents
that were not synced, a power cut garbles, and names go back to what they were when the directory was last written.
`Step` is one step of a process that replaces the file `path` by way of the file `tmp`: create, write, sync, rename. The
process may fail or be killed after any step, and the power may be cut at any time.

Whoever reads `path` sees none of this. `Cell` is what is left: a value that is replaced at once, and that a power cut
takes back to the last one the disk holds. `Step.refines` says so where the two names differ, and only there
(`torn_of_same_name`).
-/
namespace Disk

/-! ## The file system -/

structure Fs (Name Id : Type) where
  /-- The names a process sees. -/
  dir : Name → Option Id
  /-- The names the disk holds. -/
  durable : Name → Option Id
  data : Id → List UInt8
  /-- The disk holds these contents. -/
  synced : Id → Bool

namespace Fs
variable {Name Id : Type} [DecidableEq Name] [DecidableEq Id]

/-- What a process reads under a name. -/
def read (fs : Fs Name Id) (name : Name) : Option (List UInt8) := (fs.dir name).map fs.data

/-- What a power cut would leave of it. -/
def held (fs : Fs Name Id) (name : Name) : Option (List UInt8) := (fs.durable name).map fs.data

/-- No name, seen or held, is of this file. -/
def Unused (fs : Fs Name Id) (i : Id) : Prop := ∀ name, fs.dir name ≠ some i ∧ fs.durable name ≠ some i

/-- `open` with truncation: the file's contents are gone at once. -/
def create (fs : Fs Name Id) (name : Name) (i : Id) : Fs Name Id :=
  { fs with
    dir := Function.update fs.dir name (some i)
    data := Function.update fs.data i []
    synced := Function.update fs.synced i false }

def append (fs : Fs Name Id) (i : Id) (bytes : List UInt8) : Fs Name Id :=
  { fs with data := Function.update fs.data i (fs.data i ++ bytes), synced := Function.update fs.synced i false }

def sync (fs : Fs Name Id) (i : Id) : Fs Name Id := { fs with synced := Function.update fs.synced i true }

/-- `rename`: the name moves in one step. -/
def rename (fs : Fs Name Id) (old new : Name) : Fs Name Id :=
  if old = new then fs
  else { fs with dir := Function.update (Function.update fs.dir new (fs.dir old)) old none }

/-- The directory is written. -/
def writeBack (fs : Fs Name Id) : Fs Name Id := { fs with durable := fs.dir }

/-- What is left after the power was cut, with anything in the files that were not synced. -/
def powerCut (fs : Fs Name Id) (garbage : Id → List UInt8) : Fs Name Id :=
  { fs with dir := fs.durable, data := fun i => if fs.synced i then fs.data i else garbage i }

end Fs

/-! ## The replacement -/

inductive Phase (Id : Type) where
  | idle
  | writing (file : Id) (content : List UInt8)
  /-- Written and synced, and not renamed yet. -/
  | ready (file : Id) (content : List UInt8)

structure State (Name Id : Type) where
  fs : Fs Name Id
  phase : Phase Id

section
variable {Name Id : Type}

section
variable [DecidableEq Name] [DecidableEq Id]

/-- One step, for a process that writes such contents only. -/
inductive Step (allowed : List UInt8 → Prop) (path tmp : Name) : State Name Id → State Name Id → Prop where
  | create (fs : Fs Name Id) (i : Id) (content : List UInt8) (hallowed : allowed content)
    (h : fs.dir tmp = some i ∨ fs.dir tmp = none ∧ fs.Unused i) :
    Step allowed path tmp ⟨fs, .idle⟩ ⟨fs.create tmp i, .writing i content⟩
  /-- Some more of the content is written. -/
  | write (fs : Fs Name Id) (i : Id) (content bytes : List UInt8) (h : fs.data i ++ bytes <+: content) :
    Step allowed path tmp ⟨fs, .writing i content⟩ ⟨fs.append i bytes, .writing i content⟩
  | sync (fs : Fs Name Id) (i : Id) (content : List UInt8) (h : fs.data i = content) :
    Step allowed path tmp ⟨fs, .writing i content⟩ ⟨fs.sync i, .ready i content⟩
  | rename (fs : Fs Name Id) (i : Id) (content : List UInt8) :
    Step allowed path tmp ⟨fs, .ready i content⟩ ⟨fs.rename tmp path, .idle⟩
  /-- A call failed, or the process was killed. -/
  | stop (s : State Name Id) : Step allowed path tmp s ⟨s.fs, .idle⟩
  | writeBack (s : State Name Id) : Step allowed path tmp s ⟨s.fs.writeBack, s.phase⟩
  | powerCut (s : State Name Id) (garbage : Id → List UInt8) : Step allowed path tmp s ⟨s.fs.powerCut garbage, .idle⟩

end

/-- No file at `path`, and nothing under way. What else there is does not matter. -/
def Fresh (path : Name) (s : State Name Id) : Prop :=
  s.fs.dir path = none ∧ s.fs.durable path = none ∧ s.phase = .idle

def Reachable [DecidableEq Name] [DecidableEq Id] (allowed : List UInt8 → Prop) (path tmp : Name)
    (s : State Name Id) : Prop :=
  ∃ first, Fresh path first ∧ Relation.ReflTransGen (Step allowed path tmp) first s

/-! ## What a reader sees -/

/-- A value replaced at once, and the one that a power cut goes back to. -/
structure Cell where
  current : Option (List UInt8)
  safe : Option (List UInt8)

inductive Cell.Step (allowed : List UInt8 → Prop) : Cell → Cell → Prop where
  | replace (cell : Cell) (content : List UInt8) (h : allowed content) :
    Cell.Step allowed cell { cell with current := some content }
  | writeBack (cell : Cell) : Cell.Step allowed cell { cell with safe := cell.current }
  | powerCut (cell : Cell) : Cell.Step allowed cell { cell with current := cell.safe }

/-- Every value a reader may come to see. -/
structure Cell.Holds (allowed : List UInt8 → Prop) (cell : Cell) : Prop where
  current : ∀ content, cell.current = some content → allowed content
  safe : ∀ content, cell.safe = some content → allowed content

def State.cell (path : Name) (s : State Name Id) : Cell := ⟨s.fs.read path, s.fs.held path⟩

/-- What keeps `path` whole: its files are on the disk, and the file being written is none of them. -/
structure Inv (allowed : List UInt8 → Prop) (path tmp : Name) (s : State Name Id) : Prop where
  seen : ∀ i, s.fs.dir path = some i → s.fs.synced i = true
  held : ∀ i, s.fs.durable path = some i → s.fs.synced i = true
  apart : ∀ i, s.fs.dir tmp = some i → s.fs.dir path ≠ some i ∧ s.fs.durable path ≠ some i
  apartHeld : ∀ i, s.fs.durable tmp = some i → s.fs.durable path ≠ some i
  writing : ∀ i content, s.phase = .writing i content → s.fs.dir tmp = some i ∧ allowed content
  ready : ∀ i content, s.phase = .ready i content →
    s.fs.dir tmp = some i ∧ s.fs.synced i = true ∧ s.fs.data i = content ∧ allowed content

variable {allowed : List UInt8 → Prop} {path tmp : Name} {s s' : State Name Id} {fs fs' : Fs Name Id} {i : Id}
  {content : List UInt8}

theorem Cell.Holds.step {cell cell' : Cell} (h : cell.Holds allowed) (hstep : Cell.Step allowed cell cell') :
    cell'.Holds allowed := by
  cases hstep with
  | replace content hallowed =>
    refine ⟨fun c hc => ?_, h.safe⟩
    cases hc
    exact hallowed
  | writeBack => exact ⟨h.current, h.current⟩
  | powerCut => exact ⟨h.safe, h.safe⟩

/-! ## One step -/

/-- A step that leaves the files of `path`, and what they hold, as they are. -/
theorem cell_eq {p p' : Phase Id} (hdir : fs'.dir path = fs.dir path) (hdurable : fs'.durable path = fs.durable path)
    (hdata : ∀ j, fs.dir path = some j ∨ fs.durable path = some j → fs'.data j = fs.data j) :
    State.cell path ⟨fs', p'⟩ = State.cell path ⟨fs, p⟩ := by
  have hread : fs'.read path = fs.read path := by
    rw [Fs.read, Fs.read, hdir]
    cases h : fs.dir path with
    | none => rfl
    | some j => exact congrArg some (hdata j (.inl h))
  have hheld : fs'.held path = fs.held path := by
    rw [Fs.held, Fs.held, hdurable]
    cases h : fs.durable path with
    | none => rfl
    | some j => exact congrArg some (hdata j (.inr h))
  rw [State.cell, State.cell, hread, hheld]

/-- The file under `tmp` is not one of `path`'s. -/
theorem Inv.ne (h : Inv allowed path tmp s) (hi : s.fs.dir tmp = some i) {j : Id}
    (hj : s.fs.dir path = some j ∨ s.fs.durable path = some j) : j ≠ i := by
  rintro rfl
  rcases hj with hseen | hheld
  · exact (h.apart _ hi).1 hseen
  · exact (h.apart _ hi).2 hheld

theorem Fs.Unused.ne (h : fs.Unused i) {j : Id} (hj : fs.dir path = some j ∨ fs.durable path = some j) : j ≠ i := by
  rintro rfl
  rcases hj with hseen | hheld
  · exact (h path).1 hseen
  · exact (h path).2 hheld

variable [DecidableEq Name] [DecidableEq Id]

/-- Opening `tmp` touches no file of `path`. -/
theorem Inv.create (hne : tmp ≠ path) (h : Inv allowed path tmp ⟨fs, .idle⟩) (hallowed : allowed content)
    (hi : fs.dir tmp = some i ∨ fs.dir tmp = none ∧ fs.Unused i) :
    Inv allowed path tmp ⟨fs.create tmp i, .writing i content⟩ ∧
      State.cell path ⟨fs.create tmp i, .writing i content⟩ = State.cell path ⟨fs, .idle⟩ := by
  have hother : ∀ j, fs.dir path = some j ∨ fs.durable path = some j → j ≠ i := fun j hj => by
    rcases hi with hi | ⟨-, hunused⟩
    · exact h.ne hi hj
    · exact hunused.ne hj
  have hdir : (fs.create tmp i).dir path = fs.dir path := Function.update_of_ne hne.symm _ _
  have hsynced : ∀ j, fs.dir path = some j ∨ fs.durable path = some j →
      (fs.create tmp i).synced j = fs.synced j := fun j hj => Function.update_of_ne (hother j hj) _ _
  refine ⟨⟨fun j hj => ?_, fun j hj => ?_, fun j hj => ?_, fun j hj => ?_, fun j c hc => ?_, nofun⟩,
    cell_eq hdir rfl fun j hj => Function.update_of_ne (hother j hj) _ _⟩
  · have hj := hdir.symm.trans hj
    exact (hsynced j (.inl hj)).trans (h.seen j hj)
  · exact (hsynced j (.inr hj)).trans (h.held j hj)
  · have hji : (fs.create tmp i).dir tmp = some i := Function.update_self ..
    cases hji.symm.trans hj
    exact ⟨fun hseen => hother _ (.inl (hdir.symm.trans hseen)) rfl, fun hheld => hother _ (.inr hheld) rfl⟩
  · exact h.apartHeld j hj
  · cases hc
    exact ⟨Function.update_self .., hallowed⟩

omit [DecidableEq Name] in
/-- Writing to `tmp` touches no file of `path`. -/
theorem Inv.write (h : Inv allowed path tmp ⟨fs, .writing i content⟩) (bytes : List UInt8) :
    Inv allowed path tmp ⟨fs.append i bytes, .writing i content⟩ ∧
      State.cell path ⟨fs.append i bytes, .writing i content⟩ = State.cell path ⟨fs, .writing i content⟩ := by
  have hother : ∀ j, fs.dir path = some j ∨ fs.durable path = some j → j ≠ i := fun j hj =>
    h.ne (h.writing i content rfl).1 hj
  have hsynced : ∀ j, fs.dir path = some j ∨ fs.durable path = some j →
      (fs.append i bytes).synced j = fs.synced j := fun j hj => Function.update_of_ne (hother j hj) _ _
  refine ⟨⟨fun j hj => ?_, fun j hj => ?_, h.apart, h.apartHeld, h.writing, nofun⟩,
    cell_eq rfl rfl fun j hj => Function.update_of_ne (hother j hj) _ _⟩
  · exact (hsynced j (.inl hj)).trans (h.seen j hj)
  · exact (hsynced j (.inr hj)).trans (h.held j hj)

omit [DecidableEq Name] in
theorem Inv.sync (h : Inv allowed path tmp ⟨fs, .writing i content⟩) (hdata : fs.data i = content) :
    Inv allowed path tmp ⟨fs.sync i, .ready i content⟩ ∧
      State.cell path ⟨fs.sync i, .ready i content⟩ = State.cell path ⟨fs, .writing i content⟩ := by
  obtain ⟨hi, hallowed⟩ := h.writing i content rfl
  have hsynced : ∀ j, fs.synced j = true → (fs.sync i).synced j = true := fun j hj => by
    rcases eq_or_ne j i with rfl | hne
    · exact Function.update_self ..
    · exact (Function.update_of_ne hne _ _).trans hj
  refine ⟨⟨fun j hj => hsynced j (h.seen j hj), fun j hj => hsynced j (h.held j hj), h.apart, h.apartHeld, nofun,
    fun j c hc => ?_⟩, cell_eq rfl rfl fun _ _ => rfl⟩
  cases hc
  exact ⟨hi, Function.update_self .., hdata, hallowed⟩

omit [DecidableEq Id] in
/-- The new contents come under `path` at once, and are on the disk already. -/
theorem Inv.rename (hne : tmp ≠ path) (h : Inv allowed path tmp ⟨fs, .ready i content⟩) :
    Inv allowed path tmp ⟨fs.rename tmp path, .idle⟩ ∧
      State.cell path ⟨fs.rename tmp path, .idle⟩ =
        { State.cell path ⟨fs, .ready i content⟩ with current := some content } := by
  obtain ⟨hi, hsynced, hdata, hallowed⟩ := h.ready i content rfl
  have hrename : fs.rename tmp path =
      { fs with dir := Function.update (Function.update fs.dir path (fs.dir tmp)) tmp none } := if_neg hne
  have hpath : (fs.rename tmp path).dir path = some i := by
    rw [hrename]
    exact (Function.update_of_ne hne.symm _ _).trans ((Function.update_self ..).trans hi)
  have htmp : (fs.rename tmp path).dir tmp = none := by
    rw [hrename]
    exact Function.update_self ..
  have hsame : (fs.rename tmp path).durable = fs.durable ∧ (fs.rename tmp path).data = fs.data ∧
      (fs.rename tmp path).synced = fs.synced := by
    rw [hrename]
    exact ⟨rfl, rfl, rfl⟩
  obtain ⟨hdurable, hdata', hsynced'⟩ := hsame
  refine ⟨⟨fun j hj => ?_, fun j hj => ?_, fun j hj => ?_, fun j hj => ?_, nofun, nofun⟩, ?_⟩
  · cases hpath.symm.trans hj
    exact (congrFun hsynced' _).trans hsynced
  · exact (congrFun hsynced' _).trans (h.held j ((congrFun hdurable _).symm.trans hj))
  · cases htmp.symm.trans hj
  · exact fun hheld => h.apartHeld j ((congrFun hdurable _).symm.trans hj) ((congrFun hdurable _).symm.trans hheld)
  · rw [State.cell, State.cell, Fs.read, Fs.held, hpath, hdurable, hdata']
    rw [Option.map_some, hdata]
    rfl

omit [DecidableEq Name] [DecidableEq Id] in
theorem Inv.stop (h : Inv allowed path tmp s) : Inv allowed path tmp ⟨s.fs, .idle⟩ :=
  ⟨h.seen, h.held, h.apart, h.apartHeld, nofun, nofun⟩

omit [DecidableEq Name] [DecidableEq Id] in
theorem Inv.writeBack (h : Inv allowed path tmp s) : Inv allowed path tmp ⟨s.fs.writeBack, s.phase⟩ :=
  ⟨h.seen, h.seen, fun i hi => ⟨(h.apart i hi).1, (h.apart i hi).1⟩, fun i hi => (h.apart i hi).1, h.writing, h.ready⟩

omit [DecidableEq Name] [DecidableEq Id] in
/-- A power cut leaves the synced contents of the name the disk holds. -/
theorem Inv.powerCut (h : Inv allowed path tmp s) (garbage : Id → List UInt8) :
    Inv allowed path tmp ⟨s.fs.powerCut garbage, .idle⟩ ∧
      State.cell path ⟨s.fs.powerCut garbage, .idle⟩ = { s.cell path with current := (s.cell path).safe } := by
  refine ⟨⟨h.held, h.held, fun i hi => ⟨h.apartHeld i hi, h.apartHeld i hi⟩, h.apartHeld, nofun, nofun⟩, ?_⟩
  have hheld : (s.fs.powerCut garbage).held path = s.fs.held path := by
    rw [Fs.held, Fs.held, show (s.fs.powerCut garbage).durable = s.fs.durable from rfl]
    cases hi : s.fs.durable path with
    | none => rfl
    | some i => exact congrArg some (if_pos (h.held i hi))
  have hread : (s.fs.powerCut garbage).read path = (s.fs.powerCut garbage).held path := rfl
  rw [State.cell, State.cell, hread, hheld]

/-! ## Runs -/

/-- A step of the process keeps the files apart, and is one step of the cell or none. -/
theorem Step.refines (hne : tmp ≠ path) (h : Inv allowed path tmp s) (hstep : Step allowed path tmp s s') :
    Inv allowed path tmp s' ∧
      (Cell.Step allowed (s.cell path) (s'.cell path) ∨ s'.cell path = s.cell path) := by
  cases hstep with
  | create fs i content hallowed hi =>
    obtain ⟨hinv, hcell⟩ := h.create hne hallowed hi
    exact ⟨hinv, .inr hcell⟩
  | write fs i content bytes hprefix =>
    obtain ⟨hinv, hcell⟩ := h.write bytes
    exact ⟨hinv, .inr hcell⟩
  | sync fs i content hdata =>
    obtain ⟨hinv, hcell⟩ := h.sync hdata
    exact ⟨hinv, .inr hcell⟩
  | rename fs i content =>
    obtain ⟨hinv, hcell⟩ := h.rename hne
    rw [hcell]
    exact ⟨hinv, .inl (.replace _ content (h.ready i content rfl).2.2.2)⟩
  | stop => exact ⟨h.stop, .inr rfl⟩
  | writeBack => exact ⟨h.writeBack, .inl (.writeBack _)⟩
  | powerCut _ garbage =>
    obtain ⟨hinv, hcell⟩ := h.powerCut garbage
    rw [hcell]
    exact ⟨hinv, .inl (.powerCut _)⟩

omit [DecidableEq Name] [DecidableEq Id] in
theorem Fresh.inv (h : Fresh path s) : Inv allowed path tmp s ∧ (s.cell path).Holds allowed := by
  obtain ⟨hdir, hdurable, hphase⟩ := h
  refine ⟨⟨fun i hi => ?_, fun i hi => ?_, fun i _ => ?_, fun i _ => ?_, fun i c hc => ?_, fun i c hc => ?_⟩, ?_⟩
  · cases hdir.symm.trans hi
  · cases hdurable.symm.trans hi
  · rw [hdir, hdurable]
    exact ⟨nofun, nofun⟩
  · rw [hdurable]
    exact nofun
  · cases hphase.symm.trans hc
  · cases hphase.symm.trans hc
  · rw [State.cell, Fs.read, Fs.held, hdir, hdurable]
    exact ⟨nofun, nofun⟩

theorem Reachable.inv (hne : tmp ≠ path) (h : Reachable allowed path tmp s) :
    Inv allowed path tmp s ∧ (s.cell path).Holds allowed := by
  obtain ⟨first, hfresh, hrun⟩ := h
  induction hrun with
  | refl => exact hfresh.inv
  | tail _ hstep ih =>
    obtain ⟨hinv, hcell⟩ := hstep.refines hne ih.1
    refine ⟨hinv, ?_⟩
    rcases hcell with hcell | hsame
    · exact ih.2.step hcell
    · rw [hsame]
      exact ih.2

/-- Whatever happened, what a reader finds under `path` is nothing, or a whole content that was given for it. -/
theorem Reachable.read (hne : tmp ≠ path) (h : Reachable allowed path tmp s) {bytes : List UInt8}
    (hread : s.fs.read path = some bytes) : allowed bytes :=
  (h.inv hne).2.current bytes hread

/-- With one name for both, a reader finds a file that was only opened. -/
theorem torn_of_same_name (allowed : List UInt8 → Prop) (path : Name) (i : Id) {content : List UInt8}
    (hallowed : allowed content) :
    ∃ s : State Name Id, Reachable allowed path path s ∧ s.fs.read path = some [] := by
  have hunused : Fs.Unused (⟨fun _ => none, fun _ => none, fun _ => [], fun _ => true⟩ : Fs Name Id) i :=
    fun _ => ⟨nofun, nofun⟩
  refine ⟨_, ⟨⟨⟨fun _ => none, fun _ => none, fun _ => [], fun _ => true⟩, .idle⟩, ⟨rfl, rfl, rfl⟩,
    .tail .refl (.create _ i content hallowed (.inr ⟨rfl, hunused⟩))⟩, ?_⟩
  simp [Fs.read, Fs.create]

end

end Disk
