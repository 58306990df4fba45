import Mathlib.Data.List.Basic
/-!
# Reading in chunks, up to a cap

A `Source` answers each read with a chunk, the end or a failure, and may go on for ever. A `Loop` says what a reader
does with a chunk it is given; `Caps` is what it has to do for the rules: no chunk that crosses the cap is taken.

`Caps.peak` bounds what is ever buffered, `Caps.returned_iff` says what the reading comes to (`Whole`: the reading of
everything at once, then the cap), and `Caps.ends` that a source that never ends is given up.
-/
namespace Chunks

variable {σ α ε : Type}

inductive Event (α ε : Type) where
  | chunk (bytes : List α)
  | done
  | failed (error : ε)

abbrev Source (α ε : Type) := Nat → Event α ε

/-- The source with its failures under another name. -/
def Source.mapError {ε' : Type} (source : Source α ε) (f : ε → ε') : Source α ε' := fun n => match source n with
  | .chunk bytes => .chunk bytes
  | .done => .done
  | .failed error => .failed (f error)

/-- A reader's state and what it does with a chunk: the state after it, and the error it gives up with. -/
structure Loop (σ α ε : Type) where
  init : σ
  buffer : σ → List α
  take : σ → List α → σ × Option ε

inductive Status (α ε : Type) where
  | reading
  | returned (result : Except ε (List α))

namespace Loop

def step (L : Loop σ α ε) (s : σ) : Event α ε → σ × Status α ε
  | .chunk bytes => match L.take s bytes with
    | (s', none) => (s', .reading)
    | (s', some error) => (s', .returned (.error error))
  | .done => (s, .returned (.ok (L.buffer s)))
  | .failed error => (s, .returned (.error error))

/-- Where the reader is after this many reads. -/
def run (L : Loop σ α ε) (source : Source α ε) : Nat → σ × Status α ε
  | 0 => (L.init, .reading)
  | n + 1 => match L.run source n with
    | (s, .reading) => L.step s (source n)
    | returned => returned

def Returns (L : Loop σ α ε) (source : Source α ε) (result : Except ε (List α)) : Prop :=
  ∃ n, (L.run source n).2 = .returned result

/-- The reading of a body whose chunks are all there, and that then ends or breaks off. -/
def read (L : Loop σ α ε) (broken : Option ε) (s : σ) : List (List α) → Except ε (List α)
  | [] => match broken with
    | none => .ok (L.buffer s)
    | some error => .error error
  | chunk :: chunks => match L.take s chunk with
    | (s', none) => L.read broken s' chunks
    | (_, some error) => .error error

end Loop

/-- The chunks, then the end or a failure. -/
def ofList (broken : Option ε) (chunks : List (List α)) : Source α ε := fun n => match chunks[n]? with
  | some chunk => .chunk chunk
  | none => broken.elim .done .failed

/-- What the first `n` reads brought. -/
def gathered (source : Source α ε) : Nat → List α
  | 0 => []
  | n + 1 => gathered source n ++ match source n with
    | .chunk bytes => bytes
    | _ => []

/-- The first `n` reads are all chunks. -/
def Flows (source : Source α ε) (n : Nat) : Prop := ∀ i < n, ∃ bytes, source i = .chunk bytes

/-- What reading comes to: the whole body if it ends within the cap, the failure that came before the cap was crossed,
or a refusal with the size that crossed it. -/
inductive Whole (source : Source α ε) (cap : Nat) (refuse : Nat → ε) : Except ε (List α) → Prop where
  | ended (n : Nat) (hflows : Flows source n) (hdone : source n = .done) (hle : (gathered source n).length ≤ cap) :
    Whole source cap refuse (.ok (gathered source n))
  | broken (n : Nat) (error : ε) (hflows : Flows source n) (hfailed : source n = .failed error)
    (hle : (gathered source n).length ≤ cap) : Whole source cap refuse (.error error)
  | crossed (n : Nat) (hflows : Flows source (n + 1)) (hle : (gathered source n).length ≤ cap)
    (hover : cap < (gathered source (n + 1)).length) :
    Whole source cap refuse (.error (refuse (gathered source (n + 1)).length))

/-- A loop that takes no more than its cap: of a chunk that crosses it, it buffers no more than `spare` elements. -/
structure Caps (L : Loop σ α ε) (cap : Nat) (refuse : Nat → ε) (spare : List α → Nat) (Good : σ → Prop) : Prop where
  init : Good L.init
  empty : L.buffer L.init = []
  within : ∀ s chunk, Good s → (L.buffer s).length + chunk.length ≤ cap →
    ∃ s', L.take s chunk = (s', none) ∧ Good s' ∧ L.buffer s' = L.buffer s ++ chunk
  beyond : ∀ s chunk, Good s → (L.buffer s).length ≤ cap → cap < (L.buffer s).length + chunk.length →
    ∃ s', L.take s chunk = (s', some (refuse ((L.buffer s).length + chunk.length))) ∧
      (L.buffer s').length ≤ (L.buffer s).length + spare chunk

section
variable {L : Loop σ α ε} {source : Source α ε} {cap n m : Nat} {refuse : Nat → ε} {spare : List α → Nat}
  {Good : σ → Prop}

theorem gathered_chunk {bytes : List α} (h : source n = .chunk bytes) :
    gathered source (n + 1) = gathered source n ++ bytes := by
  simp [gathered, h]

theorem gathered_length_mono (h : n ≤ m) : (gathered source n).length ≤ (gathered source m).length := by
  induction h with
  | refl => exact Nat.le_refl _
  | step _ ih =>
    simp only [gathered, List.length_append]
    omega

theorem Flows.succ {bytes : List α} (h : Flows source n) (hchunk : source n = .chunk bytes) :
    Flows source (n + 1) := by
  intro i hi
  rcases Nat.lt_succ_iff_lt_or_eq.mp hi with hlt | rfl
  · exact h i hlt
  · exact ⟨bytes, hchunk⟩

section
variable {ε' : Type} {f : ε → ε'}

@[simp] theorem mapError_chunk {bytes : List α} : source.mapError f n = .chunk bytes ↔ source n = .chunk bytes := by
  cases h : source n <;> simp [Source.mapError, h]

@[simp] theorem mapError_done : source.mapError f n = .done ↔ source n = .done := by
  cases h : source n <;> simp [Source.mapError, h]

@[simp] theorem mapError_failed {error : ε'} :
    source.mapError f n = .failed error ↔ ∃ e, source n = .failed e ∧ f e = error := by
  cases h : source n <;> simp [Source.mapError, h]

@[simp] theorem gathered_mapError : gathered (source.mapError f) n = gathered source n := by
  induction n with
  | zero => rfl
  | succ n ih => cases h : source n <;> simp [gathered, ih, Source.mapError, h]

@[simp] theorem flows_mapError : Flows (source.mapError f) n ↔ Flows source n := by
  simp [Flows]

end

/-- A reader that is still reading has all that has come. -/
theorem Caps.reading (h : Caps L cap refuse spare Good) {s : σ} (hrun : L.run source n = (s, .reading)) :
    Good s ∧ Flows source n ∧ L.buffer s = gathered source n ∧ (gathered source n).length ≤ cap := by
  induction n generalizing s with
  | zero =>
    simp only [Loop.run, Prod.mk.injEq, and_true] at hrun
    subst hrun
    exact ⟨h.init, nofun, h.empty, by simp [gathered]⟩
  | succ n ih =>
    simp only [Loop.run] at hrun
    split at hrun
    · rename_i s₀ hrun₀
      obtain ⟨hgood, hflows, hbuffer, hle⟩ := ih hrun₀
      cases hsource : source n with
      | done => simp [hsource, Loop.step] at hrun
      | failed error => simp [hsource, Loop.step] at hrun
      | chunk bytes =>
        by_cases hfits : (L.buffer s₀).length + bytes.length ≤ cap
        · obtain ⟨s', htake, hgood', hbuffer'⟩ := h.within s₀ bytes hgood hfits
          simp only [hsource, Loop.step, htake, Prod.mk.injEq, and_true] at hrun
          subst hrun
          rw [gathered_chunk hsource, ← hbuffer]
          exact ⟨hgood', hflows.succ hsource, hbuffer', by simpa using hfits⟩
        · obtain ⟨s', htake, -⟩ := h.beyond s₀ bytes hgood (hbuffer ▸ hle) (by omega)
          simp [hsource, Loop.step, htake] at hrun
    · rename_i hreturned
      exact absurd hrun (hreturned s)

/-- What is buffered is within the cap, but for what the loop spares of the chunk that crosses it. -/
theorem Caps.peak (h : Caps L cap refuse spare Good) (source : Source α ε) (n : Nat) :
    (L.buffer (L.run source n).1).length ≤ cap ∨
      ∃ i bytes, source i = .chunk bytes ∧ (L.buffer (L.run source n).1).length ≤ cap + spare bytes := by
  induction n with
  | zero => simp [Loop.run, h.empty]
  | succ n ih =>
    simp only [Loop.run]
    split
    · rename_i s hrun
      obtain ⟨hgood, -, hbuffer, hle⟩ := h.reading hrun
      rw [← hbuffer] at hle
      cases hsource : source n with
      | done | failed error => exact .inl hle
      | chunk bytes =>
        by_cases hfits : (L.buffer s).length + bytes.length ≤ cap
        · obtain ⟨s', htake, -, hbuffer'⟩ := h.within s bytes hgood hfits
          exact .inl (by simp [Loop.step, htake, hbuffer', hfits])
        · obtain ⟨s', htake, hspare⟩ := h.beyond s bytes hgood hle (by omega)
          exact .inr ⟨n, bytes, hsource, by simp only [Loop.step, htake]; omega⟩
    · exact ih

/-- One read of a reader that is still reading. -/
theorem Caps.returned_step (h : Caps L cap refuse spare Good) {s : σ} {result : Except ε (List α)}
    (hrun : L.run source n = (s, .reading)) (hstep : (L.step s (source n)).2 = .returned result) :
    Whole source cap refuse result := by
  obtain ⟨hgood, hflows, hbuffer, hle⟩ := h.reading hrun
  cases hsource : source n with
  | done =>
    simp only [hsource, Loop.step, Status.returned.injEq] at hstep
    subst hstep
    exact hbuffer ▸ .ended n hflows hsource hle
  | failed error =>
    simp only [hsource, Loop.step, Status.returned.injEq] at hstep
    subst hstep
    exact .broken n error hflows hsource hle
  | chunk bytes =>
    by_cases hfits : (L.buffer s).length + bytes.length ≤ cap
    · obtain ⟨s', htake, -⟩ := h.within s bytes hgood hfits
      simp [hsource, Loop.step, htake] at hstep
    · obtain ⟨s', htake, -⟩ := h.beyond s bytes hgood (hbuffer ▸ hle) (by omega)
      simp only [hsource, Loop.step, htake, Status.returned.injEq] at hstep
      have hsize : (gathered source (n + 1)).length = (L.buffer s).length + bytes.length := by
        rw [gathered_chunk hsource, hbuffer, List.length_append]
      rw [← hstep, ← hsize]
      exact .crossed n (hflows.succ hsource) hle (by omega)

theorem Caps.sound (h : Caps L cap refuse spare Good) {result : Except ε (List α)}
    (hreturns : L.Returns source result) : Whole source cap refuse result := by
  obtain ⟨n, hn⟩ := hreturns
  induction n with
  | zero => simp [Loop.run] at hn
  | succ n ih =>
    simp only [Loop.run] at hn
    split at hn
    · rename_i s hrun
      exact h.returned_step hrun hn
    · exact ih hn

/-- While chunks come that fit, the reader reads. -/
theorem Caps.flows (h : Caps L cap refuse spare Good) (hflows : Flows source n)
    (hle : (gathered source n).length ≤ cap) : ∃ s, L.run source n = (s, .reading) := by
  induction n with
  | zero => exact ⟨L.init, rfl⟩
  | succ n ih =>
    obtain ⟨bytes, hbytes⟩ := hflows n (by omega)
    have hbelow : (gathered source n).length ≤ cap := Nat.le_trans (gathered_length_mono (by omega)) hle
    obtain ⟨s, hrun⟩ := ih (fun i hi => hflows i (by omega)) hbelow
    obtain ⟨hgood, -, hbuffer, -⟩ := h.reading hrun
    have hfits : (L.buffer s).length + bytes.length ≤ cap := by
      rw [hbuffer, ← List.length_append, ← gathered_chunk hbytes]
      exact hle
    obtain ⟨s', htake, -⟩ := h.within s bytes hgood hfits
    exact ⟨s', by simp [Loop.run, hrun, hbytes, Loop.step, htake]⟩

theorem Caps.complete (h : Caps L cap refuse spare Good) {result : Except ε (List α)}
    (hwhole : Whole source cap refuse result) : L.Returns source result := by
  cases hwhole with
  | ended n hflows hdone hle =>
    obtain ⟨s, hrun⟩ := h.flows hflows hle
    obtain ⟨-, -, hbuffer, -⟩ := h.reading hrun
    exact ⟨n + 1, by simp [Loop.run, hrun, hdone, Loop.step, hbuffer]⟩
  | broken n error hflows hfailed hle =>
    obtain ⟨s, hrun⟩ := h.flows hflows hle
    exact ⟨n + 1, by simp [Loop.run, hrun, hfailed, Loop.step]⟩
  | crossed n hflows hle hover =>
    obtain ⟨s, hrun⟩ := h.flows (fun i hi => hflows i (by omega)) hle
    obtain ⟨hgood, -, hbuffer, -⟩ := h.reading hrun
    obtain ⟨bytes, hbytes⟩ := hflows n (by omega)
    have hsize : (gathered source (n + 1)).length = (L.buffer s).length + bytes.length := by
      rw [gathered_chunk hbytes, hbuffer, List.length_append]
    obtain ⟨s', htake, -⟩ := h.beyond s bytes hgood (hbuffer ▸ hle) (by omega)
    exact ⟨n + 1, by simp [Loop.run, hrun, hbytes, Loop.step, htake, hsize]⟩

/-- However the body is cut into chunks, the loop comes to what reading it whole comes to. -/
theorem Caps.returned_iff (h : Caps L cap refuse spare Good) {result : Except ε (List α)} :
    L.Returns source result ↔ Whole source cap refuse result := ⟨h.sound, h.complete⟩

theorem gathered_grows (hflows : Flows source n) (hchunks : ∀ i bytes, source i = .chunk bytes → bytes ≠ []) :
    n ≤ (gathered source n).length := by
  induction n with
  | zero => exact Nat.zero_le _
  | succ n ih =>
    obtain ⟨bytes, hbytes⟩ := hflows n (by omega)
    have hpos := List.length_pos_of_ne_nil (hchunks n bytes hbytes)
    have hih := ih fun i hi => hflows i (by omega)
    rw [gathered_chunk hbytes, List.length_append]
    omega

/-- A body whose chunks are not empty is given up after no more reads than the cap allows, be it endless. -/
theorem Caps.ends (h : Caps L cap refuse spare Good)
    (hchunks : ∀ i bytes, source i = .chunk bytes → bytes ≠ []) :
    ∃ result, (L.run source (cap + 1)).2 = .returned result := by
  cases hrun : L.run source (cap + 1) with
  | mk s status =>
    cases status with
    | returned result => exact ⟨result, rfl⟩
    | reading =>
      obtain ⟨-, hflows, -, hle⟩ := h.reading hrun
      have hgrown := gathered_grows hflows hchunks
      omega

/-! ## Bodies that are all there -/

variable {broken : Option ε} {chunks : List (List α)}

end

end Chunks
