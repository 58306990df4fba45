import Mathlib.Data.List.Forall2
/-!
# Chains of checks

`ensure` and `orThrow` are the two ways a checked function refuses its input: a condition that must
hold and a value that must be there. `refuse` and `sole` are variants of the two. A function written as a chain of them is read back by `simp`:
`chain = .ok b` becomes the conjunction of its conditions.
-/
namespace Checked
variable {α β ε : Type}

/-- `ensure!(p, e)`. -/
def ensure (p : Prop) [Decidable p] (e : ε) : Except ε Unit := if p then .ok () else .error e

/-- `o.ok_or(e)?`. -/
def orThrow (o : Option α) (e : ε) : Except ε α :=
  match o with
  | some a => .ok a
  | none => .error e

/-- The first thing found wrong, if any, is the refusal. -/
def refuse (found : Option ε) : Except ε Unit :=
  match found with
  | some e => .error e
  | none => .ok ()

/-- The one element of a list, and a refusal that counts them when there is not exactly one. -/
def sole (xs : List α) (refusal : Nat → ε) : Except ε α :=
  match xs with
  | [x] => .ok x
  | _ => .error (refusal xs.length)

@[simp] theorem refuse_ok {found : Option ε} {u : Unit} : refuse found = .ok u ↔ found = none := by
  cases found <;> simp [refuse]

@[simp] theorem sole_ok {xs : List α} {refusal : Nat → ε} {x : α} : sole xs refusal = .ok x ↔ xs = [x] := by
  unfold sole
  split <;> simp_all

@[simp] theorem ensure_ok {p : Prop} [Decidable p] {e : ε} {u : Unit} : ensure p e = .ok u ↔ p := by
  by_cases h : p <;> simp [ensure, h]

@[simp] theorem orThrow_ok {o : Option α} {e : ε} {a : α} : orThrow o e = .ok a ↔ o = some a := by
  cases o <;> simp [orThrow]

theorem bind_ok {x : Except ε α} {f : α → Except ε β} {b : β} :
    (x >>= f) = .ok b ↔ ∃ a, x = .ok a ∧ f a = .ok b := by
  cases x <;> simp [Bind.bind, Except.bind]

@[simp] theorem ensure_bind_ok {p : Prop} [Decidable p] {e : ε} {f : Unit → Except ε β} {b : β} :
    (ensure p e >>= f) = .ok b ↔ p ∧ f () = .ok b := by
  by_cases h : p <;> simp [ensure, h, Bind.bind, Except.bind]

@[simp] theorem orThrow_bind_ok {o : Option α} {e : ε} {f : α → Except ε β} {b : β} :
    (orThrow o e >>= f) = .ok b ↔ ∃ a, o = some a ∧ f a = .ok b := by
  cases o <;> simp [orThrow, Bind.bind, Except.bind]

@[simp] theorem pure_ok {a b : α} : (pure a : Except ε α) = .ok b ↔ a = b := by
  simp [pure, Except.pure]

@[simp] theorem mapError_ok {ε' : Type} {f : ε → ε'} {x : Except ε α} {a : α} : x.mapError f = .ok a ↔ x = .ok a := by
  cases x <;> simp [Except.mapError]

theorem map_fst_ok {x : Except ε (α × β)} {a : α} : x.map Prod.fst = .ok a ↔ ∃ b, x = .ok (a, b) := by
  cases x <;> simp [Except.map, Prod.ext_iff]

theorem map_bind (x : Except ε α) (f : α → Except ε β) {γ : Type} (g : β → γ) :
    (x >>= f).map g = x >>= fun a => (f a).map g := by
  cases x <;> rfl

theorem map_pure (a : α) (g : α → β) : (pure a : Except ε α).map g = pure (g a) := rfl

/-! ## Which refusal it was -/

/-- Every refusal of `x` is one of `E`. -/
def Refuses (E : ε → Prop) (x : Except ε α) : Prop := ∀ e, x = .error e → E e

section
variable {E : ε → Prop} {x : Except ε α} {f : α → Except ε β} {e : ε}

theorem refuses_pure {a : α} : Refuses E (pure a : Except ε α) := fun _ h => by cases h

theorem refuses_ensure {p : Prop} [Decidable p] (h : E e) : Refuses E (ensure p e) := by
  intro e' he'
  unfold ensure at he'
  split at he'
  · cases he'
  · cases he'
    exact h

theorem refuses_orThrow {o : Option α} (h : E e) : Refuses E (orThrow o e) := by
  intro e' he'
  cases o with
  | some a => cases he'
  | none =>
    cases he'
    exact h

theorem refuses_bind (hx : Refuses E x) (hf : ∀ a, Refuses E (f a)) : Refuses E (x >>= f) := by
  intro e he
  cases x with
  | error e' =>
    cases he
    exact hx e rfl
  | ok a => exact hf a e he

/-- What follows `x` may count on what `x` gave. -/
theorem refuses_then (hx : Refuses E x) (hf : ∀ a, x = .ok a → Refuses E (f a)) : Refuses E (x >>= f) := by
  intro e he
  cases x with
  | error e' =>
    cases he
    exact hx e rfl
  | ok a => exact hf a rfl e he

theorem refuses_any (x : Except ε α) : Refuses (fun _ => True) x := fun _ _ => trivial

theorem refuses_of_ok {a : α} (h : x = .ok a) : Refuses E x := fun _ he => by cases h.symm.trans he

/-- A refusal that `x` never makes is made by what follows it. -/
theorem Refuses.past (hx : Refuses E x) (hne : ¬ E e) (h : (x >>= f) = .error e) : ∃ a, x = .ok a ∧ f a = .error e := by
  cases x with
  | error e' =>
    cases h
    exact absurd (hx e rfl) hne
  | ok a => exact ⟨a, rfl, h⟩

theorem refuses_mapError {ε' : Type} {E' : ε' → Prop} {x : Except ε' α} {g : ε' → ε} (hx : Refuses E' x)
    (hg : ∀ e, E' e → E (g e)) : Refuses E (x.mapError g) := by
  intro e he
  cases x with
  | error e' =>
    cases he
    exact hg e' (hx e' rfl)
  | ok a => cases he

theorem refuses_sole {xs : List α} {refusal : Nat → ε} (h : E (refusal xs.length)) : Refuses E (sole xs refusal) := by
  intro e he
  unfold sole at he
  split at he
  · cases he
  · cases he
    exact h

theorem ensure_bind_error {p : Prop} [Decidable p] {e' : ε} {g : Unit → Except ε β} (hne : e' ≠ e) :
    (ensure p e' >>= g) = .error e ↔ p ∧ g () = .error e := by
  by_cases h : p <;> simp [ensure, h, Bind.bind, Except.bind, hne]

theorem orThrow_bind_error {o : Option α} {e' : ε} (hne : e' ≠ e) :
    (orThrow o e' >>= f) = .error e ↔ ∃ a, o = some a ∧ f a = .error e := by
  cases o <;> simp [orThrow, Bind.bind, Except.bind, hne]

end

/-! ## Loops that stop at the first refusal -/

/-- A loop over a list succeeds with what each element gives. -/
theorem mapM_ok {f : α → Except ε β} : ∀ {xs : List α} {ys : List β},
    xs.mapM f = .ok ys ↔ List.Forall₂ (fun x y => f x = .ok y) xs ys
  | [], ys => by
    rw [List.mapM_nil, pure_ok, List.forall₂_nil_left_iff]
    exact eq_comm
  | x :: xs, ys => by
    rw [List.mapM_cons, bind_ok]
    constructor
    · rintro ⟨y, hy, h⟩
      obtain ⟨zs, hzs, h⟩ := bind_ok.1 h
      obtain rfl := pure_ok.1 h
      exact .cons hy (mapM_ok.1 hzs)
    · intro h
      cases h with
      | cons hy hzs => exact ⟨_, hy, bind_ok.2 ⟨_, mapM_ok.2 hzs, rfl⟩⟩

theorem forM_ok {f : α → Except ε Unit} : ∀ {xs : List α} {u : Unit}, xs.forM f = .ok u ↔ ∀ x ∈ xs, f x = .ok ()
  | [], _ => ⟨fun _ _ hx => (by cases hx), fun _ => rfl⟩
  | x :: xs, u => by
    show (f x >>= fun _ => xs.forM f) = .ok u ↔ _
    rw [bind_ok, List.forall_mem_cons]
    exact ⟨fun ⟨_, hx, hxs⟩ => ⟨hx, forM_ok.1 hxs⟩, fun h => ⟨(), h.1, forM_ok.2 h.2⟩⟩

/-- A loop that numbers its rounds, where the number decides only which refusal it is. -/
theorem mapM_zipIdx_ok {f : Nat → α → Except ε β} {R : α → β → Prop} {xs : List α} {ys : List β}
    (hf : ∀ i x y, f i x = .ok y ↔ R x y) :
    xs.zipIdx.mapM (fun entry => f entry.2 entry.1) = .ok ys ↔ List.Forall₂ R xs ys := by
  rw [mapM_ok]
  simp only [hf]
  rw [← List.forall₂_map_left_iff, List.zipIdx_map_fst]

theorem forM_zipIdx_ok {f : Nat → α → Except ε Unit} {P : α → Prop} {xs : List α} {u : Unit}
    (hf : ∀ i x, f i x = .ok () ↔ P x) : xs.zipIdx.forM (fun entry => f entry.2 entry.1) = .ok u ↔ ∀ x ∈ xs, P x := by
  simp only [forM_ok, hf]
  rw [← List.zipIdx_map_fst 0 xs, List.forall_mem_map, List.zipIdx_map_fst]

theorem mem_of_mapM_ok {f : α → Except ε β} {xs : List α} {ys : List β} {y : β} (h : xs.mapM f = .ok ys)
    (hy : y ∈ ys) : ∃ x ∈ xs, f x = .ok y := by
  replace h := mapM_ok.1 h
  induction h with
  | nil => cases hy
  | cons hx _ ih =>
    rcases List.mem_cons.1 hy with rfl | hy
    · exact ⟨_, List.mem_cons_self, hx⟩
    · obtain ⟨x, hx, hfx⟩ := ih hy
      exact ⟨x, List.mem_cons_of_mem _ hx, hfx⟩

/-- What a loop computes from each element, read off the results. -/
theorem map_of_mapM_ok {γ : Type} {f : α → Except ε β} {g : β → γ} {k : α → γ} {xs : List α} {ys : List β}
    (h : xs.mapM f = .ok ys) (hg : ∀ x y, f x = .ok y → g y = k x) : ys.map g = xs.map k := by
  replace h := mapM_ok.1 h
  induction h with
  | nil => rfl
  | cons hx _ ih => rw [List.map_cons, List.map_cons, hg _ _ hx, ih]

theorem mapM_ok_of_forall {f : α → Except ε β} {xs : List α} (h : ∀ x ∈ xs, ∃ y, f x = .ok y) :
    ∃ ys, xs.mapM f = .ok ys := by
  induction xs with
  | nil => exact ⟨[], rfl⟩
  | cons x xs ih =>
    obtain ⟨y, hy⟩ := h x List.mem_cons_self
    obtain ⟨ys, hys⟩ := ih fun z hz => h z (List.mem_cons_of_mem _ hz)
    exact ⟨y :: ys, mapM_ok.2 (.cons hy (mapM_ok.1 hys))⟩

theorem mapM_congr_mem {f g : α → Except ε β} {xs : List α} (h : ∀ x ∈ xs, f x = g x) : xs.mapM f = xs.mapM g := by
  induction xs with
  | nil => rfl
  | cons x xs ih =>
    rw [List.mapM_cons, List.mapM_cons, h x List.mem_cons_self, ih fun y hy => h y (List.mem_cons_of_mem _ hy)]

/-- What each round of a loop keeps, the loop keeps. -/
theorem foldlM_induct {f : β → α → Except ε β} {P : β → Prop} : ∀ {xs : List α} {a b : β},
    (∀ a x b, x ∈ xs → P a → f a x = .ok b → P b) → P a → xs.foldlM f a = .ok b → P b
  | [], a, b, _, ha, h => by
    rw [List.foldlM_nil, pure_ok] at h
    exact h ▸ ha
  | x :: xs, a, b, step, ha, h => by
    rw [List.foldlM_cons, bind_ok] at h
    obtain ⟨c, hc, h⟩ := h
    exact foldlM_induct (fun a y b hy => step a y b (List.mem_cons_of_mem _ hy))
      (step a x c List.mem_cons_self ha hc) h

/-- A loop refuses what its rounds refuse. -/
theorem refuses_foldlM {E : ε → Prop} {f : β → α → Except ε β} (h : ∀ a x, Refuses E (f a x)) :
    ∀ {xs : List α} {a : β}, Refuses E (xs.foldlM f a)
  | [], _ => refuses_pure
  | x :: xs, a => by
    rw [List.foldlM_cons]
    exact refuses_bind (h a x) fun b => refuses_foldlM h

theorem refuses_mapM {E : ε → Prop} {f : α → Except ε β} (h : ∀ x, Refuses E (f x)) :
    ∀ {xs : List α}, Refuses E (xs.mapM f)
  | [] => refuses_pure
  | x :: xs => by
    rw [List.mapM_cons]
    exact refuses_bind (h x) fun b => refuses_bind (refuses_mapM h) fun c => refuses_pure

end Checked
