/-!
# Programs that call out, and what holds at every point of their runs

A `Prog S α` is a sequential program over the calls of a signature `S`: it either ends with a
value or makes one call and goes on with the answer. What the calls do is given by a `Handler`: the
answer and the next state are a function of the call, of one environment choice and of the state.

`Prog.run` takes the environment's choices as a list. A program that reaches a call when the list
is used up stops there for good, so the runs over all lists are the runs with a crash at every
point. `Keeps` is the matching program logic: an assertion that holds before and after every call,
and one that holds of the result. A program is verified by `keeps_call` and `keeps_bind`, and
`Keeps.run` turns the outcome into a statement about all runs.
-/
namespace Interact

/-- The calls a program may make, each with the type of its answers. -/
structure Sig where
  Op : Type
  Ans : Op → Type

inductive Prog (S : Sig) (α : Type) where
  | ret (a : α)
  | call (o : S.Op) (k : S.Ans o → Prog S α)

/-- What a call answers and leaves behind, for each choice of the environment. -/
structure Handler (S : Sig) (ε σ : Type) where
  step : (o : S.Op) → ε → σ → S.Ans o × σ

namespace Prog
variable {S : Sig} {α β γ ε σ : Type}

protected def bind : Prog S α → (α → Prog S β) → Prog S β
  | .ret a, f => f a
  | .call o k, f => .call o fun x => (k x).bind f

instance : Monad (Prog S) where
  pure := .ret
  bind := Prog.bind

/-- One call, ending with its answer. -/
def perform (o : S.Op) : Prog S (S.Ans o) := .call o .ret

/-- Runs a program over the environment's choices. The value is missing when the choices end before
the program does; what is left of them is returned too. -/
def run (H : Handler S ε σ) : Prog S α → List ε → σ → Option α × List ε × σ
  | .ret a, es, s => (some a, es, s)
  | .call _ _, [], s => (none, [], s)
  | .call o k, e :: es, s => (k (H.step o e s).1).run H es (H.step o e s).2

/-- `p`, started in `s`, keeps `I` at every point and ends, if it ends, in `Q`. -/
def Keeps (H : Handler S ε σ) (I : σ → Prop) : Prog S α → (α → σ → Prop) → σ → Prop
  | .ret a, Q, s => I s ∧ Q a s
  | .call o k, Q, s => I s ∧ ∀ e, (k (H.step o e s).1).Keeps H I Q (H.step o e s).2

variable {H : Handler S ε σ} {I : σ → Prop}

@[simp] theorem pure_eq (a : α) : (pure a : Prog S α) = .ret a := rfl

@[simp] theorem ret_bind (a : α) (f : α → Prog S β) : (Prog.ret a >>= f) = f a := rfl

@[simp] theorem call_bind (o : S.Op) (k : S.Ans o → Prog S α) (f : α → Prog S β) :
    (Prog.call o k >>= f) = .call o fun x => k x >>= f := rfl

@[simp] theorem perform_bind (o : S.Op) (f : S.Ans o → Prog S β) : (perform o >>= f) = .call o f := rfl

@[simp] theorem keeps_ret (a : α) (Q : α → σ → Prop) (s : σ) :
    (Prog.ret a : Prog S α).Keeps H I Q s ↔ I s ∧ Q a s := Iff.rfl

theorem keeps_call (o : S.Op) (k : S.Ans o → Prog S α) (Q : α → σ → Prop) (s : σ) :
    (Prog.call o k).Keeps H I Q s ↔ I s ∧ ∀ e, (k (H.step o e s).1).Keeps H I Q (H.step o e s).2 :=
  Iff.rfl

theorem Keeps.start : ∀ {p : Prog S α} {Q : α → σ → Prop} {s : σ}, p.Keeps H I Q s → I s
  | .ret _, _, _, h => h.1
  | .call _ _, _, _, h => h.1

theorem Keeps.mono {Q Q' : α → σ → Prop} (hQ : ∀ a s, I s → Q a s → Q' a s) :
    ∀ {p : Prog S α} {s : σ}, p.Keeps H I Q s → p.Keeps H I Q' s
  | .ret a, s, h => ⟨h.1, hQ a s h.1 h.2⟩
  | .call _ _, _, h => ⟨h.1, fun e => (h.2 e).mono hQ⟩

theorem keeps_bind (p : Prog S α) (f : α → Prog S β) (Q : β → σ → Prop) (s : σ) :
    (p >>= f).Keeps H I Q s ↔ p.Keeps H I (fun a s' => (f a).Keeps H I Q s') s := by
  induction p generalizing s with
  | ret a => exact ⟨fun h => ⟨h.start, h⟩, fun h => h.2⟩
  | call o k ih =>
    simp only [call_bind, keeps_call]
    exact and_congr_right fun _ => forall_congr' fun e => ih _ _

/-- Every run of a verified program, cut short or not, ends in a state where `I` holds, and in one
where `Q` holds of its value if it has one. -/
theorem Keeps.run {Q : α → σ → Prop} :
    ∀ {p : Prog S α} {s : σ} (es : List ε), p.Keeps H I Q s →
      I (p.run H es s).2.2 ∧ ∀ a, (p.run H es s).1 = some a → Q a (p.run H es s).2.2
  | .ret b, s, es, h => ⟨h.1, fun a ha => by cases ha; exact h.2⟩
  | .call o k, s, [], h => ⟨h.1, fun a ha => by cases ha⟩
  | .call o k, s, e :: es, h => (h.2 e).run es

/-! ## Programs that can fail -/

section
variable {ρ : Type}

/-- The rule for `x >>= f` when either may fail with a `ρ`: a failure of `x` is the whole's. -/
theorem keeps_bindE (x : ExceptT ρ (Prog S) α) (f : α → ExceptT ρ (Prog S) β)
    (Q : Except ρ β → σ → Prop) (s : σ) :
    Prog.Keeps H I (x >>= f).run Q s ↔
      Prog.Keeps H I x.run (fun r s' => match r with
        | .ok a => Prog.Keeps H I (f a).run Q s'
        | .error e => Q (.error e) s') s := by
  have hrun : (x >>= f).run = x.run >>= fun r => match r with
      | .ok a => (f a).run
      | .error e => .ret (.error e) := by
    show x.run >>= _ = _
    congr 1
    funext r
    cases r <;> rfl
  rw [hrun, keeps_bind]
  constructor
  · intro h
    refine h.mono fun r s' _ hr => ?_
    cases r with
    | ok a => exact hr
    | error e => exact hr.2
  · intro h
    refine h.mono fun r s' hI hr => ?_
    cases r with
    | ok a => exact hr
    | error e => exact ⟨hI, hr⟩

theorem keeps_bindE_of {x : ExceptT ρ (Prog S) α} {f : α → ExceptT ρ (Prog S) β}
    {R : Except ρ α → σ → Prop} {Q : Except ρ β → σ → Prop} {s : σ}
    (hx : Prog.Keeps H I x.run R s)
    (hok : ∀ a s', I s' → R (.ok a) s' → Prog.Keeps H I (f a).run Q s')
    (herr : ∀ e s', I s' → R (.error e) s' → Q (.error e) s') :
    Prog.Keeps H I (x >>= f).run Q s := by
  rw [keeps_bindE]
  refine hx.mono fun r s' hI hr => ?_
  cases r with
  | ok a => exact hok a s' hI hr
  | error e => exact herr e s' hI hr

theorem keeps_pureE {a : α} {Q : Except ρ α → σ → Prop} {s : σ} (hI : I s) (hQ : Q (.ok a) s) :
    Prog.Keeps H I (pure a : ExceptT ρ (Prog S) α).run Q s := ⟨hI, hQ⟩

theorem keeps_throw {e : ρ} {Q : Except ρ α → σ → Prop} {s : σ} (hI : I s) (hQ : Q (.error e) s) :
    Prog.Keeps H I (throw e : ExceptT ρ (Prog S) α).run Q s := ⟨hI, hQ⟩

theorem keeps_map {f : α → β} {p : Prog S α} {Q : β → σ → Prop} {s : σ}
    (h : p.Keeps H I (fun a s' => Q (f a) s') s) : Prog.Keeps H I (f <$> p) Q s := by
  show Prog.Keeps H I (p >>= fun a => .ret (f a)) Q s
  rw [keeps_bind]
  exact h.mono fun a s' hI hQ => ⟨hI, hQ⟩

/-- A program that cannot fail, among ones that can. -/
theorem keeps_lift {p : Prog S α} {Q : Except ρ α → σ → Prop} {s : σ}
    (h : p.Keeps H I (fun a s' => Q (.ok a) s') s) :
    Prog.Keeps H I (ExceptT.lift p : ExceptT ρ (Prog S) α).run Q s := keeps_map h

theorem keeps_adapt {τ : Type} {f : ρ → τ} {x : ExceptT ρ (Prog S) α} {Q : Except τ α → σ → Prop} {s : σ}
    (h : Prog.Keeps H I x.run (fun r s' => Q (r.mapError f) s') s) :
    Prog.Keeps H I (x.adapt f).run Q s := keeps_map h

theorem keeps_tryCatch {x : ExceptT ρ (Prog S) α} {h : ρ → ExceptT ρ (Prog S) α} {Q : Except ρ α → σ → Prop} {s : σ}
    (hx : Prog.Keeps H I x.run (fun r s' => match r with
      | .ok a => Q (.ok a) s'
      | .error e => Prog.Keeps H I (h e).run Q s') s) :
    Prog.Keeps H I (tryCatch x h).run Q s := by
  have hrun : (tryCatch x h).run = x.run >>= fun r => match r with
      | .ok a => .ret (.ok a)
      | .error e => (h e).run := by
    show x.run >>= _ = _
    congr 1
    funext r
    cases r <;> rfl
  rw [hrun, keeps_bind]
  refine hx.mono fun r s' hI hr => ?_
  cases r with
  | ok a => exact ⟨hI, hr⟩
  | error e => exact hr

end

end Prog

/-! ## Rules read backwards

`Ensures H I t Q s` is `Keeps` for a program that may fail. A sequence is proved one step at a time:
`ensures_seq` leaves the first step to show, with what follows it as the outcome asked for (`Then`). -/

section
variable {S : Sig} {ρ τ α β ε σ : Type} {H : Handler S ε σ} {I : σ → Prop} {s : σ}

def Ensures (H : Handler S ε σ) (I : σ → Prop) (t : ExceptT ρ (Prog S) α) (Q : Except ρ α → σ → Prop) (s : σ) : Prop :=
  Prog.Keeps H I t.run Q s

def Then (H : Handler S ε σ) (I : σ → Prop) (f : α → ExceptT ρ (Prog S) β) (Q : Except ρ β → σ → Prop) :
    Except ρ α → σ → Prop
  | .ok a, s => Ensures H I (f a) Q s
  | .error e, s => Q (.error e) s

theorem ensures_pure {a : α} {Q : Except ρ α → σ → Prop} (hI : I s) (hQ : Q (.ok a) s) :
    Ensures H I (pure a : ExceptT ρ (Prog S) α) Q s := Prog.keeps_pureE hI hQ

theorem ensures_throw {e : ρ} {Q : Except ρ α → σ → Prop} (hI : I s) (hQ : Q (.error e) s) :
    Ensures H I (throw e : ExceptT ρ (Prog S) α) Q s := Prog.keeps_throw hI hQ

theorem ensures_seq {x : ExceptT ρ (Prog S) α} {f : α → ExceptT ρ (Prog S) β} {Q : Except ρ β → σ → Prop}
    (h : Ensures H I x (Then H I f Q) s) : Ensures H I (x >>= f) Q s :=
  Prog.keeps_bindE_of h (fun _ _ _ h => h) (fun _ _ _ h => h)

theorem Ensures.mono {t : ExceptT ρ (Prog S) α} {Q R : Except ρ α → σ → Prop} (h : Ensures H I t Q s)
    (hQ : ∀ r s', I s' → Q r s' → R r s') : Ensures H I t R s := Prog.Keeps.mono hQ h

/-- The rule for a step with a specification of its own. -/
theorem Ensures.seq {x : ExceptT ρ (Prog S) α} {f : α → ExceptT ρ (Prog S) β} {R : Except ρ α → σ → Prop}
    {Q : Except ρ β → σ → Prop} (hx : Ensures H I x R s) (hok : ∀ a s', I s' → R (.ok a) s' → Ensures H I (f a) Q s')
    (herr : ∀ e s', I s' → R (.error e) s' → Q (.error e) s') : Ensures H I (x >>= f) Q s :=
  Prog.keeps_bindE_of hx hok herr

theorem ensures_adapt {f : ρ → τ} {t : ExceptT ρ (Prog S) α} {Q : Except τ α → σ → Prop}
    (h : Ensures H I t (fun r s' => Q (r.mapError f) s') s) : Ensures H I (t.adapt f) Q s := Prog.keeps_adapt h

/-- A program whose failure is looked at, not passed on. -/
theorem ensures_lift {t : ExceptT ρ (Prog S) α} {Q : Except τ (Except ρ α) → σ → Prop}
    (h : Ensures H I t (fun r s' => Q (.ok r) s') s) :
    Ensures H I (ExceptT.lift t.run : ExceptT τ (Prog S) (Except ρ α)) Q s := Prog.keeps_lift h

theorem ensures_call {o : S.Op} {Q : Except ρ (S.Ans o) → σ → Prop} (hI : I s)
    (h : ∀ e, I (H.step o e s).2 ∧ Q (.ok (H.step o e s).1) (H.step o e s).2) :
    Ensures H I (ExceptT.lift (Prog.perform o) : ExceptT ρ (Prog S) (S.Ans o)) Q s := ⟨hI, h⟩

end

end Interact
