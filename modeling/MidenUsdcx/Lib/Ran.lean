import MidenUsdcx.Lib.Trace
/-!
# Runs that ended

`Ran H p es s a es' s'`: over the choices `es` the program `p`, started in `s`, ended with `a` in `s'`, and `es'` is what
it left of the choices. `Returned` is the same of a program that can fail, for the runs that did not.

The logics of `Keeps` and `Guards` say what holds whatever the environment chooses, and lose its choices on the way. A
run that ended is taken apart here with its choices in hand, one rule for each way to build a program, all of them exact.
-/
namespace Interact

section
variable {S : Sig} {ρ τ α β ε σ : Type} {H : Handler S ε σ} {es es' : List ε} {s s' : σ}

def Ran (H : Handler S ε σ) (p : Prog S α) (es : List ε) (s : σ) (a : α) (es' : List ε) (s' : σ) : Prop :=
  p.run H es s = (some a, es', s')

def Returned (H : Handler S ε σ) (t : ExceptT ρ (Prog S) α) (es : List ε) (s : σ) (a : α) (es' : List ε) (s' : σ) : Prop :=
  Ran H t.run es s (.ok a) es' s'

/-! ## Programs -/

theorem ran_ret {a b : α} : Ran H (.ret a) es s b es' s' ↔ b = a ∧ es' = es ∧ s' = s := by
  simp only [Ran, Prog.run, Prod.mk.injEq, Option.some.injEq, eq_comm]

theorem ran_call {o : S.Op} {k : S.Ans o → Prog S α} {b : α} :
    Ran H (.call o k) es s b es' s' ↔
      ∃ e rest, es = e :: rest ∧ Ran H (k (H.step o e s).1) rest (H.step o e s).2 b es' s' := by
  cases es with
  | nil =>
    refine ⟨fun h => ?_, fun ⟨e, rest, h, _⟩ => by cases h⟩
    cases congrArg Prod.fst h
  | cons e rest =>
    constructor
    · exact fun h => ⟨e, rest, rfl, h⟩
    · rintro ⟨e', rest', heq, h⟩
      obtain ⟨rfl, rfl⟩ := List.cons.inj heq
      exact h

theorem ran_bind {p : Prog S α} {f : α → Prog S β} {b : β} :
    Ran H (p >>= f) es s b es' s' ↔ ∃ a es₁ s₁, Ran H p es s a es₁ s₁ ∧ Ran H (f a) es₁ s₁ b es' s' := by
  induction p generalizing es s with
  | ret a =>
    rw [Prog.ret_bind]
    constructor
    · exact fun h => ⟨a, es, s, ran_ret.2 ⟨rfl, rfl, rfl⟩, h⟩
    · rintro ⟨a', es₁, s₁, h, hrest⟩
      obtain ⟨rfl, rfl, rfl⟩ := ran_ret.1 h
      exact hrest
  | call o k ih =>
    simp only [Prog.call_bind, ran_call, ih]
    constructor
    · rintro ⟨e, rest, heq, a, es₁, s₁, hp, hf⟩
      exact ⟨a, es₁, s₁, ⟨e, rest, heq, hp⟩, hf⟩
    · rintro ⟨a, es₁, s₁, ⟨e, rest, heq, hp⟩, hf⟩
      exact ⟨e, rest, heq, a, es₁, s₁, hp, hf⟩

/-! ## Programs that can fail -/

theorem returned_pure {a b : α} :
    Returned H (pure a : ExceptT ρ (Prog S) α) es s b es' s' ↔ b = a ∧ es' = es ∧ s' = s := by
  rw [← Except.ok.injEq (ε := ρ)]
  exact ran_ret

theorem returned_throw {e : ρ} {b : α} : ¬ Returned H (throw e : ExceptT ρ (Prog S) α) es s b es' s' :=
  fun h => by cases (ran_ret.1 h).1

theorem returned_bind {x : ExceptT ρ (Prog S) α} {f : α → ExceptT ρ (Prog S) β} {b : β} :
    Returned H (x >>= f) es s b es' s' ↔
      ∃ a es₁ s₁, Returned H x es s a es₁ s₁ ∧ Returned H (f a) es₁ s₁ b es' s' := by
  unfold Returned
  rw [run_bindE, ran_bind]
  constructor
  · rintro ⟨r, es₁, s₁, hx, hf⟩
    cases r with
    | ok a => exact ⟨a, es₁, s₁, hx, hf⟩
    | error e => cases (ran_ret.1 hf).1
  · rintro ⟨a, es₁, s₁, hx, hf⟩
    exact ⟨.ok a, es₁, s₁, hx, hf⟩

theorem returned_lift {p : Prog S α} {a : α} :
    Returned H (ExceptT.lift p : ExceptT ρ (Prog S) α) es s a es' s' ↔ Ran H p es s a es' s' := by
  unfold Returned
  refine ran_bind.trans ⟨?_, fun h => ⟨a, es', s', h, ran_ret.2 ⟨rfl, rfl, rfl⟩⟩⟩
  rintro ⟨a', es₁, s₁, h, hret⟩
  obtain ⟨heq, rfl, rfl⟩ := ran_ret.1 hret
  cases heq
  exact h

theorem returned_call {o : S.Op} {a : S.Ans o} :
    Returned H (ExceptT.lift (Prog.perform o) : ExceptT ρ (Prog S) (S.Ans o)) es s a es' s' ↔
      ∃ e, es = e :: es' ∧ a = (H.step o e s).1 ∧ s' = (H.step o e s).2 := by
  rw [returned_lift, Prog.perform, ran_call]
  simp only [ran_ret]
  constructor
  · rintro ⟨e, rest, heq, ha, rfl, hs⟩
    exact ⟨e, heq, ha, hs⟩
  · rintro ⟨e, heq, ha, hs⟩
    exact ⟨e, es', heq, ha, rfl, hs⟩

/-- A call that is followed by more of the program. -/
theorem ran_call_bind {o : S.Op} {f : S.Ans o → ExceptT ρ (Prog S) β} {r : Except ρ β} :
    Ran H ((ExceptT.lift (Prog.perform o) : ExceptT ρ (Prog S) (S.Ans o)) >>= f).run es s r es' s' ↔
      ∃ e rest, es = e :: rest ∧ Ran H (f (H.step o e s).1).run rest (H.step o e s).2 r es' s' := by
  rw [run_lift_bind]
  exact ran_call

theorem returned_adapt {f : ρ → τ} {t : ExceptT ρ (Prog S) α} {a : α} :
    Returned H (t.adapt f) es s a es' s' ↔ Returned H t es s a es' s' := by
  unfold Returned
  refine ran_bind.trans ⟨?_, fun h => ⟨.ok a, es', s', h, ran_ret.2 ⟨rfl, rfl, rfl⟩⟩⟩
  rintro ⟨r, es₁, s₁, h, hret⟩
  obtain ⟨heq, rfl, rfl⟩ := ran_ret.1 hret
  cases r with
  | ok a' => cases heq; exact h
  | error e => cases heq

theorem returned_tryCatch {x : ExceptT ρ (Prog S) α} {h : ρ → ExceptT ρ (Prog S) α} {a : α} :
    Returned H (tryCatch x h) es s a es' s' ↔
      Returned H x es s a es' s' ∨
        ∃ e es₁ s₁, Ran H x.run es s (.error e) es₁ s₁ ∧ Returned H (h e) es₁ s₁ a es' s' := by
  unfold Returned
  rw [run_tryCatch, ran_bind]
  constructor
  · rintro ⟨r, es₁, s₁, hx, hrest⟩
    cases r with
    | ok a' =>
      obtain ⟨heq, rfl, rfl⟩ := ran_ret.1 hrest
      cases heq
      exact .inl hx
    | error e => exact .inr ⟨e, es₁, s₁, hx, hrest⟩
  · rintro (hx | ⟨e, es₁, s₁, hx, hrest⟩)
    · exact ⟨.ok a, es', s', hx, ran_ret.2 ⟨rfl, rfl, rfl⟩⟩
    · exact ⟨.error e, es₁, s₁, hx, hrest⟩

end
end Interact
