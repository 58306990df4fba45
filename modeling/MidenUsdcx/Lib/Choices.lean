import MidenUsdcx.Lib.Trace
/-!
# Fewer choices

What holds against every environment holds against one that is known to behave: `Within` says that each step of a
handler is one of another's, and `Ensures.within` carries a verified program over. Against the better environment a
program may be known not to fail (`Succeeds`); `Succeeds.of` puts the two together, and `Succeeds.runOn` says what a run
that nothing cuts short then comes to.
-/
namespace Interact

section
variable {S : Sig} {ρ τ α β ε ε' σ : Type} {H : Handler S ε σ} {H' : Handler S ε' σ} {I J : σ → Prop} {s : σ}

/-- Every step of `H'` is one that `H` can take. -/
def Handler.Within (H' : Handler S ε' σ) (H : Handler S ε σ) : Prop := ∀ o e s, ∃ e', H'.step o e s = H.step o e' s

theorem Prog.Keeps.within (hH : H'.Within H) {Q : α → σ → Prop} :
    ∀ {p : Prog S α} {s : σ}, p.Keeps H I Q s → p.Keeps H' I Q s
  | .ret _, _, h => h
  | .call o k, s, h => by
    refine ⟨h.1, fun e => ?_⟩
    obtain ⟨e', he⟩ := hH o e s
    rw [he]
    exact (h.2 e').within hH

theorem Prog.Keeps.both {Q R : α → σ → Prop} :
    ∀ {p : Prog S α} {s : σ}, p.Keeps H I Q s → p.Keeps H J R s →
      p.Keeps H (fun s => I s ∧ J s) (fun a s => Q a s ∧ R a s) s
  | .ret _, _, h, h' => ⟨⟨h.1, h'.1⟩, h.2, h'.2⟩
  | .call _ _, _, h, h' => ⟨⟨h.1, h'.1⟩, fun e => (h.2 e).both (h'.2 e)⟩

theorem Prog.Keeps.runOn {Q : α → σ → Prop} :
    ∀ {p : Prog S α} {s : σ} (env : Nat → ε), p.Keeps H I Q s →
      I (p.runOn H env s).2.2 ∧ Q (p.runOn H env s).1 (p.runOn H env s).2.2
  | .ret _, _, _, h => h
  | .call _ _, _, env, h => (h.2 (env 0)).runOn fun n => env (n + 1)

theorem Ensures.within {t : ExceptT ρ (Prog S) α} {Q : Except ρ α → σ → Prop} (h : Ensures H I t Q s)
    (hH : H'.Within H) : Ensures H' I t Q s := Prog.Keeps.within hH h

/-! ## Programs that do not fail -/

/-- `t` keeps `I`, does not fail, and ends in `Q`. -/
def Succeeds (H : Handler S ε σ) (I : σ → Prop) (t : ExceptT ρ (Prog S) α) (Q : α → σ → Prop) (s : σ) : Prop :=
  Ensures H I t (fun r s' => ∃ a, r = .ok a ∧ Q a s') s

theorem Succeeds.mono {t : ExceptT ρ (Prog S) α} {Q R : α → σ → Prop} (h : Succeeds H I t Q s)
    (hQ : ∀ a s', I s' → Q a s' → R a s') : Succeeds H I t R s := by
  refine Ensures.mono h fun r s' hI hr => ?_
  obtain ⟨a, rfl, ha⟩ := hr
  exact ⟨a, rfl, hQ a s' hI ha⟩

theorem succeeds_pure {a : α} {Q : α → σ → Prop} (hI : I s) (hQ : Q a s) :
    Succeeds H I (pure a : ExceptT ρ (Prog S) α) Q s := ensures_pure hI ⟨a, rfl, hQ⟩

theorem Succeeds.seq {x : ExceptT ρ (Prog S) α} {f : α → ExceptT ρ (Prog S) β} {R : α → σ → Prop} {Q : β → σ → Prop}
    (hx : Succeeds H I x R s) (hf : ∀ a s', I s' → R a s' → Succeeds H I (f a) Q s') : Succeeds H I (x >>= f) Q s := by
  refine Ensures.seq hx (fun a s' hI ha => ?_) fun e s' _ he => ?_
  · obtain ⟨a', heq, ha⟩ := ha
    cases heq
    exact hf a s' hI ha
  · obtain ⟨a, heq, -⟩ := he
    cases heq

theorem succeeds_lift {t : ExceptT ρ (Prog S) α} {Q : Except ρ α → σ → Prop} (h : Ensures H I t Q s) :
    Succeeds H I (ExceptT.lift t.run : ExceptT τ (Prog S) (Except ρ α)) Q s :=
  ensures_lift (h.mono fun r _ _ hr => ⟨r, rfl, hr⟩)

theorem succeeds_call {o : S.Op} {Q : S.Ans o → σ → Prop} (hI : I s)
    (h : ∀ e, I (H.step o e s).2 ∧ Q (H.step o e s).1 (H.step o e s).2) :
    Succeeds H I (ExceptT.lift (Prog.perform o) : ExceptT ρ (Prog S) (S.Ans o)) Q s :=
  ensures_call hI fun e => ⟨(h e).1, _, rfl, (h e).2⟩

/-- What is known of a program against every environment, and that it does not fail against this one. -/
theorem Succeeds.of {t : ExceptT ρ (Prog S) α} {Q : Except ρ α → σ → Prop} {R : α → σ → Prop}
    (h : Ensures H I t Q s) (hH : H'.Within H) (hsucceeds : Succeeds H' J t R s) :
    Succeeds H' (fun s => I s ∧ J s) t (fun a s' => Q (.ok a) s' ∧ R a s') s := by
  refine Prog.Keeps.mono (fun r s' _ hr => ?_) (Prog.Keeps.both (h.within hH) hsucceeds)
  obtain ⟨hQ, a, rfl, ha⟩ := hr
  exact ⟨a, rfl, hQ, ha⟩

theorem Succeeds.runOn {t : ExceptT ρ (Prog S) α} {Q : α → σ → Prop} (h : Succeeds H I t Q s) (env : Nat → ε) :
    I (t.run.runOn H env s).2.2 ∧ ∃ a, (t.run.runOn H env s).1 = .ok a ∧ Q a (t.run.runOn H env s).2.2 :=
  Prog.Keeps.runOn env h

end

end Interact
