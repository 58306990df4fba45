import MidenUsdcx.Lib.Prog
/-!
# What a run called

`Handler.traced` answers as the handler it is made from and keeps, newest first, every call with its
answer and the state it was made in (`Event`). `Prog.trace` is what a run leaves in it.

`Guards` is the logic for statements about when a program stops calling: an assertion that holds
whenever a call is made, and one that holds of the result. Unlike `Keeps` it asks nothing of the
state a program ends in, so a run that may not call again is one whose assertion no longer holds.
`Only` is the part of it that is read off the program's text: which calls it can make at all.
-/
namespace Interact

/-- One call of a run. -/
structure Event (S : Sig) (σ : Type) where
  op : S.Op
  answer : S.Ans op
  state : σ

variable {S : Sig} {α β ε σ : Type}

def Handler.traced (H : Handler S ε σ) : Handler S ε (σ × List (Event S σ)) where
  step o e s := ((H.step o e s.1).1, (H.step o e s.1).2, ⟨o, (H.step o e s.1).1, s.1⟩ :: s.2)

namespace Prog

/-- The calls of a run, newest first. -/
def trace (H : Handler S ε σ) (p : Prog S α) (es : List ε) (s : σ) : List (Event S σ) :=
  (p.run H.traced es (s, [])).2.2.2

/-- Keeping the trace changes neither the result nor the states. -/
theorem run_traced (H : Handler S ε σ) :
    ∀ (p : Prog S α) (es : List ε) (s : σ) (T : List (Event S σ)),
      (p.run H.traced es (s, T)).1 = (p.run H es s).1 ∧ (p.run H.traced es (s, T)).2.2.1 = (p.run H es s).2.2
  | .ret _, _, _, _ => ⟨rfl, rfl⟩
  | .call _ _, [], _, _ => ⟨rfl, rfl⟩
  | .call _ k, _ :: es, _, _ => run_traced H (k _) es _ _

/-! ## How the calls of a trace follow each other -/

/-- Each call, newest first, leads from the state it was made in to the state of the next, the last one to `s`. -/
def Linked (H : Handler S ε σ) : List (Event S σ) → σ → Prop
  | [], _ => True
  | x :: earlier, s => (∃ e, H.step x.op e x.state = (x.answer, s)) ∧ Linked H earlier x.state

theorem linked_run (H : Handler S ε σ) :
    ∀ (p : Prog S α) (es : List ε) (s : σ) (T : List (Event S σ)), Linked H T s →
      Linked H (p.run H.traced es (s, T)).2.2.2 (p.run H.traced es (s, T)).2.2.1
  | .ret _, _, _, _, h => h
  | .call _ _, [], _, _, h => h
  | .call o k, e :: es, s, _, h => linked_run H (k (H.step o e s).1) es (H.step o e s).2 _ ⟨⟨e, rfl⟩, h⟩

/-- What the calls since `x` keep of a state holds after them if it held when `x` was made. -/
theorem Linked.carries {H : Handler S ε σ} {P : σ → Prop} {later earlier : List (Event S σ)} {x : Event S σ} {s : σ}
    (h : Linked H (later ++ x :: earlier) s) (hx : ∀ e s', P s' → P (H.step x.op e s').2)
    (hlater : ∀ y ∈ later, ∀ e s', P s' → P (H.step y.op e s').2) (hP : P x.state) : P s := by
  induction later generalizing s with
  | nil =>
    obtain ⟨⟨e, hstep⟩, -⟩ := h
    have hafter := hx e x.state hP
    rwa [hstep] at hafter
  | cons y later ih =>
    obtain ⟨⟨e, hstep⟩, hrest⟩ := h
    have hbefore : P y.state := ih hrest fun z hz => hlater z (List.mem_cons_of_mem y hz)
    have hafter := hlater y List.mem_cons_self e y.state hbefore
    rwa [hstep] at hafter

/-! ## Runs that are not cut short -/

/-- Runs a program to its end over an endless sequence of choices; what is left of the choices is returned too. -/
def runOn (H : Handler S ε σ) : Prog S α → (Nat → ε) → σ → α × (Nat → ε) × σ
  | .ret a, env, s => (a, env, s)
  | .call o k, env, s => (k (H.step o (env 0) s).1).runOn H (fun n => env (n + 1)) (H.step o (env 0) s).2

theorem runOn_bind (H : Handler S ε σ) (p : Prog S α) (f : α → Prog S β) (env : Nat → ε) (s : σ) :
    (p >>= f).runOn H env s = (f (p.runOn H env s).1).runOn H (p.runOn H env s).2.1 (p.runOn H env s).2.2 := by
  induction p generalizing env s with
  | ret a => rfl
  | call o k ih => exact ih _ _ _

/-! ## Assertions at the calls -/

/-- `I` holds at every call `p` makes from `s`, and `Q` of its result. -/
def Guards (H : Handler S ε σ) (I : σ → Prop) : Prog S α → (α → σ → Prop) → σ → Prop
  | .ret a, Q, s => Q a s
  | .call o k, Q, s => I s ∧ ∀ e, (k (H.step o e s).1).Guards H I Q (H.step o e s).2

variable {H : Handler S ε σ} {I : σ → Prop}

theorem Guards.mono {Q R : α → σ → Prop} (hQ : ∀ a s, Q a s → R a s) :
    ∀ {p : Prog S α} {s : σ}, p.Guards H I Q s → p.Guards H I R s
  | .ret a, s, h => hQ a s h
  | .call _ _, _, h => ⟨h.1, fun e => (h.2 e).mono hQ⟩

theorem Guards.weaken {J : σ → Prop} {Q : α → σ → Prop} (hI : ∀ s, I s → J s) :
    ∀ {p : Prog S α} {s : σ}, p.Guards H I Q s → p.Guards H J Q s
  | .ret _, _, h => h
  | .call _ _, s, h => ⟨hI s h.1, fun e => (h.2 e).weaken hI⟩

theorem guards_bind (p : Prog S α) (f : α → Prog S β) (Q : β → σ → Prop) (s : σ) :
    (p >>= f).Guards H I Q s ↔ p.Guards H I (fun a s' => (f a).Guards H I Q s') s := by
  induction p generalizing s with
  | ret a => exact Iff.rfl
  | call o k ih => exact and_congr_right fun _ => forall_congr' fun e => ih _ _

/-- A run that was cut short stopped at a call, where `I` holds; one that ended has `Q`. -/
theorem Guards.run {Q : α → σ → Prop} :
    ∀ {p : Prog S α} {s : σ} (es : List ε), p.Guards H I Q s →
      ((p.run H es s).1 = none → I (p.run H es s).2.2) ∧
        ∀ a, (p.run H es s).1 = some a → Q a (p.run H es s).2.2
  | .ret b, s, es, h => ⟨fun hn => (by cases hn), fun a ha => by cases ha; exact h⟩
  | .call o k, s, [], h => ⟨fun _ => h.1, fun a ha => by cases ha⟩
  | .call o k, s, e :: es, h => (h.2 e).run es

/-- What holds at every call and of every outcome holds wherever a run stops. -/
theorem Guards.always {P : σ → Prop} {Q : α → σ → Prop} {p : Prog S α} {s : σ} (h : p.Guards H I Q s)
    (hI : ∀ s, I s → P s) (hQ : ∀ a s, Q a s → P s) (es : List ε) : P (p.run H es s).2.2 := by
  obtain ⟨hcut, hended⟩ := h.run es
  cases hrun : (p.run H es s).1 with
  | none => exact hI _ (hcut hrun)
  | some a => exact hQ a _ (hended a hrun)

theorem Guards.runOn {Q : α → σ → Prop} :
    ∀ {p : Prog S α} {s : σ} (env : Nat → ε), p.Guards H I Q s → Q (p.runOn H env s).1 (p.runOn H env s).2.2
  | .ret _, _, _, h => h
  | .call _ _, _, env, h => (h.2 (env 0)).runOn fun n => env (n + 1)

/-! ## The calls a program can make -/

/-- Every call `p` can make is one of `ok`. -/
def Only (ok : S.Op → Prop) : Prog S α → Prop
  | .ret _ => True
  | .call o k => ok o ∧ ∀ x, (k x).Only ok

variable {ok : S.Op → Prop}

theorem Only.bind {f : α → Prog S β} : ∀ {p : Prog S α}, p.Only ok → (∀ a, (f a).Only ok) → (p >>= f).Only ok
  | .ret a, _, hf => hf a
  | .call _ _, h, hf => ⟨h.1, fun x => (h.2 x).bind hf⟩

theorem Only.mono {ok' : S.Op → Prop} (hok : ∀ o, ok o → ok' o) : ∀ {p : Prog S α}, p.Only ok → p.Only ok'
  | .ret _, _ => trivial
  | .call o _, h => ⟨hok o h.1, fun x => (h.2 x).mono hok⟩

theorem only_true : ∀ p : Prog S α, p.Only fun _ => True
  | .ret _ => trivial
  | .call _ k => ⟨trivial, fun x => only_true (k x)⟩

/-- An assertion that every such call keeps holds throughout. -/
theorem Only.guards (hI : ∀ o e s, ok o → I s → I (H.step o e s).2) :
    ∀ {p : Prog S α} {s : σ}, p.Only ok → I s → p.Guards H I (fun _ => I) s
  | .ret _, _, _, hs => hs
  | .call o _, s, h, hs => ⟨hs, fun e => (h.2 _).guards hI (hI o e s h.1 hs)⟩

/-! ## The values a program can end with -/

/-- Every value `p` can end with is one of `Q`, whatever it is answered. -/
def Leaves (Q : α → Prop) : Prog S α → Prop
  | .ret a => Q a
  | .call _ k => ∀ x, (k x).Leaves Q

theorem Leaves.bind {P : α → Prop} {Q : β → Prop} {f : α → Prog S β} :
    ∀ {p : Prog S α}, p.Leaves P → (∀ a, P a → (f a).Leaves Q) → (p >>= f).Leaves Q
  | .ret a, h, hf => hf a h
  | .call _ _, h, hf => fun x => (h x).bind hf

theorem Guards.leaves {Q : α → σ → Prop} {P : α → Prop} :
    ∀ {p : Prog S α} {s : σ}, p.Guards H I Q s → p.Leaves P → p.Guards H I (fun a s' => Q a s' ∧ P a) s
  | .ret _, _, h, hp => ⟨h, hp⟩
  | .call _ _, _, h, hp => ⟨h.1, fun e => (h.2 e).leaves (hp _)⟩

end Prog

/-! ## The same for programs that can fail -/

section
variable {ρ τ : Type} {H : Handler S ε σ} {I : σ → Prop} {ok : S.Op → Prop} {s : σ}

/-- What follows a step: the rest of the sequence, or nothing if the step failed. -/
def andThen (f : α → ExceptT ρ (Prog S) β) : Except ρ α → Prog S (Except ρ β)
  | .ok a => (f a).run
  | .error e => .ret (.error e)

theorem run_bindE (x : ExceptT ρ (Prog S) α) (f : α → ExceptT ρ (Prog S) β) :
    (x >>= f).run = x.run >>= andThen f := by
  show x.run >>= _ = _
  congr 1
  funext r
  cases r <;> rfl

theorem run_lift_bind (p : Prog S α) (f : α → ExceptT ρ (Prog S) β) :
    ((ExceptT.lift p : ExceptT ρ (Prog S) α) >>= f).run = p >>= fun a => (f a).run := by
  rw [run_bindE]
  show (p >>= fun a => .ret (.ok a)) >>= andThen f = _
  induction p with
  | ret a => rfl
  | call o k ih => exact congrArg (Prog.call o) (funext ih)

/-- What follows a step whose failure is caught. -/
def orElse (h : ρ → ExceptT ρ (Prog S) α) : Except ρ α → Prog S (Except ρ α)
  | .ok a => .ret (.ok a)
  | .error e => (h e).run

theorem run_tryCatch (x : ExceptT ρ (Prog S) α) (h : ρ → ExceptT ρ (Prog S) α) :
    (tryCatch x h).run = x.run >>= orElse h := by
  show x.run >>= _ = _
  congr 1
  funext r
  cases r <;> rfl

def Meets (H : Handler S ε σ) (I : σ → Prop) (t : ExceptT ρ (Prog S) α) (Q : Except ρ α → σ → Prop) (s : σ) : Prop :=
  Prog.Guards H I t.run Q s

theorem meets_pure {a : α} {Q : Except ρ α → σ → Prop} (hQ : Q (.ok a) s) :
    Meets H I (pure a : ExceptT ρ (Prog S) α) Q s := hQ

theorem meets_throw {e : ρ} {Q : Except ρ α → σ → Prop} (hQ : Q (.error e) s) :
    Meets H I (throw e : ExceptT ρ (Prog S) α) Q s := hQ

theorem Meets.mono {t : ExceptT ρ (Prog S) α} {Q R : Except ρ α → σ → Prop} (h : Meets H I t Q s)
    (hQ : ∀ r s', Q r s' → R r s') : Meets H I t R s := Prog.Guards.mono hQ h

theorem Meets.weaken {t : ExceptT ρ (Prog S) α} {J : σ → Prop} {Q : Except ρ α → σ → Prop} (h : Meets H I t Q s)
    (hI : ∀ s, I s → J s) : Meets H J t Q s := Prog.Guards.weaken hI h

theorem Meets.seq {x : ExceptT ρ (Prog S) α} {f : α → ExceptT ρ (Prog S) β} {R : Except ρ α → σ → Prop}
    {Q : Except ρ β → σ → Prop} (hx : Meets H I x R s) (hok : ∀ a s', R (.ok a) s' → Meets H I (f a) Q s')
    (herr : ∀ e s', R (.error e) s' → Q (.error e) s') : Meets H I (x >>= f) Q s := by
  unfold Meets
  rw [run_bindE, Prog.guards_bind]
  refine hx.mono fun r s' hr => ?_
  cases r with
  | ok a => exact hok a s' hr
  | error e => exact herr e s' hr

theorem meets_adapt {f : ρ → τ} {t : ExceptT ρ (Prog S) α} {Q : Except τ α → σ → Prop}
    (h : Meets H I t (fun r s' => Q (r.mapError f) s') s) : Meets H I (t.adapt f) Q s :=
  (Prog.guards_bind _ _ _ _).2 h

theorem meets_lift {t : ExceptT ρ (Prog S) α} {Q : Except τ (Except ρ α) → σ → Prop}
    (h : Meets H I t (fun r s' => Q (.ok r) s') s) :
    Meets H I (ExceptT.lift t.run : ExceptT τ (Prog S) (Except ρ α)) Q s :=
  (Prog.guards_bind _ _ _ _).2 h

theorem meets_call {o : S.Op} {Q : Except ρ (S.Ans o) → σ → Prop} (hI : I s)
    (h : ∀ e, Q (.ok (H.step o e s).1) (H.step o e s).2) :
    Meets H I (ExceptT.lift (Prog.perform o) : ExceptT ρ (Prog S) (S.Ans o)) Q s := ⟨hI, h⟩

/-- The rule for a call that is followed by more of the program. -/
theorem meets_call_bind {o : S.Op} {f : S.Ans o → ExceptT ρ (Prog S) β} {Q : Except ρ β → σ → Prop} (hI : I s)
    (h : ∀ e, Meets H I (f (H.step o e s).1) Q (H.step o e s).2) :
    Meets H I ((ExceptT.lift (Prog.perform o) : ExceptT ρ (Prog S) (S.Ans o)) >>= f) Q s := by
  unfold Meets
  rw [run_lift_bind]
  exact ⟨hI, h⟩

theorem meets_tryCatch {x : ExceptT ρ (Prog S) α} {h : ρ → ExceptT ρ (Prog S) α} {R Q : Except ρ α → σ → Prop}
    (hx : Meets H I x R s) (hok : ∀ a s', R (.ok a) s' → Q (.ok a) s')
    (herr : ∀ e s', R (.error e) s' → Meets H I (h e) Q s') : Meets H I (tryCatch x h) Q s := by
  unfold Meets
  rw [run_tryCatch, Prog.guards_bind]
  refine hx.mono fun r s' hr => ?_
  cases r with
  | ok a => exact hok a s' hr
  | error e => exact herr e s' hr

/-- Every failure of `t` is one of `E`. -/
def Raises (E : ρ → Prop) (t : ExceptT ρ (Prog S) α) : Prop := Prog.Leaves (fun r => ∀ e, r = .error e → E e) t.run

theorem raises_pure {E : ρ → Prop} {a : α} : Raises E (pure a : ExceptT ρ (Prog S) α) := fun _ h => by cases h

theorem raises_throw {E : ρ → Prop} {e : ρ} (h : E e) : Raises E (throw e : ExceptT ρ (Prog S) α) :=
  fun _ h' => by cases h'; exact h

theorem raises_bind {E : ρ → Prop} {x : ExceptT ρ (Prog S) α} {f : α → ExceptT ρ (Prog S) β} (hx : Raises E x)
    (hf : ∀ a, Raises E (f a)) : Raises E (x >>= f) := by
  unfold Raises
  rw [run_bindE]
  refine Prog.Leaves.bind hx fun r hr => ?_
  cases r with
  | ok a => exact hf a
  | error e => exact fun _ h => by cases h; exact hr e rfl

theorem raises_call {E : ρ → Prop} {o : S.Op} :
    Raises E (ExceptT.lift (Prog.perform o) : ExceptT ρ (Prog S) (S.Ans o)) := fun _ _ h => by cases h

theorem Meets.raises {E : ρ → Prop} {t : ExceptT ρ (Prog S) α} {Q : Except ρ α → σ → Prop} (h : Meets H I t Q s)
    (ht : Raises E t) : Meets H I t (fun r s' => Q r s' ∧ ∀ e, r = .error e → E e) s := Prog.Guards.leaves h ht

/-- Every call `t` can make is one of `ok`. -/
def Calls (ok : S.Op → Prop) (t : ExceptT ρ (Prog S) α) : Prop := Prog.Only ok t.run

theorem calls_pure {a : α} : Calls ok (pure a : ExceptT ρ (Prog S) α) := trivial

theorem calls_throw {e : ρ} : Calls ok (throw e : ExceptT ρ (Prog S) α) := trivial

theorem calls_bind {x : ExceptT ρ (Prog S) α} {f : α → ExceptT ρ (Prog S) β} (hx : Calls ok x)
    (hf : ∀ a, Calls ok (f a)) : Calls ok (x >>= f) := by
  unfold Calls
  rw [run_bindE]
  refine Prog.Only.bind hx fun r => ?_
  cases r with
  | ok a => exact hf a
  | error e => trivial

theorem calls_adapt {f : ρ → τ} {t : ExceptT ρ (Prog S) α} (h : Calls ok t) : Calls ok (t.adapt f) :=
  Prog.Only.bind h fun _ => trivial

theorem calls_lift {t : ExceptT ρ (Prog S) α} (h : Calls ok t) :
    Calls ok (ExceptT.lift t.run : ExceptT τ (Prog S) (Except ρ α)) := Prog.Only.bind h fun _ => trivial

theorem calls_call {o : S.Op} (h : ok o) : Calls ok (ExceptT.lift (Prog.perform o) : ExceptT ρ (Prog S) (S.Ans o)) :=
  ⟨h, fun _ => trivial⟩

theorem calls_tryCatch {x : ExceptT ρ (Prog S) α} {h : ρ → ExceptT ρ (Prog S) α} (hx : Calls ok x)
    (hh : ∀ e, Calls ok (h e)) : Calls ok (tryCatch x h) := by
  refine Prog.Only.bind hx fun r => ?_
  cases r with
  | ok a => trivial
  | error e => exact hh e

theorem calls_forM {xs : List β} {f : β → ExceptT ρ (Prog S) Unit} (h : ∀ x ∈ xs, Calls ok (f x)) :
    Calls ok (xs.forM f) := by
  induction xs with
  | nil => exact calls_pure
  | cons x xs ih => exact calls_bind (h x List.mem_cons_self) fun _ => ih fun y hy => h y (List.mem_cons_of_mem _ hy)

theorem Calls.mono {t : ExceptT ρ (Prog S) α} {ok' : S.Op → Prop} (h : Calls ok t) (hok : ∀ o, ok o → ok' o) :
    Calls ok' t := Prog.Only.mono hok h

/-- Where nothing is asserted at the calls, a step whose own outcome does not matter can be passed over. -/
theorem meets_after {x : ExceptT ρ (Prog S) α} {f : α → ExceptT ρ (Prog S) β} {Q : Except ρ β → σ → Prop}
    (hok : ∀ a s', Meets H (fun _ => True) (f a) Q s') (herr : ∀ e s', Q (.error e) s') :
    Meets H (fun _ => True) (x >>= f) Q s :=
  Meets.seq (Prog.Only.guards (fun _ _ _ _ h => h) (Prog.only_true x.run) trivial) (fun a s' _ => hok a s')
    (fun e s' _ => herr e s')

theorem Calls.meets {t : ExceptT ρ (Prog S) α} (h : Calls ok t) (hI : ∀ o e s, ok o → I s → I (H.step o e s).2)
    (hs : I s) : Meets H I t (fun _ => I) s := Prog.Only.guards hI h hs

end

end Interact
