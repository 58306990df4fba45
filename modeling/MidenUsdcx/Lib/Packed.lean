/-!
# Packed layouts that can be read back

A field of a packed text is readable when it can be told apart at the head of any text, whatever follows it: two texts
that start with a field are equal only if the fields are and the rests are. Fields of a fixed width are readable, and a
layout is read field by field, so it is readable when its fields are.
-/
namespace Packed
variable {α β γ : Type}

/-- Among the values of `P`, the field is known from any text that starts with it, and so is where it ends. -/
def Readable (P : α → Prop) (f : α → List β) : Prop :=
  ∀ a b s t, P a → P b → f a ++ s = f b ++ t → a = b ∧ s = t

/-- A field of a fixed width. -/
theorem readable_fixed {P : α → Prop} {f : α → List β} (width : Nat) (hwidth : ∀ a, (f a).length = width)
    (hinj : ∀ a b, P a → P b → f a = f b → a = b) : Readable P f := by
  intro a b s t ha hb h
  obtain ⟨hhead, hrest⟩ := List.append_inj h ((hwidth a).trans (hwidth b).symm)
  exact ⟨hinj a b ha hb hhead, hrest⟩

/-- A field that is written through an injection. -/
theorem Readable.comap {P : α → Prop} {f : α → List β} (h : Readable P f) (g : γ → α)
    (hg : ∀ c d, g c = g d → c = d) : Readable (fun c => P (g c)) fun c => f (g c) := by
  intro c d s t hc hd heq
  obtain ⟨hval, hrest⟩ := h (g c) (g d) s t hc hd heq
  exact ⟨hg c d hval, hrest⟩

/-- As many fields as the layout has, one after the other. -/
theorem Readable.flatMap {P : α → Prop} {f : α → List β} (h : Readable P f) {as bs : List α} {s t : List β}
    (hlength : as.length = bs.length) (ha : ∀ a ∈ as, P a) (hb : ∀ b ∈ bs, P b)
    (heq : as.flatMap f ++ s = bs.flatMap f ++ t) : as = bs ∧ s = t := by
  induction as generalizing bs with
  | nil =>
    cases bs with
    | nil => exact ⟨rfl, heq⟩
    | cons b bs => cases hlength
  | cons a as ih =>
    cases bs with
    | nil => cases hlength
    | cons b bs =>
      rw [List.flatMap_cons, List.flatMap_cons, List.append_assoc, List.append_assoc] at heq
      obtain ⟨hfirst, heq⟩ := h a b _ _ (ha a List.mem_cons_self) (hb b List.mem_cons_self) heq
      obtain ⟨hrest, heq⟩ := ih (Nat.succ.inj hlength) (fun x hx => ha x (List.mem_cons_of_mem a hx))
        (fun x hx => hb x (List.mem_cons_of_mem b hx)) heq
      exact ⟨by rw [hfirst, hrest], heq⟩

/-- A tail of any length, after its length: it ends where its length says, whatever it imitates. -/
theorem readable_tail {P : Nat → Prop} {size : Nat → List β} (h : Readable P size) :
    Readable (fun tail : List β => P tail.length) fun tail => size tail.length ++ tail := by
  intro a b s t ha hb heq
  rw [List.append_assoc, List.append_assoc] at heq
  obtain ⟨hlength, heq⟩ := h _ _ _ _ ha hb heq
  exact List.append_inj heq hlength

end Packed
