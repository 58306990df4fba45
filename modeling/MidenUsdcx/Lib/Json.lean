import Mathlib.Data.Finset.Filter
import Mathlib.Data.Finset.Dedup
/-!
# JSON documents whose objects are maps

An object is a finite set of keys with a value for each, so two objects are equal exactly when they have
the same members (`object_ext`), whatever order these were written in, and no key is there twice. All else
is said with `get?` and with `collect`, which builds an object from its members.
-/
namespace JsonMap

inductive Json where
  | null
  | bool (b : Bool)
  | int (n : Int)
  /-- A number with a fraction or an exponent, as it is written. -/
  | float (text : String)
  | str (s : String)
  | array (items : List Json)
  | object (keys : Finset String) (val : {key // key ∈ keys} → Json)

namespace Json
variable {keys : Finset String} {val : {key // key ∈ keys} → Json} {f g : String → Option Json} {j j' : Json}
  {key : String}

/-- The member of an object under a key. -/
def get? : Json → String → Option Json
  | object keys val, key => if h : key ∈ keys then some (val ⟨key, h⟩) else none
  | _, _ => none

def isObject : Json → Bool
  | object _ _ => true
  | _ => false

/-- The object whose members are the values `f` has for these keys. -/
def collect (keys : Finset String) (f : String → Option Json) : Json :=
  object (keys.filter fun key => (f key).isSome) fun key => (f key).get (Finset.mem_filter.mp key.2).2

@[simp] theorem isObject_collect (keys : Finset String) (f : String → Option Json) :
    (collect keys f).isObject = true := rfl

theorem get?_object (h : key ∈ keys) : (object keys val).get? key = some (val ⟨key, h⟩) := dif_pos h

theorem get?_object_none (h : key ∉ keys) : (object keys val).get? key = none := dif_neg h

theorem get?_object_isSome (val : {key // key ∈ keys} → Json) :
    ((object keys val).get? key).isSome = true ↔ key ∈ keys := by
  by_cases h : key ∈ keys
  · simp [get?_object h, h]
  · simp [get?_object_none h, h]

theorem get?_collect (keys : Finset String) (f : String → Option Json) (key : String) :
    (collect keys f).get? key = if key ∈ keys then f key else none := by
  by_cases hin : key ∈ keys ∧ (f key).isSome = true
  · refine (get?_object (Finset.mem_filter.mpr hin)).trans ?_
    rw [if_pos hin.1, Option.some_get]
  · refine (get?_object_none fun h => hin (Finset.mem_filter.mp h)).trans ?_
    by_cases hkey : key ∈ keys
    · rw [if_pos hkey, Option.not_isSome_iff_eq_none.mp fun hsome => hin ⟨hkey, hsome⟩]
    · rw [if_neg hkey]

/-- Objects with the same members are equal. -/
theorem object_ext {keys' : Finset String} {val' : {key // key ∈ keys'} → Json}
    (h : ∀ key, (object keys val).get? key = (object keys' val').get? key) : object keys val = object keys' val' := by
  have hkeys : keys = keys' := by
    ext key
    rw [← get?_object_isSome val, h key, get?_object_isSome val']
  subst hkeys
  have hval : val = val' := by
    funext ⟨key, hkey⟩
    have hget := h key
    rw [get?_object hkey, get?_object hkey] at hget
    exact Option.some.inj hget
  rw [hval]

/-- An object is what its members collect to. -/
theorem collect_get? : collect keys (object keys val).get? = object keys val := by
  apply object_ext
  intro key
  refine (get?_collect keys _ key).trans ?_
  by_cases h : key ∈ keys
  · rw [if_pos h]
  · rw [if_neg h, get?_object_none h]

end Json
end JsonMap
