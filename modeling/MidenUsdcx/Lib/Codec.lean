import MidenUsdcx.Lib.Json
import Mathlib.Data.Finset.Insert
/-!
# Codecs between values and JSON documents, and the schemas they meet

A `Codec` writes values of a type as documents and reads them back. It is put together the way a derive
macro does it: scalars, lists, words for the members of an enumeration, and records by `Fields`. A reader of
records made so takes the object with a member for each field, and also the array of the fields' values in
order; a reader of words takes the string, and also the object `{word: null}`.

A `Schema` is what documentation says of a document: which ones are accepted, what is left of one when its
undocumented members are dropped (`trim`), and which one is meant when records and words are written the
other way (`named`). `Meets` connects the two, and each way to build a codec has a rule for it; `exact_iff`
then says on which documents reading and writing are exactly what the schema says.
-/
namespace JsonMap

/-- What a document should be. -/
structure Schema where
  Accepts : Json → Prop
  /-- The document without the members it may have and nobody documents. -/
  trim : Json → Json
  /-- The document with each record that is an array, and each word that is an object, spelled out. -/
  named : Json → Json
  plain : ∀ j, Accepts j → named j = j

/-- A member of an object. -/
structure Member where
  key : String
  required : Bool
  schema : Schema

/-- How the values of a type are written and read. -/
structure Codec (α : Type) where
  encode : α → Json
  decode : Json → Option α

variable {α β γ : Type}

/-- The codec reads what the schema accepts, under either spelling, and writes it back trimmed. -/
structure Codec.Meets (c : Codec α) (s : Schema) : Prop where
  round : ∀ a, c.decode (c.encode a) = some a
  sound : ∀ j a, c.decode j = some a → s.Accepts (s.named j) ∧ c.encode a = s.trim (s.named j)
  complete : ∀ j, s.Accepts (s.named j) → (c.decode j).isSome = true

/-- On this document, reading and writing are what the schema says. -/
def Codec.Exact (c : Codec α) (s : Schema) (j : Json) : Prop :=
  (∀ a, c.decode j = some a → c.encode a = s.trim j) ∧ ((c.decode j).isSome = true ↔ s.Accepts j)

/-- A codec that meets its schema departs from it on the documents it reads for their other spelling alone. -/
theorem Codec.Meets.exact_iff {c : Codec α} {s : Schema} (h : c.Meets s) (j : Json) :
    c.Exact s j ↔ s.named j = j ∨ ¬ s.Accepts (s.named j) := by
  constructor
  · rintro ⟨-, hreads⟩
    by_cases haccepts : s.Accepts (s.named j)
    · exact .inl (s.plain j (hreads.mp (h.complete j haccepts)))
    · exact .inr haccepts
  · rintro (hplain | hrefused)
    · refine ⟨fun a ha => ?_, fun hsome => ?_, fun haccepts => h.complete j (hplain.symm ▸ haccepts)⟩
      · have hwritten := (h.sound j a ha).2
        rwa [hplain] at hwritten
      · obtain ⟨a, ha⟩ := Option.isSome_iff_exists.mp hsome
        have haccepts := (h.sound j a ha).1
        rwa [hplain] at haccepts
    · refine ⟨fun a ha => absurd (h.sound j a ha).1 hrefused, fun hsome => ?_, fun haccepts => ?_⟩
      · obtain ⟨a, ha⟩ := Option.isSome_iff_exists.mp hsome
        exact absurd (h.sound j a ha).1 hrefused
      · rw [s.plain j haccepts] at hrefused
        exact absurd haccepts hrefused

/-! ## Scalars -/

namespace Schema

def text (p : String → Prop) : Schema where
  Accepts j := ∃ s, j = .str s ∧ p s
  trim j := j
  named j := j
  plain _ _ := rfl

def uint32 : Schema where
  Accepts j := ∃ n : Int, j = .int n ∧ 0 ≤ n ∧ n < 4294967296
  trim j := j
  named j := j
  plain _ _ := rfl

def boolean : Schema where
  Accepts j := ∃ b, j = .bool b
  trim j := j
  named j := j
  plain _ _ := rfl

end Schema

namespace Codec

def string : Codec String where
  encode s := .str s
  decode
    | .str s => some s
    | _ => none

def uint32 : Codec UInt32 where
  encode n := .int n.toNat
  decode
    | .int n => if 0 ≤ n ∧ n < 4294967296 then some (.ofNat n.toNat) else none
    | _ => none

def boolean : Codec Bool where
  encode b := .bool b
  decode
    | .bool b => some b
    | _ => none

theorem string_meets : string.Meets (.text fun _ => True) where
  round _ := rfl
  sound j s h := by
    cases j <;> cases h
    exact ⟨⟨s, rfl, trivial⟩, rfl⟩
  complete j h := by
    obtain ⟨s, rfl, -⟩ : ∃ s, j = .str s ∧ True := h
    rfl

theorem uint32_meets : uint32.Meets .uint32 where
  round n := by
    have hlt : n.toNat < 4294967296 := n.toNat_lt
    have hrange : (0 : Int) ≤ n.toNat ∧ (n.toNat : Int) < 4294967296 := by omega
    simp only [uint32, if_pos hrange, Int.toNat_natCast, UInt32.ofNat_toNat]
  sound j n h := by
    cases j with
    | int i =>
      simp only [uint32] at h
      by_cases hrange : 0 ≤ i ∧ i < 4294967296
      · rw [if_pos hrange] at h
        cases h
        refine ⟨⟨i, rfl, hrange⟩, ?_⟩
        have hlt : i.toNat < 4294967296 := by omega
        simp only [uint32, Schema.uint32, UInt32.toNat_ofNat_of_lt' hlt, Int.toNat_of_nonneg hrange.1]
      · rw [if_neg hrange] at h
        cases h
    | _ => cases h
  complete j h := by
    obtain ⟨i, rfl, hrange⟩ : ∃ n : Int, j = .int n ∧ 0 ≤ n ∧ n < 4294967296 := h
    simp only [uint32, if_pos hrange, Option.isSome_some]

theorem boolean_meets : boolean.Meets .boolean where
  round _ := rfl
  sound j b h := by
    cases j <;> cases h
    exact ⟨⟨b, rfl⟩, rfl⟩
  complete j h := by
    obtain ⟨b, rfl⟩ : ∃ b, j = .bool b := h
    rfl

end Codec

/-! ## Types made from others -/

/-- What the schema accepts and `rule` holds of. -/
def Schema.where (s : Schema) (rule : Json → Prop) : Schema where
  Accepts j := s.Accepts j ∧ rule j
  trim := s.trim
  named := s.named
  plain j h := s.plain j h.1

namespace Codec

/-- A type whose values are made from another's by `make`, which may refuse, and written as that one's. -/
def refine (c : Codec α) (parts : β → α) (make : α → Option β) : Codec β where
  encode b := c.encode (parts b)
  decode j := (c.decode j).bind make

/-- `make` refuses exactly what the rule does, and nothing it makes is written otherwise. -/
theorem refine_meets {c : Codec α} {s : Schema} {parts : β → α} {make : α → Option β} {rule : Json → Prop}
    (h : c.Meets s) (hmake : ∀ b, make (parts b) = some b) (hparts : ∀ a b, make a = some b → parts b = a)
    (hrule : ∀ j a, c.decode j = some a → ((make a).isSome = true ↔ rule (s.named j))) :
    (c.refine parts make).Meets (s.where rule) where
  round b := by
    show (c.decode (c.encode (parts b))).bind make = some b
    rw [h.round, Option.bind_some, hmake]
  sound j b hb := by
    obtain ⟨a, ha, hab⟩ := Option.bind_eq_some_iff.mp hb
    obtain ⟨haccepts, hwritten⟩ := h.sound j a ha
    refine ⟨⟨haccepts, (hrule j a ha).mp (by rw [hab]; rfl)⟩, ?_⟩
    show c.encode (parts b) = s.trim (s.named j)
    rw [hparts a b hab, hwritten]
  complete j haccepts := by
    obtain ⟨a, ha⟩ := Option.isSome_iff_exists.mp (h.complete j haccepts.1)
    show ((c.decode j).bind make).isSome = true
    rw [ha, Option.bind_some]
    exact (hrule j a ha).mpr haccepts.2

/-- A type whose values are texts that pass a check. -/
theorem text_meets {parts : β → String} {make : String → Option β} {p : String → Prop}
    (hmake : ∀ b, make (parts b) = some b) (hparts : ∀ s b, make s = some b → parts b = s)
    (hp : ∀ s, (make s).isSome = true ↔ p s) : (string.refine parts make).Meets (.text p) where
  round b := hmake b
  sound j b h := by
    obtain ⟨s, hs, hb⟩ := Option.bind_eq_some_iff.mp h
    obtain ⟨⟨_, rfl, -⟩, hwritten⟩ := string_meets.sound j s hs
    cases hwritten
    exact ⟨⟨s, rfl, (hp s).mp (by rw [hb]; rfl)⟩, congrArg Json.str (hparts s b hb)⟩
  complete j h := by
    obtain ⟨s, rfl, hs⟩ : ∃ s, j = .str s ∧ p s := h
    exact (hp s).mpr hs

/-- The same values under another type. -/
def iso (c : Codec α) (parts : β → α) (make : α → β) : Codec β where
  encode b := c.encode (parts b)
  decode j := (c.decode j).map make

theorem iso_meets {c : Codec α} {s : Schema} {parts : β → α} {make : α → β} (h : c.Meets s)
    (hmake : ∀ b, make (parts b) = b) (hparts : ∀ a, parts (make a) = a) : (c.iso parts make).Meets s where
  round b := by
    show (c.decode (c.encode (parts b))).map make = some b
    rw [h.round, Option.map_some, hmake]
  sound j b hb := by
    obtain ⟨a, ha, rfl⟩ := Option.map_eq_some_iff.mp hb
    obtain ⟨haccepts, hwritten⟩ := h.sound j a ha
    refine ⟨haccepts, ?_⟩
    show c.encode (parts (make a)) = s.trim (s.named j)
    rw [hparts, hwritten]
  complete j haccepts := by
    show ((c.decode j).map make).isSome = true
    rw [Option.isSome_map]
    exact h.complete j haccepts

end Codec

/-! ## Words -/

def Json.isNull : Json → Bool
  | .null => true
  | _ => false

/-- The object `{word: null}`. -/
def Json.spells (j : Json) (word : String) : Bool :=
  match j with
  | .object keys val => decide (keys = {word}) && ((Json.object keys val).get? word).any Json.isNull
  | _ => false

def Schema.word (words : List String) : Schema where
  Accepts j := ∃ word ∈ words, j = .str word
  trim j := j
  named j := match words.find? j.spells with
    | some word => .str word
    | none => j
  plain j h := by
    obtain ⟨word, -, rfl⟩ := h
    have hnone : words.find? (Json.str word).spells = none := List.find?_eq_none.mpr fun _ _ h => by cases h
    rw [hnone]

/-- The members of an enumeration, by their names. -/
def Codec.word (name : α → String) (all : List α) : Codec α where
  encode a := .str (name a)
  decode j := match j with
    | .str s => all.find? fun a => name a == s
    | j => all.find? fun a => j.spells (name a)

theorem Codec.word_meets {name : α → String} {all : List α} (hall : ∀ a, a ∈ all)
    (hname : ∀ a b, name a = name b → a = b) : (Codec.word name all).Meets (.word (all.map name)) where
  round a := by
    show (all.find? fun b => name b == name a) = some a
    have hsome : (all.find? fun b => name b == name a).isSome = true :=
      List.find?_isSome.mpr ⟨a, hall a, beq_self_eq_true (name a)⟩
    obtain ⟨b, hb⟩ := Option.isSome_iff_exists.mp hsome
    have hsame : (name b == name a) = true := List.find?_some (p := fun b => name b == name a) hb
    rw [hb, hname b a (eq_of_beq hsame)]
  sound j a h := by
    cases j with
    | str s =>
      have hs : (name a == s) = true := List.find?_some (p := fun a => name a == s) h
      obtain rfl := eq_of_beq hs
      have haccepts : (Schema.word (all.map name)).Accepts (.str (name a)) :=
        ⟨name a, List.mem_map_of_mem (hall a), rfl⟩
      rw [(Schema.word (all.map name)).plain _ haccepts]
      exact ⟨haccepts, rfl⟩
    | object keys val =>
      have hnamed : (Schema.word (all.map name)).named (.object keys val) = .str (name a) := by
        have hfind : (all.map name).find? (Json.object keys val).spells = some (name a) := by
          rw [List.find?_map]
          exact congrArg (Option.map name) h
        show (match (all.map name).find? (Json.object keys val).spells with
          | some word => Json.str word
          | none => Json.object keys val) = _
        rw [hfind]
      rw [hnamed]
      exact ⟨⟨name a, List.mem_map_of_mem (hall a), rfl⟩, rfl⟩
    | _ => exact absurd (List.find?_some (p := fun _ => false) h) Bool.false_ne_true
  complete j h := by
    obtain ⟨word, hword, hj⟩ := h
    obtain ⟨a, -, rfl⟩ := List.mem_map.mp hword
    cases hfind : (all.map name).find? j.spells with
    | none =>
      have hplain : (Schema.word (all.map name)).named j = j := by
        show (match (all.map name).find? j.spells with
          | some word => Json.str word
          | none => j) = _
        rw [hfind]
      rw [hplain] at hj
      subst hj
      exact List.find?_isSome.mpr ⟨a, hall a, beq_self_eq_true (name a)⟩
    | some word =>
      rw [List.find?_map] at hfind
      obtain ⟨b, hb, -⟩ := Option.map_eq_some_iff.mp hfind
      have hspells : j.spells (name b) = true := List.find?_some (p := j.spells ∘ name) hb
      cases j with
      | object keys val => exact List.find?_isSome.mpr ⟨b, hall b, hspells⟩
      | _ => cases hspells

/-! ## Lists -/

def Schema.array (items : Schema) : Schema where
  Accepts j := ∃ xs, j = .array xs ∧ ∀ x ∈ xs, items.Accepts x
  trim j := match j with
    | .array xs => .array (xs.map items.trim)
    | j => j
  named j := match j with
    | .array xs => .array (xs.map items.named)
    | j => j
  plain j h := by
    obtain ⟨xs, rfl, hxs⟩ := h
    have hsame : xs.map items.named = xs.map id := List.map_congr_left fun x hx => items.plain x (hxs x hx)
    exact congrArg Json.array (hsame.trans (List.map_id xs))

def Codec.decodeAll (c : Codec α) : List Json → Option (List α)
  | [] => some []
  | j :: js => do
    let a ← c.decode j
    let as ← c.decodeAll js
    pure (a :: as)

def Codec.list (c : Codec α) : Codec (List α) where
  encode as := .array (as.map c.encode)
  decode
    | .array js => c.decodeAll js
    | _ => none

theorem Codec.decodeAll_encode {c : Codec α} {s : Schema} (h : c.Meets s) (as : List α) :
    c.decodeAll (as.map c.encode) = some as := by
  induction as with
  | nil => rfl
  | cons a as ih =>
    show (do let b ← c.decode (c.encode a); let bs ← c.decodeAll (as.map c.encode); pure (b :: bs)) = some (a :: as)
    rw [h.round, ih]
    rfl

theorem Codec.decodeAll_sound {c : Codec α} {s : Schema} (h : c.Meets s) {js : List Json} {as : List α}
    (has : c.decodeAll js = some as) :
    (∀ j ∈ js.map s.named, s.Accepts j) ∧ as.map c.encode = (js.map s.named).map s.trim := by
  induction js generalizing as with
  | nil =>
    cases has
    exact ⟨fun j hj => (List.not_mem_nil hj).elim, rfl⟩
  | cons j js ih =>
    obtain ⟨a, ha, hrest⟩ := Option.bind_eq_some_iff.mp has
    obtain ⟨as', has', hcons⟩ := Option.bind_eq_some_iff.mp hrest
    cases hcons
    obtain ⟨haccepts, hwritten⟩ := h.sound j a ha
    obtain ⟨hall, hmap⟩ := ih has'
    refine ⟨fun x hx => ?_, ?_⟩
    · rcases List.mem_cons.mp hx with rfl | hx
      · exact haccepts
      · exact hall x hx
    · rw [List.map_cons, List.map_cons, List.map_cons, hwritten, hmap]

theorem Codec.decodeAll_complete {c : Codec α} {s : Schema} (h : c.Meets s) {js : List Json}
    (hjs : ∀ j ∈ js.map s.named, s.Accepts j) : (c.decodeAll js).isSome = true := by
  induction js with
  | nil => rfl
  | cons j js ih =>
    obtain ⟨a, ha⟩ := Option.isSome_iff_exists.mp (h.complete j (hjs _ List.mem_cons_self))
    obtain ⟨as, has⟩ := Option.isSome_iff_exists.mp (ih fun x hx => hjs x (List.mem_cons_of_mem _ hx))
    show (do let b ← c.decode j; let bs ← c.decodeAll js; pure (b :: bs)).isSome = true
    rw [ha, has]
    rfl

theorem Codec.list_meets {c : Codec α} {s : Schema} (h : c.Meets s) : c.list.Meets (.array s) where
  round := decodeAll_encode h
  sound j as has := by
    cases j with
    | array js =>
      obtain ⟨hall, hmap⟩ := decodeAll_sound h has
      exact ⟨⟨js.map s.named, rfl, hall⟩, congrArg Json.array hmap⟩
    | _ => cases has
  complete j haccepts := by
    obtain ⟨xs, hxs, hall⟩ := haccepts
    cases j with
    | array js =>
      cases hxs
      exact decodeAll_complete h hall
    | _ => cases hxs

/-- How many items the member under a key has, if it is an array. -/
def Json.items? (j : Json) (key : String) : Option Nat :=
  match j.get? key with
  | some (.array xs) => some xs.length
  | _ => none

/-- Trimming the items does not change how many there are. -/
theorem Json.items?_of_trim {j : Json} {key : String} {s : Schema} {ys : List Json}
    (h : some (Json.array ys) = (j.get? key).map (Schema.array s).trim) : j.items? key = some ys.length := by
  obtain ⟨x, hx, htrim⟩ := Option.map_eq_some_iff.mp h.symm
  rw [items?, hx]
  cases x with
  | array xs =>
    cases htrim
    rw [List.length_map]
  | _ => cases htrim

/-! ## Records -/

def Member.named? (members : List Member) (key : String) : Option Member := members.find? (·.key == key)

theorem Member.key_of_named? {members : List Member} {key : String} {m : Member}
    (h : Member.named? members key = some m) : m.key = key :=
  eq_of_beq (List.find?_some (p := fun (m : Member) => m.key == key) h)

/-- What a member's value becomes, by its schema if it is documented. -/
def memberwise (members : List Member) (f : Schema → Json → Json) (other : Json → Option Json) (key : String)
    (j : Json) : Option Json :=
  match Member.named? members key with
  | some m => some (f m.schema j)
  | none => other j

def Schema.namedMembers (members : List Member) (j : Json) : Json :=
  match j with
  | .object keys val =>
    .collect keys fun key => ((Json.object keys val).get? key).bind (memberwise members Schema.named some key)
  | .array items =>
    if items.length ≤ members.length then
      .collect (members.map (·.key)).toFinset fun key =>
        (((members.map (·.key)).zip items).lookup key).bind (memberwise members Schema.named some key)
    else j
  | j => j

/-- An object with these members, and if it is closed with no others. -/
def Schema.object (closed : Bool) (members : List Member) : Schema where
  Accepts j := j.isObject = true ∧
    (∀ m ∈ members, (m.required = true → (j.get? m.key).isSome = true) ∧
      ∀ x, j.get? m.key = some x → m.schema.Accepts x) ∧
    (closed = true → ∀ key, (j.get? key).isSome = true → key ∈ members.map (·.key))
  trim j := match j with
    | .object keys val => .collect keys fun key => ((Json.object keys val).get? key).bind
        (memberwise members Schema.trim (fun x => if closed then some x else none) key)
    | j => j
  named := Schema.namedMembers members
  plain j h := by
    obtain ⟨hobject, hmembers, -⟩ := h
    cases j with
    | object keys val =>
      refine Eq.trans (congrArg (Json.collect keys) ?_) Json.collect_get?
      funext key
      cases hget : (Json.object keys val).get? key with
      | none => rfl
      | some x =>
        rw [Option.bind_some, memberwise]
        cases hfind : Member.named? members key with
        | none => rfl
        | some m =>
          have hkey : m.key = key := Member.key_of_named? hfind
          subst hkey
          exact congrArg some (m.schema.plain x ((hmembers m (List.mem_of_find?_eq_some hfind)).2 x hget))
    | _ => cases hobject

/-- The fields of a record, in order: their keys, and how a product of values is written and read under them. -/
structure Fields (γ : Type) where
  keys : List String
  write : γ → String → Option Json
  read : (String → Option Json) → Option γ

namespace Fields

def done : Fields Unit := ⟨[], fun _ _ => none, fun _ => some ()⟩

def required (key : String) (c : Codec α) (rest : Fields γ) : Fields (α × γ) where
  keys := key :: rest.keys
  write v k := if k = key then some (c.encode v.1) else rest.write v.2 k
  read get := do
    let j ← get key
    let a ← c.decode j
    let more ← rest.read get
    pure (a, more)

/-- A member that may be missing; one that is there is read as any other, so null is no way to leave it out. -/
def readOptional (c : Codec α) : Option Json → Option (Option α)
  | none => some none
  | some j => (c.decode j).map some

/-- A field that may be missing. -/
def optional (key : String) (c : Codec α) (rest : Fields γ) : Fields (Option α × γ) where
  keys := key :: rest.keys
  write v k := if k = key then v.1.map c.encode else rest.write v.2 k
  read get := do
    let a ← readOptional c (get key)
    let more ← rest.read get
    pure (a, more)

/-- The fields read what the members document. -/
structure Meets (f : Fields γ) (members : List Member) : Prop where
  keys : f.keys = members.map (·.key)
  round : ∀ v get, (∀ key ∈ f.keys, get key = f.write v key) → f.read get = some v
  sound : ∀ get v, f.read get = some v → ∀ m ∈ members, (m.required = true → (get m.key).isSome = true) ∧
    (∀ x, get m.key = some x → m.schema.Accepts (m.schema.named x)) ∧
    f.write v m.key = (get m.key).map fun x => m.schema.trim (m.schema.named x)
  complete : ∀ get, (∀ m ∈ members, (m.required = true → (get m.key).isSome = true) ∧
    ∀ x, get m.key = some x → m.schema.Accepts (m.schema.named x)) → (f.read get).isSome = true

theorem done_meets : done.Meets [] where
  keys := rfl
  round _ _ _ := rfl
  sound _ _ _ m hm := by cases hm
  complete _ _ := rfl

variable {key : String} {c : Codec α} {s : Schema} {rest : Fields γ} {members : List Member}

/-- The write of a later field is not the first one's. -/
theorem ne_of_mem_keys {k : String} (hkey : key ∉ rest.keys) (hk : k ∈ rest.keys) : k ≠ key := by
  rintro rfl
  exact hkey hk

/-- An object that a field is written to before the others gives it back, and them. -/
theorem Meets.read_written (hkey : key ∉ rest.keys) (h : rest.Meets members) {x : Option Json} {v : γ}
    {get : String → Option Json} (hget : ∀ k ∈ key :: rest.keys, get k = if k = key then x else rest.write v k) :
    get key = x ∧ rest.read get = some v := by
  constructor
  · rw [hget key List.mem_cons_self]
    exact if_pos rfl
  · refine h.round v get fun k hk => ?_
    rw [hget k (List.mem_cons_of_mem key hk)]
    exact if_neg (ne_of_mem_keys hkey hk)

theorem required_meets (hkey : key ∉ rest.keys) (hc : c.Meets s) (h : rest.Meets members) :
    (rest.required key c).Meets (⟨key, true, s⟩ :: members) where
  keys := congrArg (key :: ·) h.keys
  round v get hget := by
    obtain ⟨hfirst, hrest⟩ := h.read_written hkey hget
    show (do let j ← get key; let a ← c.decode j; let more ← rest.read get; pure (a, more)) = some v
    rw [hfirst, hrest]
    show (do let a ← c.decode (c.encode v.1); pure (a, v.2)) = some v
    rw [hc.round]
    rfl
  sound get v hv := by
    obtain ⟨j, hj, hv⟩ := Option.bind_eq_some_iff.mp hv
    obtain ⟨a, ha, hv⟩ := Option.bind_eq_some_iff.mp hv
    obtain ⟨more, hmore, hv⟩ := Option.bind_eq_some_iff.mp hv
    cases hv
    obtain ⟨haccepts, hwritten⟩ := hc.sound j a ha
    intro m hm
    rcases List.mem_cons.mp hm with rfl | hm
    · refine ⟨fun _ => by rw [hj]; rfl, fun x hx => ?_, ?_⟩
      · rw [hj] at hx
        cases hx
        exact haccepts
      · rw [hj]
        exact (if_pos rfl).trans (congrArg some hwritten)
    · obtain ⟨hthere, haccepts, hwritten⟩ := h.sound get more hmore m hm
      refine ⟨hthere, haccepts, Eq.trans (if_neg ?_) hwritten⟩
      exact ne_of_mem_keys hkey (h.keys ▸ List.mem_map_of_mem hm)
  complete get hall := by
    obtain ⟨hthere, haccepts⟩ := hall ⟨key, true, s⟩ List.mem_cons_self
    obtain ⟨j, hj⟩ := Option.isSome_iff_exists.mp (hthere rfl)
    obtain ⟨a, ha⟩ := Option.isSome_iff_exists.mp (hc.complete j (haccepts j hj))
    obtain ⟨more, hmore⟩ := Option.isSome_iff_exists.mp (h.complete get fun m hm => hall m (List.mem_cons_of_mem _ hm))
    show (do let j ← get key; let a ← c.decode j; let more ← rest.read get; pure (a, more)).isSome = true
    rw [hj, hmore]
    show (do let a ← c.decode j; pure (a, more)).isSome = true
    rw [ha]
    rfl

theorem optional_meets (hkey : key ∉ rest.keys) (hc : c.Meets s) (h : rest.Meets members) :
    (rest.optional key c).Meets (⟨key, false, s⟩ :: members) where
  keys := congrArg (key :: ·) h.keys
  round v get hget := by
    obtain ⟨hfirst, hrest⟩ := h.read_written hkey hget
    have hread : readOptional c (get key) = some v.1 := by
      rw [hfirst]
      cases v.1 with
      | none => rfl
      | some a => exact congrArg (Option.map some) (hc.round a)
    show (do let a ← readOptional c (get key); let more ← rest.read get; pure (a, more)) = some v
    rw [hread, hrest]
    rfl
  sound get v hv := by
    obtain ⟨first, hfirst, hv⟩ := Option.bind_eq_some_iff.mp hv
    obtain ⟨more, hmore, hv⟩ := Option.bind_eq_some_iff.mp hv
    cases hv
    intro m hm
    rcases List.mem_cons.mp hm with rfl | hm
    · refine ⟨fun h => absurd h Bool.false_ne_true, ?_⟩
      cases hj : get key with
      | none =>
        rw [hj] at hfirst
        cases hfirst
        exact ⟨fun x hx => absurd hx (Option.some_ne_none x).symm, if_pos rfl⟩
      | some j =>
        rw [hj] at hfirst
        obtain ⟨a, ha, rfl⟩ := Option.map_eq_some_iff.mp hfirst
        obtain ⟨haccepts, hwritten⟩ := hc.sound j a ha
        refine ⟨fun x hx => ?_, (if_pos rfl).trans (congrArg some hwritten)⟩
        cases hx
        exact haccepts
    · obtain ⟨hthere, haccepts, hwritten⟩ := h.sound get more hmore m hm
      refine ⟨hthere, haccepts, Eq.trans (if_neg ?_) hwritten⟩
      exact ne_of_mem_keys hkey (h.keys ▸ List.mem_map_of_mem hm)
  complete get hall := by
    obtain ⟨more, hmore⟩ := Option.isSome_iff_exists.mp (h.complete get fun m hm => hall m (List.mem_cons_of_mem _ hm))
    have hread : ∃ first, readOptional c (get key) = some first := by
      cases hj : get key with
      | none => exact ⟨none, rfl⟩
      | some j =>
        obtain ⟨a, ha⟩ := Option.isSome_iff_exists.mp
          (hc.complete j ((hall ⟨key, false, s⟩ List.mem_cons_self).2 j hj))
        exact ⟨some a, congrArg (Option.map some) ha⟩
    obtain ⟨first, hfirst⟩ := hread
    show (do let a ← readOptional c (get key); let more ← rest.read get; pure (a, more)).isSome = true
    rw [hfirst, hmore]
    rfl

end Fields

/-- A record of these fields; a closed one refuses an object with other members. -/
def Codec.record (closed : Bool) (f : Fields γ) : Codec γ where
  encode v := .collect f.keys.toFinset (f.write v)
  decode j := match j with
    | .object keys val =>
      if closed = true ∧ ¬ keys ⊆ f.keys.toFinset then none else f.read (Json.object keys val).get?
    | .array items =>
      if items.length ≤ f.keys.length then f.read fun key => (f.keys.zip items).lookup key else none
    | _ => none

section
variable {members : List Member} {m : Member} {key : String} {closed : Bool} {f : Fields γ} {d : Json}
  {get : String → Option Json} {keys : Finset String} {val : {key // key ∈ keys} → Json} {items : List Json}

theorem Member.named?_of_mem (hkeys : (members.map (·.key)).Nodup) (hm : m ∈ members) :
    Member.named? members m.key = some m := by
  induction members with
  | nil => cases hm
  | cons first members ih =>
    rw [List.map_cons, List.nodup_cons] at hkeys
    rcases List.mem_cons.mp hm with rfl | hm
    · exact List.find?_cons_of_pos (beq_self_eq_true _)
    · have hne : first.key ≠ m.key := fun heq => hkeys.1 (heq ▸ List.mem_map_of_mem hm)
      exact (List.find?_cons_of_neg (by simpa using hne)).trans (ih hkeys.2 hm)

theorem Member.named?_eq_none (hkey : key ∉ members.map (·.key)) : Member.named? members key = none :=
  List.find?_eq_none.mpr fun _ hm heq => hkey (eq_of_beq heq ▸ List.mem_map_of_mem hm)

theorem memberwise_member (hkeys : (members.map (·.key)).Nodup) (hm : m ∈ members) (g : Schema → Json → Json)
    (other : Json → Option Json) (j : Json) : memberwise members g other m.key j = some (g m.schema j) := by
  rw [memberwise, Member.named?_of_mem hkeys hm]

theorem memberwise_other (hkey : key ∉ members.map (·.key)) (g : Schema → Json → Json) (other : Json → Option Json)
    (j : Json) : memberwise members g other key j = other j := by
  rw [memberwise, Member.named?_eq_none hkey]

/-- Rewriting the members of an object rewrites what is read under each key. -/
theorem get?_collect_bind (g : String → Json → Option Json) (key : String) :
    (Json.collect keys fun key => ((Json.object keys val).get? key).bind (g key)).get? key =
      ((Json.object keys val).get? key).bind (g key) := by
  rw [Json.get?_collect]
  by_cases h : key ∈ keys
  · rw [if_pos h]
  · rw [if_neg h, Json.get?_object_none h, Option.bind_none]

theorem lookup_zip_mem {keys : List String} {x : Json} (h : (keys.zip items).lookup key = some x) : key ∈ keys := by
  induction keys generalizing items with
  | nil => cases h
  | cons first keys ih =>
    cases items with
    | nil => cases h
    | cons item items =>
      rw [List.zip_cons_cons, List.lookup_cons] at h
      by_cases heq : (key == first) = true
      · rw [eq_of_beq heq]
        exact List.mem_cons_self
      · rw [Bool.not_eq_true] at heq
        rw [heq] at h
        exact List.mem_cons_of_mem first (ih h)

/-- The document `d` spells out what `get` gives to the fields. -/
structure Spells (closed : Bool) (f : Fields γ) (members : List Member) (get : String → Option Json) (d : Json) :
    Prop where
  object : d.isObject = true
  get? : ∀ key, d.get? key = (get key).bind (memberwise members Schema.named some key)
  known : closed = true → ∀ key, (get key).isSome = true → key ∈ f.keys

namespace Spells

theorem member (hd : Spells closed f members get d) (hkeys : (members.map (·.key)).Nodup) (hm : m ∈ members) :
    d.get? m.key = (get m.key).map m.schema.named := by
  rw [hd.get?]
  cases get m.key with
  | none => rfl
  | some x => exact memberwise_member hkeys hm Schema.named some x

/-- In a closed record every member that is there is one of the fields. -/
theorem mem_keys (hd : Spells closed f members get d) (hc : closed = true) {key : String}
    (hkey : (d.get? key).isSome = true) : key ∈ f.keys := by
  apply hd.known hc
  cases hget : get key with
  | none =>
    rw [hd.get?, hget] at hkey
    cases hkey
  | some x => rfl

variable (h : f.Meets members) (hd : Spells closed f members get d) {v : γ}
include h hd

theorem accepts (hmembers : (members.map (·.key)).Nodup) (hv : f.read get = some v) :
    (Schema.object closed members).Accepts d := by
  refine ⟨hd.object, fun m hm => ?_, fun hc key hkey => h.keys ▸ hd.mem_keys hc hkey⟩
  obtain ⟨hthere, haccepts, -⟩ := h.sound get v hv m hm
  rw [hd.member hmembers hm]
  refine ⟨fun hreq => by rw [Option.isSome_map]; exact hthere hreq, fun x hx => ?_⟩
  obtain ⟨y, hy, rfl⟩ := Option.map_eq_some_iff.mp hx
  exact haccepts y hy

/-- What is read is written as the document without its other members. -/
theorem encode (hmembers : (members.map (·.key)).Nodup) (hv : f.read get = some v) :
    (Codec.record closed f).encode v = (Schema.object closed members).trim d := by
  cases d with
  | object keys val =>
    apply Json.object_ext
    intro key
    refine (Json.get?_collect f.keys.toFinset (f.write v) key).trans (Eq.symm ?_)
    refine (get?_collect_bind _ key).trans ?_
    by_cases hkey : key ∈ f.keys
    · rw [if_pos (List.mem_toFinset.mpr hkey)]
      rw [h.keys] at hkey
      obtain ⟨m, hm, rfl⟩ := List.mem_map.mp hkey
      rw [(h.sound get v hv m hm).2.2, hd.member hmembers hm]
      cases get m.key with
      | none => rfl
      | some x =>
        show memberwise members Schema.trim (fun x => if closed then some x else none) m.key (m.schema.named x) = _
        exact memberwise_member hmembers hm Schema.trim _ _
    · rw [if_neg fun hin => hkey (List.mem_toFinset.mp hin)]
      have hother : key ∉ members.map (·.key) := h.keys ▸ hkey
      cases hget : (Json.object keys val).get? key with
      | none => rfl
      | some x =>
        show memberwise members Schema.trim (fun x => if closed then some x else none) key x = none
        rw [memberwise_other hother]
        exact if_neg fun hc => hkey (hd.mem_keys hc (by rw [hget]; rfl))
  | _ => cases hd.object

theorem isSome (hmembers : (members.map (·.key)).Nodup) (haccepts : (Schema.object closed members).Accepts d) :
    (f.read get).isSome = true := by
  apply h.complete get
  intro m hm
  obtain ⟨hthere, haccepts⟩ := haccepts.2.1 m hm
  rw [hd.member hmembers hm] at hthere haccepts
  refine ⟨fun hreq => by rw [← Option.isSome_map]; exact hthere hreq, fun x hx => haccepts _ ?_⟩
  rw [hx]
  rfl

end Spells

/-- A document is read by its members, which are those of what it spells out, or refused as the schema refuses it. -/
theorem record_decode (h : f.Meets members) (j : Json) :
    (∃ get, (Codec.record closed f).decode j = f.read get ∧
      Spells closed f members get (Schema.namedMembers members j)) ∨
    ((Codec.record closed f).decode j = none ∧
      ¬ (Schema.object closed members).Accepts (Schema.namedMembers members j)) := by
  cases j with
  | object keys val =>
    by_cases hunknown : closed = true ∧ ¬ keys ⊆ f.keys.toFinset
    · refine .inr ⟨if_pos hunknown, fun haccepts => hunknown.2 fun key hkey => ?_⟩
      rw [List.mem_toFinset, h.keys]
      apply haccepts.2.2 hunknown.1
      rw [Schema.namedMembers, get?_collect_bind]
      obtain ⟨x, hx⟩ := Option.isSome_iff_exists.mp ((Json.get?_object_isSome val).mpr hkey)
      rw [hx, Option.bind_some, memberwise]
      cases Member.named? members key <;> rfl
    · refine .inl ⟨(Json.object keys val).get?, if_neg hunknown, rfl, fun key => get?_collect_bind _ key, ?_⟩
      intro hc key hkey
      exact List.mem_toFinset.mp (not_not.mp (not_and.mp hunknown hc) ((Json.get?_object_isSome val).mp hkey))
  | array items =>
    have hlength : f.keys.length = members.length := by rw [h.keys, List.length_map]
    by_cases hfits : items.length ≤ members.length
    · refine .inl ⟨fun key => (f.keys.zip items).lookup key, if_pos (hlength ▸ hfits), ?_, fun key => ?_,
        fun _ key hkey => ?_⟩
      · rw [Schema.namedMembers, if_pos hfits]
        rfl
      · rw [Schema.namedMembers, if_pos hfits, Json.get?_collect, ← h.keys]
        by_cases hkey : key ∈ f.keys
        · rw [if_pos (List.mem_toFinset.mpr hkey)]
        · have hnone : (f.keys.zip items).lookup key = none :=
            Option.eq_none_iff_forall_ne_some.mpr fun x hx => hkey (lookup_zip_mem hx)
          rw [if_neg fun hin => hkey (List.mem_toFinset.mp hin)]
          show none = ((f.keys.zip items).lookup key).bind _
          rw [hnone, Option.bind_none]
      · obtain ⟨x, hx⟩ := Option.isSome_iff_exists.mp hkey
        exact lookup_zip_mem hx
    · refine .inr ⟨if_neg (hlength ▸ hfits), fun haccepts => ?_⟩
      rw [Schema.namedMembers, if_neg hfits] at haccepts
      cases haccepts.1
  | _ => exact .inr ⟨rfl, fun haccepts => by cases haccepts.1⟩

/-- A member of what is read, against the member it is written as. -/
theorem record_member (h : f.Meets members) (hkeys : f.keys.Nodup) {j : Json} {v : γ}
    (hv : (Codec.record closed f).decode j = some v) (hm : m ∈ members) :
    f.write v m.key = ((Schema.namedMembers members j).get? m.key).map m.schema.trim := by
  rcases record_decode h j with ⟨get, hdecode, hspells⟩ | ⟨hnone, -⟩
  · rw [(h.sound get v (hdecode.symm.trans hv) m hm).2.2, hspells.member (h.keys ▸ hkeys) hm, Option.map_map]
    rfl
  · rw [hnone] at hv
    cases hv

theorem Codec.record_meets (h : f.Meets members) (hkeys : f.keys.Nodup) :
    (Codec.record closed f).Meets (.object closed members) where
  round v := by
    have hread : f.read (Json.collect f.keys.toFinset (f.write v)).get? = some v := by
      refine h.round v _ fun key hkey => ?_
      rw [Json.get?_collect, if_pos (List.mem_toFinset.mpr hkey)]
    exact (if_neg fun hbad => hbad.2 (Finset.filter_subset _ _)).trans hread
  sound j v hv := by
    rcases record_decode h j with ⟨get, hdecode, hspells⟩ | ⟨hnone, -⟩
    · have hread := hdecode.symm.trans hv
      exact ⟨hspells.accepts h (h.keys ▸ hkeys) hread, hspells.encode h (h.keys ▸ hkeys) hread⟩
    · rw [hnone] at hv
      cases hv
  complete j haccepts := by
    rcases record_decode h j with ⟨get, hdecode, hspells⟩ | ⟨-, hrefused⟩
    · rw [hdecode]
      exact hspells.isSome h (h.keys ▸ hkeys) haccepts
    · exact absurd haccepts hrefused

end

end JsonMap
