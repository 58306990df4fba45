import MidenUsdcx.Lib.Packed
import MidenUsdcx.Attester.Payout
import Mathlib.Algebra.GroupWithZero.Nat
/-!
# The packed encodings can be read back (`verify.rs:550-657`)

Circle hashes and signs over packed bytes: fixed fields one after the other and, at the end, a tail after its length in
32 bits. The tail of an intent is a transfer spec, whose own tail is the hook data, whose own tail is calldata that
Circle chooses. Each of the three is readable (`Packed.Readable`), so equal bytes have equal fields, and an encoding
whose tail is too long is refused.
-/
namespace LightAttester
open Checked Packed

/-! ## Words -/

theorem beBytes_length (len n : Nat) : (beBytes len n).length = len := by
  induction len generalizing n with
  | zero => rfl
  | succ len ih =>
    rw [beBytes, List.length_append, ih]
    rfl

theorem beBytes_inj {len a b : Nat} (ha : a < 256 ^ len) (hb : b < 256 ^ len) (h : beBytes len a = beBytes len b) :
    a = b := by
  induction len generalizing a b with
  | zero =>
    rw [Nat.pow_zero] at ha hb
    omega
  | succ len ih =>
    rw [beBytes, beBytes] at h
    obtain ⟨hhigh, hlow⟩ := List.append_inj' h rfl
    rw [Nat.pow_succ] at ha hb
    have hdiv : a / 256 = b / 256 := ih (by omega) (by omega) hhigh
    have hmod : a % 256 = b % 256 := by
      have hbyte := congrArg UInt8.toNat (List.singleton_inj.1 hlow)
      rw [UInt8.toNat_ofNat', UInt8.toNat_ofNat', Nat.mod_mod, Nat.mod_mod] at hbyte
      exact hbyte
    omega

/-- `to_be_bytes` of a number that fits. -/
theorem readable_beBytes (len : Nat) : Readable (fun n => n < 256 ^ len) (beBytes len) :=
  readable_fixed len (beBytes_length len) fun _ _ => beBytes_inj

theorem readable_u32 : Readable (fun _ => True) fun n : UInt32 => beBytes 4 n.toNat := by
  intro a b s t _ _ h
  exact (readable_beBytes 4).comap UInt32.toNat (fun _ _ => UInt32.toNat_inj.1) a b s t a.toNat_lt b.toNat_lt h

theorem readable_word : Readable (fun _ => True) wordBytes := by
  intro a b s t _ _ h
  exact (readable_beBytes 32).comap BitVec.toNat (fun _ _ => BitVec.eq_of_toNat_eq) a b s t a.isLt b.isLt h

theorem readable_bytes : Readable (fun bytes : Bytes => bytes.length < UInt32.size)
    fun bytes => beBytes 4 bytes.length ++ bytes := readable_tail (readable_beBytes 4)

/-! ## The three layouts -/

theorem appendWithLength_ok {output bytes x : Bytes} (h : appendWithLength output bytes = .ok x) :
    bytes.length < UInt32.size ∧ x = output ++ (beBytes 4 bytes.length ++ bytes) := by
  simp only [appendWithLength, ensure_bind_ok, pure_ok] at h
  rw [← List.append_assoc]
  exact ⟨h.1, h.2.symm⟩

/-- A tail whose length does not fit is refused, not cut. -/
theorem appendWithLength_error {output bytes : Bytes} (h : UInt32.size ≤ bytes.length) :
    appendWithLength output bytes = .error (.malformedField "encoded length") := by
  simp only [appendWithLength, ensure, if_neg (Nat.not_lt.2 h)]
  rfl

theorem appendWithLength_fits {output bytes : Bytes} (h : bytes.length < UInt32.size) :
    appendWithLength output bytes = .ok (output ++ (beBytes 4 bytes.length ++ bytes)) := by
  simp only [appendWithLength, ensure, if_pos h]
  exact congrArg Except.ok (List.append_assoc _ _ _)

theorem hook_readable {a b : HookData} {x y s t : Bytes} (ha : a.encode = .ok x) (hb : b.encode = .ok y)
    (h : x ++ s = y ++ t) : a = b ∧ s = t := by
  obtain ⟨hfits, rfl⟩ := appendWithLength_ok ha
  obtain ⟨hfits', rfl⟩ := appendWithLength_ok hb
  -- Field by field, from the left.
  simp only [List.append_assoc, List.append_cancel_left_eq] at h
  obtain ⟨hdomain, h⟩ := readable_u32 _ _ _ _ trivial trivial h
  obtain ⟨htoken, h⟩ := readable_word _ _ _ _ trivial trivial h
  obtain ⟨hdepositor, h⟩ := readable_word _ _ _ _ trivial trivial h
  obtain ⟨hcontract, h⟩ := readable_word _ _ _ _ trivial trivial h
  rw [← List.append_assoc, ← List.append_assoc] at h
  obtain ⟨hcalldata, h⟩ := readable_bytes _ _ _ _ hfits hfits' h
  refine ⟨?_, h⟩
  cases a
  cases b
  simp only [HookData.mk.injEq]
  exact ⟨hdomain, htoken, hdepositor, Address.intoWord_inj hcontract, hcalldata⟩

theorem spec_readable {a b : Eip712.TransferSpec} {x y s t : Bytes} (ha : a.encode = .ok x) (hb : b.encode = .ok y)
    (h : x ++ s = y ++ t) : a = b ∧ s = t := by
  obtain ⟨hfits, rfl⟩ := appendWithLength_ok ha
  obtain ⟨hfits', rfl⟩ := appendWithLength_ok hb
  simp only [List.append_assoc, List.append_cancel_left_eq] at h
  obtain ⟨hversion, h⟩ := readable_u32 _ _ _ _ trivial trivial h
  obtain ⟨hsource, h⟩ := readable_u32 _ _ _ _ trivial trivial h
  obtain ⟨hdestination, h⟩ := readable_u32 _ _ _ _ trivial trivial h
  obtain ⟨hwords, h⟩ := readable_word.flatMap (by rfl) (fun _ _ => trivial) (fun _ _ => trivial) h
  obtain ⟨hvalue, h⟩ := readable_word _ _ _ _ trivial trivial h
  obtain ⟨hsalt, h⟩ := readable_word _ _ _ _ trivial trivial h
  rw [← List.append_assoc, ← List.append_assoc] at h
  obtain ⟨hhook, h⟩ := readable_bytes _ _ _ _ hfits hfits' h
  refine ⟨?_, h⟩
  cases a
  cases b
  simp only [List.cons.injEq, and_true] at hwords
  obtain ⟨h1, h2, h3, h4, h5, h6, h7, h8⟩ := hwords
  simp only [Eip712.TransferSpec.mk.injEq]
  exact ⟨hversion, hsource, hdestination, h1, h2, h3, h4, h5, h6, h7, h8, hvalue, hsalt, hhook⟩

theorem intent_readable {a b : Eip712.BurnIntent} {x y s t : Bytes} (ha : a.encode = .ok x) (hb : b.encode = .ok y)
    (h : x ++ s = y ++ t) : a = b ∧ s = t := by
  obtain ⟨spec, hspec, ha⟩ := bind_ok.1 ha
  obtain ⟨spec', hspec', hb⟩ := bind_ok.1 hb
  obtain ⟨hfits, rfl⟩ := appendWithLength_ok ha
  obtain ⟨hfits', rfl⟩ := appendWithLength_ok hb
  simp only [List.append_assoc, List.append_cancel_left_eq] at h
  obtain ⟨hheight, h⟩ := readable_word _ _ _ _ trivial trivial h
  obtain ⟨hfee, h⟩ := readable_word _ _ _ _ trivial trivial h
  rw [← List.append_assoc, ← List.append_assoc] at h
  obtain ⟨hbytes, h⟩ := readable_bytes _ _ _ _ hfits hfits' h
  have hspecs := (spec_readable (s := []) (t := []) hspec hspec' (by rw [hbytes])).1
  refine ⟨?_, h⟩
  cases a
  cases b
  simp only [Eip712.BurnIntent.mk.injEq]
  exact ⟨hheight, hfee, hspecs⟩

/-! ## Their lengths -/

section
variable {output bytes : Bytes}

theorem hook_length {hook : HookData} {x : Bytes} (h : hook.encode = .ok x) :
    x.length = 112 + hook.forwardingCalldata.length := by
  obtain ⟨-, rfl⟩ := appendWithLength_ok h
  simp only [wordBytes, List.length_append, beBytes_length]
  omega

theorem spec_length {spec : Eip712.TransferSpec} {x : Bytes} (h : spec.encode = .ok x) :
    x.length = 340 + spec.hookData.length := by
  obtain ⟨-, rfl⟩ := appendWithLength_ok h
  simp only [wordBytes, List.length_append, beBytes_length, List.flatMap_cons, List.flatMap_nil, List.length_nil]
  omega

theorem intent_length {intent : Eip712.BurnIntent} {x : Bytes} (h : intent.encode = .ok x) :
    x.length = 72 + (340 + intent.spec.hookData.length) := by
  obtain ⟨spec, hspec, h⟩ := bind_ok.1 h
  have hlength := spec_length hspec
  obtain ⟨-, rfl⟩ := appendWithLength_ok h
  simp only [wordBytes, List.length_append, beBytes_length]
  omega

/-- The spec is a tail too: hook data that fits may leave no room for it. -/
theorem intent_encode_fits {intent : Eip712.BurnIntent} (h : 340 + intent.spec.hookData.length < UInt32.size) :
    ∃ x, intent.encode = .ok x := by
  obtain ⟨spec, hspec⟩ : ∃ x, intent.spec.encode = .ok x :=
    ⟨_, appendWithLength_fits (Nat.lt_of_le_of_lt (Nat.le_add_left _ 340) h)⟩
  rw [← spec_length hspec] at h
  exact ⟨_, bind_ok.2 ⟨spec, hspec, appendWithLength_fits h⟩⟩

theorem intent_encode_error {intent : Eip712.BurnIntent} (h : UInt32.size ≤ 340 + intent.spec.hookData.length) :
    intent.encode = .error (.malformedField "encoded length") := by
  unfold Eip712.BurnIntent.encode
  by_cases hhook : intent.spec.hookData.length < UInt32.size
  · obtain ⟨spec, hspec⟩ : ∃ x, intent.spec.encode = .ok x := ⟨_, appendWithLength_fits hhook⟩
    rw [← spec_length hspec] at h
    rw [hspec]
    exact appendWithLength_error h
  · have hspec : intent.spec.encode = .error (.malformedField "encoded length") :=
      appendWithLength_error (Nat.not_lt.1 hhook)
    rw [hspec]
    rfl

end

/-! ## Canonical encodings -/

/-- Fixed fields of `width` bytes in all, its tail's length among them, and the tail. -/
structure Canonical {α : Type} (encode : α → Except VerifyError Bytes) (width : Nat) (tail : α → Nat) : Prop where
  injective : ∀ a b x, encode a = .ok x → encode b = .ok x → a = b
  /-- At the head of any text, too. -/
  readable : ∀ a b x y s t, encode a = .ok x → encode b = .ok y → x ++ s = y ++ t → a = b ∧ s = t
  exact : ∀ a, tail a < UInt32.size → ∃ x, encode a = .ok x ∧ x.length = width + tail a
  refused : ∀ a, UInt32.size ≤ tail a → encode a = .error (.malformedField "encoded length")

theorem canonical {α : Type} {encode : α → Except VerifyError Bytes} {width : Nat} {tail : α → Nat}
    (readable : ∀ a b x y s t, encode a = .ok x → encode b = .ok y → x ++ s = y ++ t → a = b ∧ s = t)
    (length : ∀ a x, encode a = .ok x → x.length = width + tail a)
    (fits : ∀ a, tail a < UInt32.size → ∃ x, encode a = .ok x)
    (refused : ∀ a, UInt32.size ≤ tail a → encode a = .error (.malformedField "encoded length")) :
    Canonical encode width tail where
  injective a b x ha hb := (readable a b x x [] [] ha hb rfl).1
  readable := readable
  exact a h := by
    obtain ⟨x, hx⟩ := fits a h
    exact ⟨x, hx, length a x hx⟩
  refused := refused

theorem parseIntent_hook {C : Crates} {raw : Wire.BurnIntent} {intent : Eip712.BurnIntent} {hook : HookData}
    (h : parseIntent C raw = .ok (intent, hook)) : hook.encode = .ok intent.spec.hookData := by
  simp only [parseIntent, bind_ok, pure_ok] at h
  obtain ⟨_, -, _, -, _, -, _, -, _, -, _, -, _, -, _, -, _, -, _, -, _, -, _, -, _, -, _, hencode, heq⟩ := h
  cases heq
  exact hencode

/-- The typed fields of a reply's one intent. -/
def IntentOf (C : Crates) (reply : UnverifiedPrepareResponse) (intent : Eip712.BurnIntent) (hook : HookData) : Prop :=
  ∃ batch raw, soleIntent reply = some (batch, raw) ∧ parseIntent C raw = .ok (intent, hook)

/-- The bytes a reply supplies. -/
def Supplies (C : Crates) (reply : UnverifiedPrepareResponse) (encoded : Bytes) : Prop :=
  ∃ batch raw, soleIntent reply = some (batch, raw) ∧ C.parseBytes batch.encoded = some encoded

/-- Two specs that keccak256 does not tell apart. -/
def Collide (C : Crates) (a b : Eip712.TransferSpec) : Prop :=
  ∃ x y, a.encode = .ok x ∧ b.encode = .ok y ∧ x ≠ y ∧ C.keccak256 x = C.keccak256 y

section
variable {C : Crates} {reply : UnverifiedPrepareResponse} {intent intent' : Eip712.BurnIntent} {hook hook' : HookData}

theorem IntentOf.unique (h : IntentOf C reply intent hook) (h' : IntentOf C reply intent' hook') :
    intent = intent' ∧ hook = hook' := by
  obtain ⟨batch, raw, hsole, hparsed⟩ := h
  obtain ⟨batch', raw', hsole', hparsed'⟩ := h'
  rw [hsole] at hsole'
  cases hsole'
  rw [hparsed] at hparsed'
  cases hparsed'
  exact ⟨rfl, rfl⟩

theorem spec_hashed {a b : Eip712.TransferSpec} {hash : B256} (ha : a.hash C = .ok hash) (hb : b.hash C = .ok hash) :
    a = b ∨ Collide C a b := by
  obtain ⟨x, hx, ha⟩ := bind_ok.1 ha
  obtain ⟨y, hy, hb⟩ := bind_ok.1 hb
  by_cases hxy : x = y
  · subst hxy
    exact .inl (spec_readable (s := []) (t := []) hx hy rfl).1
  · exact .inr ⟨x, y, hx, hy, hxy, (pure_ok.1 ha).trans (pure_ok.1 hb).symm⟩

/-- An accepted reply supplies the encoding of its own intent, and saves the hash of its spec. -/
theorem verify_encoded {burn : DiscoveredBurn} {config : Config} {v : VerifiedWithdrawal}
    (h : verify C reply burn config = .ok v) :
    ∃ intent hook encoded, IntentOf C reply intent hook ∧ Supplies C reply encoded ∧ intent.encode = .ok encoded ∧
      hook.encode = .ok intent.spec.hookData ∧ intent.spec.hash C = .ok v.transferSpecHash := by
  obtain ⟨batch, raw, intent, hook, fee, secondary, hash, haccepts, hhash, rfl⟩ := verify_ok h
  obtain ⟨encoded, hsupplied, hencoded⟩ := haccepts.encoded
  exact ⟨intent, hook, encoded, ⟨batch, raw, haccepts.sole, haccepts.parsed⟩, ⟨batch, raw, haccepts.sole, hsupplied⟩,
    hencoded, parseIntent_hook haccepts.parsed, hhash⟩

end

structure CanonicalEncodings (C : Crates) : Prop where
  hook : Canonical HookData.encode 112 fun hook => hook.forwardingCalldata.length
  spec : Canonical Eip712.TransferSpec.encode 340 fun spec => spec.hookData.length
  intent : Canonical Eip712.BurnIntent.encode 72 fun intent => 340 + intent.spec.hookData.length
  /-- The supplied bytes of an accepted reply belong to its intent and its hook data alone. -/
  pinned : ∀ reply burn config v, verify C reply burn config = .ok v →
    ∃ intent hook encoded, IntentOf C reply intent hook ∧ Supplies C reply encoded ∧ intent.encode = .ok encoded ∧
      ∀ intent' hook', intent'.encode = .ok encoded → hook'.encode = .ok intent'.spec.hookData →
        intent' = intent ∧ hook' = hook
  hashed : ∀ a b hash, a.hash C = .ok hash → b.hash C = .ok hash → a = b ∨ Collide C a b
  /-- Replies that save the same hash have the same spec. -/
  saved : ∀ reply reply' burn burn' config config' v v' intent intent' hook hook', verify C reply burn config = .ok v →
    verify C reply' burn' config' = .ok v' → IntentOf C reply intent hook → IntentOf C reply' intent' hook' →
    v.transferSpecHash = v'.transferSpecHash → intent.spec = intent'.spec ∨ Collide C intent.spec intent'.spec

/-- **The encodings are canonical**: each is of one value, and none is cut short, so what `verify` compares pins the
intent. -/
theorem encodings_canonical (C : Crates) : CanonicalEncodings C where
  hook := canonical (fun _ _ _ _ _ _ => hook_readable) (fun _ _ => hook_length) (fun _ h => ⟨_, appendWithLength_fits h⟩)
    fun _ => appendWithLength_error
  spec := canonical (fun _ _ _ _ _ _ => spec_readable) (fun _ _ => spec_length) (fun _ h => ⟨_, appendWithLength_fits h⟩)
    fun _ => appendWithLength_error
  intent := canonical (fun _ _ _ _ _ _ => intent_readable) (fun _ _ => intent_length) (fun _ => intent_encode_fits)
    fun _ => intent_encode_error
  pinned reply burn config v h := by
    obtain ⟨intent, hook, encoded, hintent, hsupplies, hencoded, hhook, -⟩ := verify_encoded h
    refine ⟨intent, hook, encoded, hintent, hsupplies, hencoded, fun intent' hook' hencoded' hhook' => ?_⟩
    obtain ⟨rfl, -⟩ := intent_readable (s := []) (t := []) hencoded' hencoded rfl
    exact ⟨rfl, (hook_readable (s := []) (t := []) hhook' hhook rfl).1⟩
  hashed _ _ _ ha hb := spec_hashed ha hb
  saved reply reply' burn burn' config config' v v' intent intent' hook hook' h h' hintent hintent' heq := by
    obtain ⟨_, _, _, hown, -, -, -, hhash⟩ := verify_encoded h
    obtain ⟨_, _, _, hown', -, -, -, hhash'⟩ := verify_encoded h'
    obtain ⟨rfl, -⟩ := hintent.unique hown
    obtain ⟨rfl, -⟩ := hintent'.unique hown'
    rw [heq] at hhash
    exact spec_hashed hhash hhash'

end LightAttester
