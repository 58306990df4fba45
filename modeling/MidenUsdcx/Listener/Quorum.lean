import Mathlib.Data.List.Permutation
import MidenUsdcx.Lib.Ecdsa
import MidenUsdcx.Listener.Gate
import MidenUsdcx.Listener.Keys
/-!
# The listener's own signers (`attester.rs:87-394`, `validate.rs:457`, `listener/mod.rs:215-258`)

| here | there |
| --- | --- |
| `evmVFromRecoveryId`, `sign`, `addressOf` | `attester.rs:94`, `314`, `354` |
| `k256`, for `Crates.recoverFromPrehash` | `attester.rs:389-391` |
| `signValidated` | `validate.rs:457` |
| `signBatches` | `LocalKeyQuorumSigner::sign_batches` (`listener/mod.rs:229`) |

`Gate.lean` takes the signer and the recovery of a key as they come. Here both are what they are in production, over any
curve: the keys sign, the bundle and the gate recover.
-/
namespace WithdrawalListener
open Checked Ecdsa

/-! ## Signing -/

/-- `RecoveryId::to_byte`. -/
def recoveryByte (id : RecoveryId) : UInt8 := (if id.odd then 1 else 0) + if id.reduced then 2 else 0

/-- `RecoveryId::from_byte`. -/
def recoveryOf (byte : UInt8) : Option RecoveryId := RecoveryId.all.find? fun id => recoveryByte id = byte

/-- `evm_v_from_recovery_id` (`attester.rs:94`). -/
def evmVFromRecoveryId (id : RecoveryId) : Option UInt8 :=
  if recoveryByte id = 0 ∨ recoveryByte id = 1 then some (27 + recoveryByte id) else none

/-- Only the two IDs of an unreduced x coordinate have a form there. -/
theorem evmVFromRecoveryId_eq_some {id : RecoveryId} {v : UInt8} (h : evmVFromRecoveryId id = some v) :
    (id = ⟨false, false⟩ ∧ v = 27) ∨ (id = ⟨true, false⟩ ∧ v = 28) := by
  obtain ⟨odd, reduced⟩ := id
  cases reduced with
  | true => cases odd <;> cases h
  | false =>
    cases odd with
    | false => exact .inl ⟨rfl, (Option.some.inj h).symm⟩
    | true => exact .inr ⟨rfl, (Option.some.inj h).symm⟩

section
variable {F P : Type} [Field F] [AddCommGroup P] [Module F P] [DecidableEq F] [DecidableEq P] (E : Formats F P)

/-- `address_from_verifying_key` (`attester.rs:360`). -/
def addressFromVerifyingKey (key : P) : Address := ⟨E.address key⟩

/-- `address_of` (`attester.rs:354`). -/
def addressOf (key : Secret F) : Address := addressFromVerifyingKey E (E.publicKey key)

/-- `sign` (`attester.rs:314`). -/
def sign (msgHashToSign : Bytes32) (key : Secret F) : Except SignError Signature65 := do
  let signed ← orThrow (E.signPrehash key msgHashToSign) .ecdsa
  let v ← orThrow (evmVFromRecoveryId signed.2) (.unrepresentableRecoveryId (recoveryByte signed.2))
  pure ⟨(E.encode signed.1).push v⟩

/-- `sign_validated` (`validate.rs:457`). -/
def signValidated (validated : ValidatedWithdrawal) (key : Secret F) : Except SignError (List Signature65) :=
  validated.digests.mapM fun digest => sign E digest key

/-- One key's round of `sign_batches`: its signature goes to the end of each batch. -/
def signRound (validated : ValidatedWithdrawal) (perBatch : List (List SignerClaim)) (key : Secret F) :
    Except SignError (List (List SignerClaim)) := do
  let signatures ← signValidated E validated key
  pure (List.zipWith (fun batch signature => batch ++ [(addressOf E key, signature)]) perBatch signatures)

/-- `LocalKeyQuorumSigner::sign_batches` (`listener/mod.rs:229`). -/
def signBatches (keys : List (Secret F)) (validated : ValidatedWithdrawal) :
    Except SignError (List (List SignerClaim)) := do
  let perBatch ← keys.foldlM (signRound E validated) (List.replicate validated.digests.length [])
  pure (perBatch.map fun batch => batch.mergeSort fun a b => a.1 ≤ b.1)

/-- What `recover_address` takes from `k256` (`attester.rs:389-391`). -/
def k256 (digest : Bytes32) (bytes : List UInt8) (byte : UInt8) : Option Address := do
  let signature ← E.decode bytes
  let id ← recoveryOf byte
  (E.recover (E.prehash digest) signature id).map (addressFromVerifyingKey E)

/-! ## A signature and its signer -/

variable {E} {C : Crates} {digest : Bytes32} {key : Secret F} {signature : Signature65}

/-- A signature with an EVM recovery ID is read back as it was written. -/
theorem recoverAddress_push (hC : C.recoverFromPrehash = k256 E) {sig : Ecdsa.Signature F} {id : RecoveryId} {v : UInt8}
    (hv : evmVFromRecoveryId id = some v) :
    recoverAddress C digest ⟨(E.encode sig).push v⟩ =
      (E.recover (E.prehash digest) sig id).map (addressFromVerifyingKey E) := by
  have hlast : (Signature65.mk ((E.encode sig).push v)).v = v := by simp [Signature65.v]
  have hbody : ((E.encode sig).push v).toList.take 64 = (E.encode sig).toList := by
    simp [Vector.toList_push, List.take_left']
  rw [recoverAddress, hlast, hC]
  simp only [hbody, k256, E.decode_encode, Option.bind_eq_bind, Option.bind_some]
  rcases evmVFromRecoveryId_eq_some hv with ⟨rfl, rfl⟩ | ⟨rfl, rfl⟩
  · rw [if_pos rfl, show recoveryOf 0 = some ⟨false, false⟩ by decide, Option.bind_some]
  · rw [if_neg (by decide), if_pos rfl, show recoveryOf 1 = some ⟨true, false⟩ by decide, Option.bind_some]

/-- A signature is attributed to the key that made it. -/
theorem sign_ok (hC : C.recoverFromPrehash = k256 E) (h : sign E digest key = .ok signature) :
    recoverAddress C digest signature = some (addressOf E key) := by
  simp only [sign, orThrow_bind_ok, pure_ok] at h
  obtain ⟨⟨sig, id⟩, hsigned, v, hv, rfl⟩ := h
  rw [recoverAddress_push hC hv, E.signPrehash_recovers hsigned]
  rfl

/-! ## The claims of a batch -/

variable (E C digest) in
/-- The claim is the key's own: its address, and a signature that recovers to it. -/
structure ClaimOf (key : Secret F) (claim : SignerClaim) : Prop where
  address : claim.1 = addressOf E key
  recovers : recoverAddress C digest claim.2 = some claim.1

/-- A key signs every batch. -/
theorem signRound_ok (hC : C.recoverFromPrehash = k256 E) {validated : ValidatedWithdrawal} {key : Secret F}
    {done : List (Secret F)} {before after : List (List SignerClaim)}
    (hbefore : List.Forall₂ (fun digest claims => List.Forall₂ (ClaimOf E C digest) done claims) validated.digests before)
    (h : signRound E validated before key = .ok after) :
    List.Forall₂ (fun digest claims => List.Forall₂ (ClaimOf E C digest) (done ++ [key]) claims) validated.digests
      after := by
  simp only [signRound, signValidated, bind_ok, pure_ok, mapM_ok] at h
  obtain ⟨signatures, hsignatures, rfl⟩ := h
  generalize validated.digests = digests at hbefore hsignatures
  induction hbefore generalizing signatures with
  | nil => exact .nil
  | cons hclaims _ ih =>
    cases hsignatures with
    | cons hsigned hrest =>
      have hclaim : ClaimOf E C _ key (addressOf E key, _) := ⟨rfl, sign_ok hC hsigned⟩
      exact .cons (List.rel_append hclaims (.cons hclaim .nil)) (ih _ hrest)

/-- Every key signs every batch, in the order of the keys. -/
theorem signRounds_ok (hC : C.recoverFromPrehash = k256 E) {validated : ValidatedWithdrawal} :
    ∀ {keys done : List (Secret F)} {before after : List (List SignerClaim)},
      List.Forall₂ (fun digest claims => List.Forall₂ (ClaimOf E C digest) done claims) validated.digests before →
      keys.foldlM (signRound E validated) before = .ok after →
      List.Forall₂ (fun digest claims => List.Forall₂ (ClaimOf E C digest) (done ++ keys) claims) validated.digests after
  | [], done, before, after, hbefore, h => by
    obtain rfl := pure_ok.1 h
    rwa [List.append_nil]
  | key :: keys, done, before, after, hbefore, h => by
    rw [List.foldlM_cons, bind_ok] at h
    obtain ⟨mid, hround, hrest⟩ := h
    rw [List.append_cons]
    exact signRounds_ok hC (signRound_ok hC hbefore hround) hrest

/-- A batch's claims: one for each key, in ascending order of their addresses. -/
theorem signBatches_ok (hC : C.recoverFromPrehash = k256 E) {validated : ValidatedWithdrawal} {keys : List (Secret F)}
    {perBatch : List (List SignerClaim)} (h : signBatches E keys validated = .ok perBatch) :
    List.Forall₂ (fun digest claims => ∃ signed, List.Forall₂ (ClaimOf E C digest) keys signed ∧ claims.Perm signed ∧
      claims.Pairwise fun a b => a.1 ≤ b.1) validated.digests perBatch := by
  simp only [signBatches, bind_ok, pure_ok] at h
  obtain ⟨signed, hsigned, rfl⟩ := h
  have hnone : List.Forall₂ (fun digest claims => List.Forall₂ (ClaimOf E C digest) [] claims) validated.digests
      (List.replicate validated.digests.length []) := by
    generalize validated.digests = digests
    induction digests with
    | nil => exact .nil
    | cons _ _ ih => exact .cons .nil ih
  have hall := signRounds_ok hC hnone hsigned
  rw [List.forall₂_map_right_iff]
  refine hall.imp fun digest claims hclaims => ⟨claims, hclaims, List.mergeSort_perm _ _, ?_⟩
  have htrans : ∀ a b c : SignerClaim, decide (a.1 ≤ b.1) = true → decide (b.1 ≤ c.1) = true →
      decide (a.1 ≤ c.1) = true := by
    intro a b c hab hbc
    exact decide_eq_true (Vector.le_trans (of_decide_eq_true hab) (of_decide_eq_true hbc))
  have htotal : ∀ a b : SignerClaim, (decide (a.1 ≤ b.1) || decide (b.1 ≤ a.1)) = true := by
    intro a b
    rw [Bool.or_eq_true, decide_eq_true_eq, decide_eq_true_eq]
    exact Vector.le_total _ _
  exact (List.pairwise_mergeSort htrans htotal claims).imp of_decide_eq_true

/-! ## The bundle -/

theorem assembleQuorum_below {claims : List SignerClaim} (h : claims.length < MIN_SIGNATURE_THRESHOLD) :
    assembleQuorum C digest claims = .error (.belowThreshold claims.length MIN_SIGNATURE_THRESHOLD) := by
  rw [assembleQuorum, ensure, if_neg (Nat.not_le.2 h)]
  rfl

theorem assembleQuorum_above {claims : List SignerClaim} (h : MIN_SIGNATURE_THRESHOLD < claims.length) :
    assembleQuorum C digest claims = .error (.aboveThreshold claims.length MIN_SIGNATURE_THRESHOLD) := by
  rw [assembleQuorum, ensure, ensure, if_pos (Nat.le_of_lt h), if_neg (Nat.not_le.2 h)]
  rfl

/-- What `assemble_quorum` says of two ordered claims that recover. -/
theorem assembleQuorum_pair {first second : SignerClaim} (hfirst : recoverAddress C digest first.2 = some first.1)
    (hsecond : recoverAddress C digest second.2 = some second.1) (hle : first.1 ≤ second.1) :
    assembleQuorum C digest [first, second] =
      if first.1 = second.1 then .error (.duplicateSigner first.1) else .ok ⟨[first.2, second.2]⟩ := by
  have hverify : ∀ (index : Nat) (claim : SignerClaim),
      ensure (recoverAddress C digest claim.2 = some claim.1) (QuorumError.signatureDoesNotVerify index) = .ok () ↔
        recoverAddress C digest claim.2 = some claim.1 := fun _ _ => ensure_ok
  have hverified : ([first, second].zipIdx.forM fun entry =>
      ensure (recoverAddress C digest entry.1.2 = some entry.1.1) (QuorumError.signatureDoesNotVerify entry.2)) =
        .ok () := by
    refine (forM_zipIdx_ok hverify).2 fun claim hclaim => ?_
    rcases List.mem_pair.1 hclaim with rfl | rfl
    · exact hfirst
    · exact hsecond
  rw [assembleQuorum, show ensure (MIN_SIGNATURE_THRESHOLD ≤ [first, second].length) _ = .ok () from rfl,
    show ensure ([first, second].length ≤ MIN_SIGNATURE_THRESHOLD) _ = .ok () from rfl, hverified]
  by_cases heq : first.1 = second.1
  · have hrepeated : repeatedSigner [first, second] = some first.1 := by simp [repeatedSigner, heq]
    rw [hrepeated, if_pos heq]
    rfl
  · have hrepeated : repeatedSigner [first, second] = none := by
      simp [repeatedSigner, Ne.symm heq]
    have hascending : firstDescent 1 [first, second] = none := by
      have hnot : ¬ second.1 ≤ first.1 := fun hge => heq (by
        have hbytes : first.1.bytes = second.1.bytes := Vector.le_antisymm hle hge
        cases hone : first.1
        cases htwo : second.1
        rw [hone, htwo] at hbytes
        exact congrArg Address.mk hbytes)
      simp [firstDescent, hnot]
    rw [hrepeated, hascending, if_neg heq]
    rfl

omit [DecidableEq F] [DecidableEq P] in
/-- Two keys' claims, put in order. -/
theorem pair_of_claims {a b : Secret F} {claims signed : List SignerClaim}
    (hsigned : List.Forall₂ (ClaimOf E C digest) [a, b] signed) (hperm : claims.Perm signed)
    (hsorted : claims.Pairwise fun x y => x.1 ≤ y.1) :
    ∃ first second, claims = [first, second] ∧ first.1 ≤ second.1 ∧
      recoverAddress C digest first.2 = some first.1 ∧ recoverAddress C digest second.2 = some second.1 ∧
      ((first.1 = addressOf E a ∧ second.1 = addressOf E b) ∨ (first.1 = addressOf E b ∧ second.1 = addressOf E a)) := by
  obtain ⟨x, hx, y, hy, rfl⟩ : ∃ x, ClaimOf E C digest a x ∧ ∃ y, ClaimOf E C digest b y ∧ signed = [x, y] := by
    cases hsigned with
    | cons hx hrest =>
      cases hrest with
      | cons hy hnil =>
        cases hnil
        exact ⟨_, hx, _, hy, rfl⟩
  rcases List.perm_pair.1 hperm with rfl | rfl
  · have hle := List.rel_of_pairwise_cons hsorted (List.mem_singleton_self _)
    exact ⟨x, y, rfl, hle, hx.recovers, hy.recovers, .inl ⟨hx.address, hy.address⟩⟩
  · have hle := List.rel_of_pairwise_cons hsorted (List.mem_singleton_self _)
    exact ⟨y, x, rfl, hle, hy.recovers, hx.recovers, .inr ⟨hy.address, hx.address⟩⟩

/-- What the bundle makes of the claims that the listener's own keys signed: it counts the keys, and of two it asks that
they are different signers. It never finds a signature that is someone else's, nor a wrong order. -/
theorem signBatches_quorum (hC : C.recoverFromPrehash = k256 E) {validated : ValidatedWithdrawal} {keys : List (Secret F)}
    {perBatch : List (List SignerClaim)} (h : signBatches E keys validated = .ok perBatch) :
    List.Forall₂ (fun digest claims =>
      (keys.length < 2 → assembleQuorum C digest claims = .error (.belowThreshold keys.length 2)) ∧
      (2 < keys.length → assembleQuorum C digest claims = .error (.aboveThreshold keys.length 2)) ∧
      ∀ a b, keys = [a, b] →
        (addressOf E a = addressOf E b → assembleQuorum C digest claims = .error (.duplicateSigner (addressOf E a))) ∧
        (addressOf E a ≠ addressOf E b → ∃ bundle, assembleQuorum C digest claims = .ok bundle))
      validated.digests perBatch := by
  refine (signBatches_ok hC h).imp fun digest claims hclaims => ?_
  obtain ⟨signed, hsigned, hperm, hsorted⟩ := hclaims
  have hlength : claims.length = keys.length := hperm.length_eq.trans hsigned.length_eq.symm
  refine ⟨fun hfew => ?_, fun hmany => ?_, fun a b hkeys => ?_⟩
  · rw [← hlength] at hfew ⊢
    exact assembleQuorum_below hfew
  · rw [← hlength] at hmany ⊢
    exact assembleQuorum_above hmany
  · subst hkeys
    obtain ⟨first, second, rfl, hle, hfirst, hsecond, haddresses⟩ := pair_of_claims hsigned hperm hsorted
    rw [assembleQuorum_pair hfirst hsecond hle]
    constructor
    · intro hsame
      rcases haddresses with ⟨hone, htwo⟩ | ⟨hone, htwo⟩
      · rw [if_pos (by rw [hone, htwo, hsame]), hone]
      · rw [if_pos (by rw [hone, htwo, hsame]), hone, hsame]
    · intro hdiffer
      have hne : first.1 ≠ second.1 := by
        rcases haddresses with ⟨hone, htwo⟩ | ⟨hone, htwo⟩
        · rwa [hone, htwo]
        · rw [hone, htwo]
          exact hdiffer.symm
      exact ⟨_, if_neg hne⟩

/-! ## From the keys to the gate -/

/-- What a signer of the listener's own keys may fail with. -/
def Unsigned (e : SignError) : Prop := e = .ecdsa ∨ ∃ id, e = .unrepresentableRecoveryId id

/-- The refusals between the two requests that are not about the listener's own signatures: what Circle prepared, a
curve that refuses a digest, and the evidence. -/
def Foreign : RunError → Prop
  | .validation _ | .batchCardinality _ | .intentCardinality _ | .evidence _ => True
  | .sign source => Unsigned source
  | _ => False

omit [DecidableEq P] in
theorem signBatches_refuses (keys : List (Secret F)) (validated : ValidatedWithdrawal) :
    Refuses Unsigned (signBatches E keys validated) := by
  refine refuses_bind (refuses_foldlM fun perBatch key => refuses_bind (refuses_mapM fun digest => ?_) fun _ => refuses_pure)
    fun _ => refuses_pure
  exact refuses_bind (refuses_orThrow (.inl rfl)) fun signed =>
    refuses_bind (refuses_orThrow (.inr ⟨_, rfl⟩)) fun _ => refuses_pure

/-- The bundle of two different, registered keys passes the gate. -/
theorem bundle_authorized {cfg : ListenerConfig} {first second : SignerClaim} {batch : WithdrawBatch}
    {request : WithdrawRequest} (hbatch : batch.burnSignatures = [first.2.toHexBytes, second.2.toHexBytes])
    (hrequest : request.batches = [batch]) (hfirst : recoverAddress C digest first.2 = some first.1)
    (hsecond : recoverAddress C digest second.2 = some second.1) (hone : first.1 ∈ cfg.attesterAllowlist)
    (htwo : second.1 ∈ cfg.attesterAllowlist) :
    authorizeSubmission C request ⟨[digest]⟩ cfg = .ok ⟨request⟩ := by
  refine authorizeSubmission_iff.2 ⟨List.ne_nil_of_mem hone, by rw [hrequest]; rfl, fun entry hentry text htext => ?_, rfl⟩
  rw [hrequest] at hentry
  obtain rfl := List.mem_singleton.1 hentry
  rw [hbatch] at htext
  rcases List.mem_pair.1 htext with rfl | rfl
  · exact ⟨first.1, ⟨first.2, decode_toHexBytes _, hfirst⟩, hone⟩
  · exact ⟨second.1, ⟨second.2, decode_toHexBytes _, hsecond⟩, htwo⟩

theorem new_of_pair (intent : BurnIntent) (first second : HexBytes) (burnTxId : String) (forwarding : Bool) :
    ∃ batch, WithdrawBatch.new [intent] [first, second] burnTxId forwarding = .ok batch := by
  have hcounts : 1 ≤ [intent].length ∧ [intent].length ≤ 10 := by simp
  rw [WithdrawBatch.new, dif_pos hcounts, dif_pos (by simp)]
  exact ⟨_, rfl⟩

theorem new_of_one (batch : WithdrawBatch) : ∃ request, WithdrawRequest.new [batch] = .ok request := by
  have hcount : 1 ≤ [batch].length ∧ [batch].length ≤ 5 := by simp
  rw [WithdrawRequest.new, dif_pos hcount]
  exact ⟨_, rfl⟩

/-- The request with such a bundle is well formed and passes the gate, whatever the evidence is. -/
theorem bundle_cleared {cfg : ListenerConfig} {first second : SignerClaim} (intent : BurnIntent) (burnTxId : String)
    (forwarding : Bool) (hfirst : recoverAddress C digest first.2 = some first.1)
    (hsecond : recoverAddress C digest second.2 = some second.1) (hone : first.1 ∈ cfg.attesterAllowlist)
    (htwo : second.1 ∈ cfg.attesterAllowlist) :
    ∃ batch request, buildWithdrawBatch intent ⟨[first.2, second.2]⟩ burnTxId forwarding = .ok batch ∧
      buildWithdrawRequest [batch] = .ok request ∧ authorizeSubmission C request ⟨[digest]⟩ cfg = .ok ⟨request⟩ := by
  obtain ⟨batch, hbatch⟩ := new_of_pair intent first.2.toHexBytes second.2.toHexBytes burnTxId forwarding
  obtain ⟨request, hrequest⟩ := new_of_one batch
  exact ⟨batch, request, hbatch, hrequest, bundle_authorized (new_batch_ok hbatch).2.1 (new_request_ok hrequest)
    hfirst hsecond hone htwo⟩

/-- What two different keys sign of one digest is a bundle. -/
theorem signed_bundle (hC : C.recoverFromPrehash = k256 E) {a b : Secret F} (hdiffer : addressOf E a ≠ addressOf E b)
    {perBatch : List (List SignerClaim)} (h : signBatches E [a, b] ⟨[digest]⟩ = .ok perBatch) :
    ∃ first second : SignerClaim, perBatch = [[first, second]] ∧
      assembleQuorum C digest [first, second] = .ok ⟨[first.2, second.2]⟩ ∧
      recoverAddress C digest first.2 = some first.1 ∧ recoverAddress C digest second.2 = some second.1 ∧
      (first.1 = addressOf E a ∧ second.1 = addressOf E b ∨ first.1 = addressOf E b ∧ second.1 = addressOf E a) := by
  have hclaims := signBatches_ok hC h
  -- One digest, and so one batch of claims.
  obtain ⟨claims, rfl, signed, hby, hperm, hsorted⟩ : ∃ claims, perBatch = [claims] ∧ ∃ signed,
      List.Forall₂ (ClaimOf E C digest) [a, b] signed ∧ claims.Perm signed ∧
        claims.Pairwise fun x y => x.1 ≤ y.1 := by
    cases hclaims with
    | cons hone hnil =>
      cases hnil
      exact ⟨_, rfl, hone⟩
  obtain ⟨first, second, rfl, hle, hfirst, hsecond, haddresses⟩ := pair_of_claims hby hperm hsorted
  have hne : first.1 ≠ second.1 := by
    rcases haddresses with ⟨hone, htwo⟩ | ⟨hone, htwo⟩
    · rwa [hone, htwo]
    · rw [hone, htwo]
      exact hdiffer.symm
  exact ⟨first, second, rfl, (assembleQuorum_pair hfirst hsecond hle).trans (if_neg hne), hfirst, hsecond, haddresses⟩

/-- Where the listener signs with two different, registered keys, neither the bundle nor the gate before submitting ever
refuses what they signed, and the request is never malformed. -/
theorem clear_local {ctx : RunContext} {a b : Secret F} (hC : ctx.crates.recoverFromPrehash = k256 E)
    (hsigner : ctx.signer = signBatches E [a, b]) (hdiffer : addressOf E a ≠ addressOf E b)
    (ha : addressOf E a ∈ ctx.config.attesterAllowlist) (hb : addressOf E b ∈ ctx.config.attesterAllowlist)
    (noteId : NoteId) (burn : DiscoveredBurn) (asked : PrepareWithdrawalRequest) (response : PrepareWithdrawalResponse) :
    Refuses Foreign (clear ctx noteId burn asked response) := by
  refine refuses_then (refuses_mapError (refuses_any _) fun _ _ => trivial) fun validated _ => ?_
  refine refuses_then (refuses_sole trivial) fun digest hdigest => ?_
  refine refuses_then (refuses_sole trivial) fun prepared _ => ?_
  refine refuses_then (refuses_sole trivial) fun intent _ => ?_
  rw [hsigner]
  refine refuses_then (refuses_mapError (signBatches_refuses _ _) fun _ h => h) fun perBatch hsigned => ?_
  obtain ⟨digests⟩ := validated
  obtain rfl : digests = [digest] := sole_ok.1 hdigest
  obtain ⟨first, second, rfl, hquorum, hfirst, hsecond, haddresses⟩ := signed_bundle hC hdiffer (mapError_ok.1 hsigned)
  have hregistered : first.1 ∈ ctx.config.attesterAllowlist ∧ second.1 ∈ ctx.config.attesterAllowlist := by
    rcases haddresses with ⟨hone, htwo⟩ | ⟨hone, htwo⟩ <;> rw [hone, htwo]
    · exact ⟨ha, hb⟩
    · exact ⟨hb, ha⟩
  refine refuses_then (refuses_of_ok (sole_ok.2 rfl)) fun claims hclaims => ?_
  obtain rfl : [first, second] = claims := List.head_eq_of_cons_eq (sole_ok.1 hclaims)
  refine refuses_then (refuses_of_ok (mapError_ok.2 hquorum)) fun bundle hbundle => ?_
  obtain rfl : bundle = ⟨[first.2, second.2]⟩ := Except.ok.inj ((mapError_ok.1 hbundle).symm.trans hquorum)
  refine refuses_then (refuses_mapError (refuses_any _) fun _ _ => trivial) fun evidence _ => ?_
  obtain ⟨batch, request, hbatch, hrequest, hauthorized⟩ := bundle_cleared intent evidence.burnTxId _ hfirst hsecond
    hregistered.1 hregistered.2
  refine refuses_then (refuses_of_ok (mapError_ok.2 hbatch)) fun batch' hbatch' => ?_
  obtain rfl : batch = batch' := Except.ok.inj (hbatch.symm.trans (mapError_ok.1 hbatch'))
  refine refuses_then (refuses_of_ok (mapError_ok.2 hrequest)) fun built hbuilt => ?_
  obtain rfl : request = built := Except.ok.inj (hrequest.symm.trans (mapError_ok.1 hbuilt))
  exact refuses_then (refuses_of_ok (mapError_ok.2 hauthorized)) fun _ _ => refuses_pure

end

/-! ## Two keys on a small curve -/

namespace Local

def crates : Crates := { sampleCrates with recoverFromPrehash := k256 smallFormats }

def first : Secret (ZMod 13) := ⟨smallFirst, smallFirst_ne⟩
def second : Secret (ZMod 13) := ⟨smallSecond, smallSecond_ne⟩

def context : RunContext where
  crates := crates
  config := ⟨sampleFaucet, 0, 10000, 5, [addressOf smallFormats first, addressOf smallFormats second]⟩
  circle := ⟨1048576, .new 1, .new 1, ⟨fun _ => none, fun _ => none, fun _ => none, fun _ => none⟩⟩
  signer := signBatches smallFormats [second, first]
  evidence := sampleReads [sampleRow 21 [11]]

/-- One batch of one intent. -/
def response : PrepareWithdrawalResponse :=
  ⟨[⟨[Sample.intent], "", "0x0606060606060606060606060606060606060606060606060606060606060606"⟩]⟩

theorem differ : addressOf smallFormats second ≠ addressOf smallFormats first := by decide

theorem recovers : crates.recoverFromPrehash = k256 smallFormats := rfl

theorem signs : ∃ perBatch, signBatches smallFormats [second, first] ⟨[sampleBytes 6]⟩ = .ok perBatch := by
  have hrounds : ([second, first].foldlM (signRound smallFormats ⟨[sampleBytes 6]⟩) [[]]).toOption.isSome = true := by
    decide +kernel
  rw [signBatches]
  show ∃ perBatch, ([second, first].foldlM (signRound smallFormats ⟨[sampleBytes 6]⟩) [[]] >>= _) = .ok perBatch
  cases h : [second, first].foldlM (signRound smallFormats ⟨[sampleBytes 6]⟩) [[]] with
  | ok rounds => exact ⟨_, rfl⟩
  | error e =>
    rw [h] at hrounds
    cases hrounds

theorem word_decoded : decodeHex32 Sample.word.asStr = some (sampleBytes 0) := by decide

theorem validated : validateReturned context.crates context.config sampleBurn response = .ok ⟨[sampleBytes 6]⟩ := by
  refine validateReturned_ok.2 ⟨by decide, .cons ⟨by decide, ?_, by unfold DigestOf; decide⟩ .nil⟩
  intro i hi
  obtain rfl := List.mem_singleton.1 hi
  exact ⟨by decide, by decide, by decide, rfl, word_decoded, word_decoded, ⟨rfl, word_decoded, word_decoded, rfl, rfl⟩⟩

theorem evidenced : ∃ package,
    assembleEvidence context.crates context.evidence ⟨sampleBytes 1⟩ context.config.faucetId = .ok package :=
  ⟨⟨"0x1515151515151515151515151515151515151515151515151515151515151515", sampleBytes 1, sampleBytes 11, 5⟩, by decide⟩

end Local

/-- The second key is given first, and the bundle is assembled. -/
theorem signBatches_quorum_small : ∃ claims bundle,
    signBatches smallFormats [Local.second, Local.first] ⟨[sampleBytes 6]⟩ = .ok [claims] ∧
      assembleQuorum Local.crates (sampleBytes 6) claims = .ok bundle := by
  obtain ⟨perBatch, h⟩ := Local.signs
  have hall := signBatches_quorum Local.recovers h
  cases hall with
  | cons hclaims hnil =>
    cases hnil
    obtain ⟨bundle, hbundle⟩ := (hclaims.2.2 _ _ rfl).2 Local.differ
    exact ⟨_, bundle, h, hbundle⟩

/-- The response is signed and cleared. -/
theorem clear_local_small : (∃ cleared, clear Local.context ⟨sampleBytes 1⟩ sampleBurn ⟨[]⟩ Local.response = .ok cleared) ∧
    Refuses Foreign (clear Local.context ⟨sampleBytes 1⟩ sampleBurn ⟨[]⟩ Local.response) := by
  refine ⟨?_, clear_local rfl rfl Local.differ (by decide) (by decide) _ _ _ _⟩
  obtain ⟨perBatch, hsigned⟩ := Local.signs
  obtain ⟨package, hevidence⟩ := Local.evidenced
  obtain ⟨first, second, rfl, hquorum, hfirst, hsecond, haddresses⟩ :=
    signed_bundle Local.recovers Local.differ hsigned
  have hregistered : first.1 ∈ Local.context.config.attesterAllowlist ∧
      second.1 ∈ Local.context.config.attesterAllowlist := by
    rcases haddresses with ⟨hone, htwo⟩ | ⟨hone, htwo⟩ <;> rw [hone, htwo] <;> decide
  obtain ⟨batch, request, hbatch, hrequest, hauthorized⟩ := bundle_cleared Sample.intent package.burnTxId false hfirst
    hsecond hregistered.1 hregistered.2
  refine ⟨(package.burnTxId, ⟨request⟩), ?_⟩
  simp only [clear, bind_ok, mapError_ok, sole_ok, pure_ok]
  exact ⟨_, Local.validated, _, rfl, _, rfl, _, rfl, _, hsigned, _, rfl, _, hquorum, _, hevidence, _, hbatch, _, hrequest,
    _, hauthorized, rfl⟩

end WithdrawalListener
