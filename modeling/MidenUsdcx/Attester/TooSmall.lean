import MidenUsdcx.Attester.Holds
import MidenUsdcx.Attester.Calls
/-!
# Burns that are too small to forward (`verify.rs:252-375`, `attester.rs:622-675`, `777-800`)

`TooSmallToForward` is the one refusal of `verify` that puts a burn on hold. It is the last check, so all the others
have passed; and it compares two things no reply has a say in, the burned amount and the configured fee of the second
leg, so every other reply over that leg fails too.

| here | there |
| --- | --- |
| `Checks` | the checks of `verify` before the one on the payout (`verify.rs:257-355`) |
| `Warrants` | what `burn_hold` (`attester.rs:778`) holds a burn for |
| `Attempted` | what one `attempt_withdrawal` (`attester.rs:622`) can have done, cut short or not |
-/
namespace LightAttester
open Checked Interact Keyed Store

variable {C : Crates} {config : Config} {burn : DiscoveredBurn}

/-! ## The refusal -/

/-- What `verify` has checked when it comes to the payout of the second leg. -/
structure Checks (C : Crates) (reply : UnverifiedPrepareResponse) (burn : DiscoveredBurn) (config : Config)
    (batch : UnverifiedPrepareBatch) (raw : Wire.BurnIntent) (intent : Eip712.BurnIntent) (hook : HookData)
    (forwardingFee : UInt64) (secondaryFee : U256) : Prop where
  sole : soleIntent reply = some (batch, raw)
  parsed : parseIntent C raw = .ok (intent, hook)
  salt : burn.noteId.word = intent.spec.salt
  supported : config.forwardingMaxFee burn.items.destDomain = some forwardingFee
  route : verifyRoute C intent hook burn config forwardingFee = .ok secondaryFee
  remoteDomain : hook.remoteDomain = C.midenDomain
  remoteDepositor : hook.remoteDepositor = C.embedAccountId burn.note.sender
  remoteToken : hook.remoteToken = C.embedAccountId config.faucetAccountId
  amount : intent.spec.value ≠ 0 ∧ checkedAddU256 intent.spec.value intent.maxFee = some (u256 burn.amount)
  fee : saturatingAddU256 intent.maxFee secondaryFee ≤ feeCeiling config (u256 burn.amount)
  signer : intent.spec.sourceSigner = intent.spec.sourceDepositor
  sourceToken : intent.spec.sourceToken = ARC_USDC.intoWord
  sourceDomain : intent.spec.sourceDomain = ARC_DOMAIN
  encoded : ∃ encoded, C.parseBytes batch.encoded = some encoded ∧ intent.encode = .ok encoded
  digest : C.parseB256 batch.messageHashToSign = some (C.signingHash intent)

/-- The refusals of the checks before the payout. -/
def VerifyError.early (e : VerifyError) : Prop := e ≠ .tooSmallToForward

theorem appendWithLength_early (output bytes : Bytes) : Refuses VerifyError.early (appendWithLength output bytes) :=
  refuses_bind (refuses_ensure (by simp [VerifyError.early])) fun _ => refuses_pure

theorem intent_encode_early (intent : Eip712.BurnIntent) : Refuses VerifyError.early intent.encode :=
  refuses_bind (appendWithLength_early _ _) fun _ => appendWithLength_early _ _

theorem parseField_early {α : Type} (parsed : Option α) (field : String) :
    Refuses VerifyError.early (parseField parsed field) := refuses_orThrow (by simp [VerifyError.early])

theorem decimal_early (text field : String) : Refuses VerifyError.early (decimal text field) :=
  refuses_bind (refuses_ensure (by simp [VerifyError.early])) fun _ =>
    refuses_bind (refuses_ensure (by simp [VerifyError.early])) fun _ => refuses_pure

theorem hook_parse_early (raw : StructuredHookData) : Refuses VerifyError.early (HookData.parse C raw) := by
  unfold HookData.parse
  refine refuses_bind (parseField_early _ _) fun _ => refuses_bind (parseField_early _ _) fun _ => ?_
  exact refuses_bind (parseField_early _ _) fun _ => refuses_bind (parseField_early _ _) fun _ => refuses_pure

theorem parseIntent_early (raw : Wire.BurnIntent) : Refuses VerifyError.early (parseIntent C raw) := by
  unfold parseIntent
  refine refuses_bind (hook_parse_early _) fun hook => refuses_bind (decimal_early _ _) fun _ => ?_
  refine refuses_bind (decimal_early _ _) fun _ => refuses_bind (parseField_early _ _) fun _ => ?_
  refine refuses_bind (parseField_early _ _) fun _ => refuses_bind (parseField_early _ _) fun _ => ?_
  refine refuses_bind (parseField_early _ _) fun _ => refuses_bind (parseField_early _ _) fun _ => ?_
  refine refuses_bind (parseField_early _ _) fun _ => refuses_bind (parseField_early _ _) fun _ => ?_
  refine refuses_bind (parseField_early _ _) fun _ => refuses_bind (decimal_early _ _) fun _ => ?_
  exact refuses_bind (parseField_early _ _) fun _ => refuses_bind (appendWithLength_early _ _) fun _ => refuses_pure

theorem checkFields_early (fields : List (Bool × String)) : Refuses VerifyError.early (checkFields fields) := by
  induction fields with
  | nil => exact refuses_pure
  | cons field rest ih => exact refuses_bind (refuses_ensure (by simp [VerifyError.early])) fun _ => ih

section
variable {intent : Eip712.BurnIntent} {hook : HookData} {fee : UInt64}

theorem verifyForwardedLeg_early (forwarding : CctpForwarding) :
    Refuses VerifyError.early (verifyForwardedLeg C intent hook burn forwarding) := by
  have hfield : ∀ (p : Prop) [Decidable p] (field : String),
      Refuses VerifyError.early (ensure p (VerifyError.forwardedField field)) :=
    fun p _ field => refuses_ensure (by simp [VerifyError.early])
  unfold verifyForwardedLeg
  refine refuses_bind (hfield _ _) fun _ => refuses_bind (hfield _ _) fun _ => ?_
  refine refuses_bind (hfield _ _) fun _ => refuses_bind (hfield _ _) fun _ => ?_
  refine refuses_bind (hfield _ _) fun _ => refuses_bind (refuses_orThrow (by simp [VerifyError.early])) fun call => ?_
  refine refuses_bind (hfield _ _) fun _ => refuses_bind (hfield _ _) fun _ => ?_
  refine refuses_bind (hfield _ _) fun _ => refuses_bind (hfield _ _) fun _ => ?_
  refine refuses_bind (hfield _ _) fun _ => refuses_bind (hfield _ _) fun _ => ?_
  exact refuses_bind (hfield _ _) fun _ => refuses_bind (hfield _ _) fun _ => hfield _ _

theorem verifyRedepositLeg_early (forwarder : Address) :
    Refuses VerifyError.early (verifyRedepositLeg C intent hook burn forwarder fee) := by
  unfold verifyRedepositLeg
  refine refuses_bind (refuses_orThrow (by simp [VerifyError.early])) fun deployment => ?_
  refine refuses_bind (refuses_orThrow (by simp [VerifyError.early])) fun token => ?_
  refine refuses_bind (checkFields_early _) fun _ => ?_
  refine refuses_bind (refuses_orThrow (by simp [VerifyError.early])) fun call => ?_
  exact refuses_bind (refuses_ensure (by simp [VerifyError.early])) fun _ => checkFields_early _

theorem verifyRoute_early : Refuses VerifyError.early (verifyRoute C intent hook burn config fee) := by
  unfold verifyRoute
  split
  · exact refuses_bind (verifyRedepositLeg_early _) fun _ => refuses_pure
  · split
    · exact refuses_bind (verifyForwardedLeg_early _) fun _ => refuses_pure
    · refine refuses_bind (refuses_ensure (by simp [VerifyError.early])) fun _ => ?_
      refine refuses_bind (refuses_ensure (by simp [VerifyError.early])) fun _ => ?_
      exact refuses_bind (refuses_ensure (by simp [VerifyError.early])) fun _ => refuses_pure

/-- The second leg costs the configured fee, whatever the reply. -/
theorem verifyRoute_fee {secondary : U256} (h : verifyRoute C intent hook burn config fee = .ok secondary)
    (hsecond : hook.forwarded = true ∨ FIRST_REMOTE_DOMAIN ≤ burn.items.destDomain) : secondary = u256 fee := by
  unfold verifyRoute at h
  split at h
  · obtain ⟨_, -, h⟩ := bind_ok.1 h
    exact (pure_ok.1 h).symm
  · rename_i hnative
    rw [if_pos (hsecond.resolve_right hnative)] at h
    obtain ⟨_, -, h⟩ := bind_ok.1 h
    exact (pure_ok.1 h).symm

end

/-- The refusal comes after all the other checks. -/
theorem tooSmall_checks {reply : UnverifiedPrepareResponse} (h : verify C reply burn config = .error .tooSmallToForward) :
    ∃ batch raw intent hook fee secondary, Checks C reply burn config batch raw intent hook fee secondary ∧
      (hook.forwarded = true ∨ FIRST_REMOTE_DOMAIN ≤ burn.items.destDomain) ∧ u256 burn.amount ≤ secondary := by
  have hnot : ¬ VerifyError.early .tooSmallToForward := fun hne => hne rfl
  unfold verify at h
  rw [orThrow_bind_error (by simp)] at h
  obtain ⟨⟨batch, raw⟩, sole, h⟩ := h
  obtain ⟨⟨intent, hook⟩, parsed, h⟩ := (parseIntent_early raw).past hnot h
  rw [ensure_bind_error (by simp), orThrow_bind_error (by simp)] at h
  obtain ⟨salt, fee, supported, h⟩ := h
  obtain ⟨secondary, route, h⟩ := verifyRoute_early.past hnot h
  rw [ensure_bind_error (by simp), ensure_bind_error (by simp), ensure_bind_error (by simp),
    ensure_bind_error (by simp), ensure_bind_error (by simp), ensure_bind_error (by simp),
    ensure_bind_error (by simp), ensure_bind_error (by simp)] at h
  obtain ⟨remoteDomain, remoteDepositor, remoteToken, amount, feeOk, signer, token, domain, h⟩ := h
  obtain ⟨supplied, hsupplied, h⟩ := (parseField_early _ _).past hnot h
  obtain ⟨encoded, hencoded, h⟩ := (intent_encode_early intent).past hnot h
  rw [ensure_bind_error (by simp)] at h
  obtain ⟨rfl, h⟩ := h
  obtain ⟨digest, hdigest, h⟩ := (parseField_early _ _).past hnot h
  rw [ensure_bind_error (by simp)] at h
  obtain ⟨heq, h⟩ := h
  split at h
  · rename_i hpay
    refine ⟨batch, raw, intent, hook, fee, secondary, ?_, hpay.1, ?_⟩
    · exact { sole := sole, parsed := parsed, salt := salt, supported := supported, route := route,
              remoteDomain := remoteDomain, remoteDepositor := remoteDepositor, remoteToken := remoteToken,
              amount := amount, fee := feeOk, signer := signer, sourceToken := token, sourceDomain := domain,
              encoded := ⟨_, orThrow_ok.1 hsupplied, hencoded⟩, digest := heq ▸ orThrow_ok.1 hdigest }
    · split at h
      · assumption
      · cases h
  · obtain ⟨hash, hhash, h⟩ := (refuses_bind (appendWithLength_early _ _) fun _ => refuses_pure :
      Refuses VerifyError.early (intent.spec.hash C)).past hnot h
    cases h

/-- No reply over a second leg verifies for a burn that does not cover its fee. -/
theorem tooSmall_final {reply other : UnverifiedPrepareResponse} {v : VerifiedWithdrawal}
    (h : verify C reply burn config = .error .tooSmallToForward) (hother : verify C other burn config = .ok v) :
    burn.items.destDomain < FIRST_REMOTE_DOMAIN ∧ ∃ batch raw intent hook, soleIntent other = some (batch, raw) ∧
      parseIntent C raw = .ok (intent, hook) ∧ hook.forwarded = false := by
  obtain ⟨_, _, _, _, fee, secondary, hchecks, hsecond, hsmall⟩ := tooSmall_checks h
  obtain ⟨batch, raw, intent, hook, fee', secondary', hash, haccepts, -, -⟩ := verify_ok hother
  have hfee : fee' = fee := Option.some.inj (haccepts.supported.symm.trans hchecks.supported)
  have hnone : ¬ (hook.forwarded = true ∨ FIRST_REMOTE_DOMAIN ≤ burn.items.destDomain) := by
    intro hsecond'
    -- The payout is at most the burn, and the burn at most the fee.
    have hpay := haccepts.payout hsecond'
    rw [verifyRoute_fee haccepts.route hsecond', hfee, ← verifyRoute_fee hchecks.route hsecond, BitVec.lt_def] at hpay
    have hsum := checkedAddU256_eq_some haccepts.amount.2
    rw [BitVec.le_def] at hsmall
    omega
  refine ⟨UInt32.not_le.1 fun hle => hnone (.inr hle), batch, raw, intent, hook, haccepts.sole, haccepts.parsed, ?_⟩
  exact Bool.eq_false_iff.2 fun hf => hnone (.inl hf)

/-! ## What a task did -/

/-- The burn was prepared once since `w`, with this reply. -/
structure Answered (burn : DiscoveredBurn) (w w' : World) (reply : Except CircleError UnverifiedPrepareResponse) :
    Prop where
  grew : ∃ newer, w'.log = newer ++ w.log
  said : ∃ fee, Said w w' (.prepare burn fee reply)
  only : ∀ fee other, Said w w' (.prepare burn fee other) → other = reply

def heldFor (s : Store) (m : NoteId) : Option BurnHoldReason := (s.burn m).bind (·.holdReason)

/-- What each hold is for: a reply that passes every check but the one on the amount, or a refusal of prepare that is
no withdrawal limit. -/
def Warrants (C : Crates) (config : Config) (burn : DiscoveredBurn) (said : Act → Prop) : BurnHoldReason → Prop
  | .tooSmallToForward => ∃ fee reply, said (.prepare burn fee (.ok reply)) ∧
      verify C reply burn config = .error .tooSmallToForward
  | .prepareRejected => ∃ fee body, said (.prepare burn fee (.error (.unexpectedPrepareStatus .badRequest body))) ∧
      ∀ policy, config.withdrawalLimit = some policy → isWithdrawalLimit C .badRequest body policy.messagePrefix = false

/-- The answers to prepare that leave a burn alone: a reply that fails another check, and any failure that is no 400. -/
def Spares (C : Crates) (config : Config) (burn : DiscoveredBurn) : Except CircleError UnverifiedPrepareResponse → Prop
  | .ok reply => ∃ e, verify C reply burn config = .error e ∧ e ≠ .tooSmallToForward
  | .error e => ∀ body, e ≠ .unexpectedPrepareStatus .badRequest body

structure Attempted (C : Crates) (config : Config) (burn : DiscoveredBurn) (w w' : World) : Prop where
  held : ∀ m reason, heldFor w'.store m = some reason →
    heldFor w.store m = some reason ∨ m = burn.noteId ∧ Warrants C config burn (Said w w') reason
  unchanged : ∀ fee reply, Said w w' (.prepare burn fee reply) → Spares C config burn reply → w'.store = w.store

variable {w w' w'' : World}

theorem Answered.cons {reply : Except CircleError UnverifiedPrepareResponse} {x : Entry}
    (h : Answered burn w w' reply) (hlog : w''.log = x :: w'.log)
    (hx : ∀ d fee other, x.act ≠ .prepare d fee other) : Answered burn w w'' reply := by
  obtain ⟨newer, hnewer⟩ := h.grew
  obtain ⟨fee, hsaid⟩ := h.said
  refine ⟨⟨x :: newer, by rw [hlog, hnewer, List.cons_append]⟩, ⟨fee, (said_cons h.grew hlog _).2 (.inr hsaid)⟩, ?_⟩
  intro fee' other hother
  rcases (said_cons h.grew hlog _).1 hother with hnow | hbefore
  · exact absurd hnow (hx _ _ _)
  · exact h.only fee' other hbefore

theorem Attempted.same (hstore : w'.store = w.store) : Attempted C config burn w w' :=
  ⟨fun m reason hheld => .inl (by rwa [hstore] at hheld), fun _ _ _ _ => hstore⟩

/-- A store with other rows, but the holds it had. -/
theorem Attempted.kept {reply : Except CircleError UnverifiedPrepareResponse} (h : Answered burn w w' reply)
    (hheld : ∀ m, heldFor w'.store m = heldFor w.store m) (hreply : ¬ Spares C config burn reply) :
    Attempted C config burn w w' := by
  refine ⟨fun m reason hreason => .inl (by rwa [hheld m] at hreason), fun fee other hsaid hspares => ?_⟩
  rw [h.only fee other hsaid] at hspares
  exact absurd hspares hreply

/-! ## Submitting holds no burn -/

/-- What follows a reply that verifies: the signatures, the saved request, and the conversation about it. -/
def Call.submits : Call → Bool
  | .sign _ _ | .write (.save _) => true
  | o => o.settles

theorem submits_of_settles {o : Call} (h : o.settles = true) : o.submits = true := by
  cases o with
  | write x => cases x <;> first | rfl | cases h
  | _ => first | rfl | cases h

theorem heldFor_save {s s' : Store} {rec : SavedSubmission} (h : s.saveSubmission C rec = .ok s') (m : NoteId) :
    heldFor s' m = heldFor s m := by
  obtain ⟨-, -, b, -, rfl⟩ := saveSubmission_ok h
  rfl

theorem heldFor_outcome {s s' : Store} {out : SavedSubmission} (h : s.updateSubmissionOutcome C out = .ok s')
    (m : NoteId) : heldFor s' m = heldFor s m := by
  obtain ⟨r, hleaves⟩ := outcome_leaves h
  exact hleaves.holdReason m

theorem heldFor_limit {s s' : Store} {n : NoteId} {t : Nat} {body : Bytes}
    {sub : Option (SavedSubmission × SubmissionAttempt)} (h : s.recordLimitRejection n t body sub = .ok s')
    (m : NoteId) : heldFor s' m = heldFor s m := by
  obtain ⟨b, f, hleaves⟩ := limit_leaves h
  exact hleaves.holdReason m

/-- The holds are those of `w`, and the reply is the only one. -/
structure Submitting (burn : DiscoveredBurn) (w : World) (reply : Except CircleError UnverifiedPrepareResponse)
    (w' : World) : Prop where
  answered : Answered burn w w' reply
  held : ∀ m, heldFor w'.store m = heldFor w.store m

section
variable {reply : Except CircleError UnverifiedPrepareResponse}

theorem Submitting.record (h : Submitting burn w reply w') {a : Act} (ha : ∀ d fee other, a ≠ .prepare d fee other) :
    Submitting burn w reply (w'.record a) := ⟨h.answered.cons rfl ha, h.held⟩

theorem Submitting.transact {x : Write} (h : Submitting burn w reply w')
    (hx : ∀ s', x.apply C w'.store = .ok s' → ∀ m, heldFor s' m = heldFor w'.store m) (fails : Bool) :
    Submitting burn w reply (w'.transact C x fails).2 := by
  unfold World.transact
  split
  · exact h.record fun _ _ _ ha => by cases ha
  · split
    · rename_i s' hs'
      exact ⟨h.answered.cons rfl fun _ _ _ ha => (by cases ha), fun m => (hx s' hs' m).trans (h.held m)⟩
    · exact h.record fun _ _ _ ha => by cases ha

theorem Submitting.step (o : Call) (e : Env) (w' : World) (ho : o.submits = true) (h : Submitting burn w reply w') :
    Submitting burn w reply ((handler C).step o e w').2 := by
  cases o with
  | write x =>
    cases x with
    | save rec => exact h.transact (x := .save rec) (fun _ hs' => heldFor_save hs') e.storeFails
    | outcome out => exact h.transact (x := .outcome out) (fun _ hs' => heldFor_outcome hs') e.storeFails
    | limit n t body sub => exact h.transact (x := .limit n t body sub) (fun _ hs' => heldFor_limit hs') e.storeFails
    | create | scan | hold | advance | release | releaseAll => cases ho
  | sign n digest => exact h.record fun _ _ _ ha => by cases ha
  | post n request => exact h.record fun _ _ _ ha => by cases ha
  | get n request => exact h.record fun _ _ _ ha => by cases ha
  | now => exact h.record fun _ _ _ ha => by cases ha
  | query | rateLimited => exact h
  | setRateLimited value => exact ⟨⟨h.answered.grew, h.answered.said, h.answered.only⟩, h.held⟩
  | prepare | mark | accountExists | scanLimits | blockByNumber | checkSigners | checkCircle | inbox | fileExists
  | openFile => cases ho

end

/-! ## What submitting fails with -/

section
variable {ρ α : Type} {E : ρ → Prop}

theorem raises_attempt {ε : Type} {f : ε → ρ} {x : Except ε α} (h : ∀ e, E (f e)) :
    Raises (S := calls) E (attempt f x : Task ρ α) := by
  cases x with
  | ok a => exact raises_pure
  | error e => exact raises_throw (h e)

theorem raises_query {f : StoreError → ρ} {read : Store → Except StoreError α} (h : ∀ e, E (f e)) :
    Raises (S := calls) E (query f read : Task ρ α) :=
  raises_bind raises_call fun _ => raises_bind (raises_attempt h) fun _ => raises_attempt h

theorem raises_write {f : StoreError → ρ} {x : Write} (h : ∀ e, E (f e)) :
    Raises (S := calls) E (write f x : Task ρ Unit) := raises_bind raises_call fun _ => raises_attempt h

theorem raises_ite {c : Prop} [Decidable c] {t u : Task ρ α} (ht : Raises (S := calls) E t)
    (hu : Raises (S := calls) E u) : Raises (S := calls) E (if c then t else u) := by
  by_cases hc : c
  · rwa [if_pos hc]
  · rwa [if_neg hc]

end

/-- The failures that are not Circle's answer to prepare. -/
def SubmitError.late : SubmitError → Bool
  | .prepare _ | .verification _ => false
  | .invalidRequest _ | .store _ | .encoding | .signing => true

abbrev FailsLate {α : Type} (t : Task SubmitError α) : Prop := Raises (S := calls) (fun e => SubmitError.late e = true) t

theorem keepReply_late {saved : SavedSubmission} {result : Except CircleError RawResponse} :
    FailsLate (keepReply C saved result) := by
  unfold keepReply
  split
  · exact raises_pure
  · exact raises_bind raises_call fun _ => raises_pure
  · exact raises_bind raises_call fun _ => raises_pure
  · exact raises_pure

theorem sendSavedRequest_late {saved : SavedSubmission} : FailsLate (sendSavedRequest C saved) := by
  unfold sendSavedRequest
  split
  · split
    · exact keepReply_late
    · exact raises_bind raises_call fun _ => keepReply_late
  · exact raises_bind raises_call fun _ => keepReply_late

theorem finishSubmission_late {saved : SavedSubmission} {response : Except FailureClass RawResponse} :
    FailsLate (finishSubmission C saved response) := by
  cases response with
  | ok reply => exact raises_write fun _ => rfl
  | error e => exact raises_write fun _ => rfl

theorem waitForWithdrawalLimit_late {n : NoteId} {status : StatusCode} {body : Bytes}
    {sub : Option (SavedSubmission × SubmissionAttempt)} :
    FailsLate (waitForWithdrawalLimit C config n status body sub) := by
  unfold waitForWithdrawalLimit
  split
  · exact raises_pure
  · exact raises_bind raises_call fun _ => raises_bind (raises_attempt fun _ => rfl) fun _ =>
      raises_bind (raises_write fun _ => rfl) fun _ => raises_pure

theorem settleConflict_late {saved : SavedSubmission} : FailsLate (settleConflict C saved) := by
  unfold settleConflict
  split
  · exact raises_write fun _ => rfl
  · exact raises_bind (raises_write fun _ => rfl) fun _ =>
      raises_bind sendSavedRequest_late fun _ => finishSubmission_late

theorem settleReply_late {attempt : SubmissionAttempt} {saved : SavedSubmission}
    {response : Except FailureClass RawResponse} : FailsLate (settleReply C config attempt saved response) := by
  unfold settleReply
  split
  · refine raises_bind waitForWithdrawalLimit_late fun waits => raises_ite raises_pure ?_
    exact raises_ite settleConflict_late finishSubmission_late
  · exact finishSubmission_late

theorem advanceSubmission_late {saved : SavedSubmission} {attempt : SubmissionAttempt} :
    FailsLate (advanceSubmission C config saved attempt) :=
  raises_bind raises_call fun _ => raises_ite raises_pure
    (raises_bind sendSavedRequest_late fun _ => settleReply_late)

theorem signDigest_late {n : NoteId} {digest : B256} : FailsLate (signDigest n digest) :=
  raises_bind raises_call fun _ => raises_attempt fun _ => rfl

theorem submitSignedWithdrawal_late {verified : VerifiedWithdrawal} {signatures : Signature × Signature} :
    FailsLate (submitSignedWithdrawal C config verified signatures) :=
  raises_bind (raises_attempt fun _ => rfl) fun _ => raises_bind (raises_attempt fun _ => rfl) fun _ =>
    raises_bind (raises_query fun _ => rfl) fun _ => raises_bind (raises_write fun _ => rfl) fun _ =>
      advanceSubmission_late

/-- The rest of `withdraw` once the reply verifies (`attester.rs:682-684`). -/
def signAndSubmit (C : Crates) (config : Config) (verified : VerifiedWithdrawal) : Task SubmitError Unit := do
  let first ← signDigest verified.noteId verified.digest
  let second ← signDigest verified.noteId verified.digest
  submitSignedWithdrawal C config verified (first, second)

theorem signAndSubmit_late {verified : VerifiedWithdrawal} : FailsLate (signAndSubmit C config verified) :=
  raises_bind signDigest_late fun _ => raises_bind signDigest_late fun _ => submitSignedWithdrawal_late

theorem signAndSubmit_submits {verified : VerifiedWithdrawal} :
    Calls (S := calls) (fun o => Call.submits o = true) (signAndSubmit C config verified) := by
  have hsign : Calls (S := calls) (fun o => Call.submits o = true) (signDigest verified.noteId verified.digest) :=
    calls_bind (calls_one rfl) fun _ => calls_attempt
  refine calls_bind hsign fun _ => calls_bind hsign fun _ => ?_
  exact calls_bind calls_attempt fun _ => calls_bind calls_attempt fun _ => calls_bind (calls_query rfl) fun _ =>
    calls_bind (calls_write rfl) fun _ => advanceSubmission_settles.mono fun _ => submits_of_settles

/-! ## One attempt -/

/-- How `withdraw` fails: after the reply was accepted, or with the answer to prepare. -/
inductive Failed (C : Crates) (config : Config) (burn : DiscoveredBurn) (w w' : World) : SubmitError → Prop where
  | late {e : SubmitError} (he : e.late = true) (h : Attempted C config burn w w') : Failed C config burn w w' e
  | unsent {e : SubmitError} (he : e = .verification .unsupportedDestination ∨ e = .prepare .invalidUrl)
    (h : w'.store = w.store) : Failed C config burn w w' e
  | prepare {e : CircleError} (hstore : w'.store = w.store) (h : Answered burn w w' (.error e)) :
    Failed C config burn w w' (.prepare e)
  | verification {e : VerifyError} {reply : UnverifiedPrepareResponse} (hstore : w'.store = w.store)
    (h : Answered burn w w' (.ok reply)) (herror : verify C reply burn config = .error e) :
    Failed C config burn w w' (.verification e)

def Withdrew (C : Crates) (config : Config) (burn : DiscoveredBurn) (w : World) : Except SubmitError Unit → World → Prop
  | .ok _, w' => Attempted C config burn w w'
  | .error e, w' => Failed C config burn w w' e

/-- The reply of prepare, before it is verified. -/
def Received (C : Crates) (config : Config) (burn : DiscoveredBurn) (w : World) :
    Except SubmitError UnverifiedPrepareResponse → World → Prop
  | .ok reply, w' => w'.store = w.store ∧ Answered burn w w' (.ok reply)
  | .error e, w' => Failed C config burn w w' e

theorem answered_record {fee : UInt64} {reply : Except CircleError UnverifiedPrepareResponse}
    (hgrew : ∃ newer, w'.log = newer ++ w.log) (hnone : ∀ fee other, ¬ Said w w' (.prepare burn fee other)) :
    Answered burn w (w'.record (.prepare burn fee reply)) reply := by
  have hsaid : ∀ a, Said w (w'.record (.prepare burn fee reply)) a ↔ Act.prepare burn fee reply = a ∨ Said w w' a :=
    said_cons (x := ⟨.prepare burn fee reply, w'.store⟩) hgrew rfl
  refine ⟨?_, ⟨fee, (hsaid _).2 (.inl rfl)⟩, fun fee' other hother => ?_⟩
  · obtain ⟨newer, hnewer⟩ := hgrew
    exact ⟨_ :: newer, by rw [World.record, hnewer, List.cons_append]⟩
  · rcases (hsaid _).1 hother with hnow | hbefore
    · cases hnow
      rfl
    · exact absurd hbefore (hnone fee' other)

theorem meets_prepareWithdrawal {fee : UInt64} (hstore : w'.store = w.store) (hgrew : ∃ newer, w'.log = newer ++ w.log)
    (hnone : ∀ fee other, ¬ Said w w' (.prepare burn fee other)) :
    Meets (handler C) (Attempted C config burn w) (prepareWithdrawal config burn fee) (Received C config burn w) w' := by
  have hI : Attempted C config burn w w' := .same hstore
  refine Meets.seq (R := fun r w1 => w1 = w' ∧ ∀ e, r = .error e → e = .prepare .invalidUrl)
    (meets_attempt (fun a _ => ⟨rfl, fun _ he => by cases he⟩) fun e he => ⟨rfl, fun _ he' => ?_⟩) ?_ ?_
  · cases he'
    rw [refuses_orThrow (E := fun e => e = CircleError.invalidUrl) rfl e he]
  · rintro _ w1 ⟨rfl, -⟩
    refine meets_call_bind hI fun e => ?_
    obtain ⟨reply, hstep⟩ : ∃ reply, (handler C).step (.prepare burn fee) e w1 =
        (reply, w1.record (.prepare burn fee reply)) := ⟨readReply e.http >>= readPrepared C, rfl⟩
    have hanswered : Answered burn w (w1.record (.prepare burn fee reply)) reply := answered_record hgrew hnone
    rw [hstep]
    cases reply with
    | ok prepared => exact ⟨hstore, hanswered⟩
    | error e =>
      dsimp only
      split
      · exact meets_call_bind (.same hstore) fun _ =>
          meets_throw (.prepare hstore ⟨hanswered.grew, hanswered.said, hanswered.only⟩)
      · exact meets_throw (.prepare hstore hanswered)
  · rintro e w1 ⟨rfl, he⟩
    exact .unsent (.inr (he e rfl)) hstore

theorem meets_signAndSubmit {reply : UnverifiedPrepareResponse} {v : VerifiedWithdrawal} (hstore : w'.store = w.store)
    (h : Answered burn w w' (.ok reply)) (hverify : verify C reply burn config = .ok v) :
    Meets (handler C) (Attempted C config burn w) (signAndSubmit C config v) (Withdrew C config burn w) w' := by
  have hkept : ∀ w1, Submitting burn w (.ok reply) w1 → Attempted C config burn w w1 := by
    intro w1 h1
    refine .kept h1.answered h1.held fun hspares => ?_
    obtain ⟨e, herror, -⟩ := hspares
    rw [hverify] at herror
    cases herror
  have hmeets : Meets (handler C) (Submitting burn w (.ok reply)) (signAndSubmit C config v)
      (fun _ => Submitting burn w (.ok reply)) w' :=
    signAndSubmit_submits.meets (fun o e w1 ho h1 => h1.step o e w1 ho) ⟨h, fun m => by rw [hstore]⟩
  refine ((hmeets.weaken hkept).raises signAndSubmit_late).mono fun r w1 hdone => ?_
  obtain ⟨h1, hlate⟩ := hdone
  cases r with
  | ok u => exact hkept w1 h1
  | error e => exact .late (hlate e rfl) (hkept w1 h1)

theorem meets_withdraw (hstore : w'.store = w.store) (hgrew : ∃ newer, w'.log = newer ++ w.log)
    (hnone : ∀ fee other, ¬ Said w w' (.prepare burn fee other)) :
    Meets (handler C) (Attempted C config burn w) (withdraw C config burn) (Withdrew C config burn w) w' := by
  refine Meets.seq (R := fun r w1 => w1 = w' ∧ ∀ e, r = .error e → e = .verification .unsupportedDestination)
    (meets_attempt (fun a _ => ⟨rfl, fun _ he => by cases he⟩) fun e he => ⟨rfl, fun _ he' => ?_⟩) ?_ ?_
  · cases he'
    rw [refuses_orThrow (E := fun e => e = VerifyError.unsupportedDestination) rfl e he]
  · rintro fee w1 ⟨rfl, -⟩
    refine (meets_prepareWithdrawal hstore hgrew hnone).seq (fun reply w2 h2 => ?_) fun e w2 h2 => h2
    refine Meets.seq (R := fun r w3 => w3 = w2 ∧ (∀ v, r = .ok v → verify C reply burn config = .ok v) ∧
        ∀ e, r = .error e → ∃ cause, e = .verification cause ∧ verify C reply burn config = .error cause)
      (meets_attempt (fun v hv => ⟨rfl, fun _ h => (by cases h; exact hv), fun _ h => (by cases h)⟩)
        fun cause hcause => ⟨rfl, fun _ h => (by cases h), fun _ h => ⟨cause, (by cases h; rfl), hcause⟩⟩) ?_ ?_
    · rintro v w3 ⟨rfl, hv, -⟩
      exact meets_signAndSubmit h2.1 h2.2 (hv v rfl)
    · rintro e w3 ⟨rfl, -, herror⟩
      obtain ⟨cause, rfl, hcause⟩ := herror e rfl
      exact .verification h2.1 h2.2 hcause
  · rintro e w1 ⟨rfl, he⟩
    exact .unsent (.inl (he e rfl)) hstore

/-- The hold that is written. -/
theorem Attempted.hold {s' : Store} {reason : BurnHoldReason} {response : Option (Nat × Bytes)}
    {reply : Except CircleError UnverifiedPrepareResponse} (hstore : w'.store = w.store)
    (hs' : w'.store.holdBurn burn.noteId reason response = .ok s') (h : Answered burn w w' reply)
    (hlog : w''.log = ⟨.commit (.hold burn.noteId reason response), s'⟩ :: w'.log) (hw'' : w''.store = s')
    (hreason : Warrants C config burn (Said w w') reason) (hreply : ¬ Spares C config burn reply) :
    Attempted C config burn w w'' := by
  have hsaid : ∀ a, Said w w' a → Said w w'' a := fun a ha => (said_cons h.grew hlog a).2 (.inr ha)
  have hwarrants : Warrants C config burn (Said w w'') reason := by
    cases reason with
    | tooSmallToForward =>
      obtain ⟨fee, prepared, hp, hverify⟩ := hreason
      exact ⟨fee, prepared, hsaid _ hp, hverify⟩
    | prepareRejected =>
      obtain ⟨fee, body, hp, hlimit⟩ := hreason
      exact ⟨fee, body, hsaid _ hp, hlimit⟩
  have hanswered : Answered burn w w'' reply := h.cons hlog fun _ _ _ ha => by cases ha
  refine ⟨fun m r hr => ?_, fun fee other hp hspares => ?_⟩
  · obtain ⟨b, hb, rfl⟩ := holdBurn_ok hs'
    rw [hw'', heldFor, addEvent_burn, putBurn_burn] at hr
    split at hr
    · rename_i hid
      have hburn : b.noteId = burn.noteId := burn_noteId hb
      cases hr
      exact .inr ⟨(show b.noteId = m from hid).symm.trans hburn, hwarrants⟩
    · rw [hstore] at hr
      exact .inl hr
  · rw [hanswered.only fee other hp] at hspares
    exact absurd hspares hreply

theorem meets_hold {reason : BurnHoldReason} {response : Option (Nat × Bytes)} {e : SubmitError}
    {reply : Except CircleError UnverifiedPrepareResponse} (hhold : burnHold e = some (reason, response))
    (hstore : w'.store = w.store) (h : Answered burn w w' reply) (hreason : Warrants C config burn (Said w w') reason)
    (hreply : ¬ Spares C config burn reply) :
    Meets (handler C) (Attempted C config burn w) (holdAndThrow burn.noteId e)
      (fun _ => Attempted C config burn w) w' := by
  have hthrow : holdAndThrow burn.noteId e =
      write SubmitError.store (.hold burn.noteId reason response) >>= fun _ => throw e := by
    simp only [holdAndThrow, hhold]
  rw [hthrow]
  refine Meets.seq (R := fun _ => Attempted C config burn w) ?_ (fun _ _ h1 => meets_throw h1) fun _ _ h1 => h1
  refine meets_call_bind (.same hstore) fun env => ?_
  have hnext : Attempted C config burn w
      ((handler C).step (.write (.hold burn.noteId reason response)) env w').2 := by
    show Attempted C config burn w (w'.transact C (.hold burn.noteId reason response) env.storeFails).2
    unfold World.transact
    split
    · exact .same hstore
    · split
      · rename_i s' hs'
        exact .hold hstore hs' h rfl rfl hreason hreply
      · exact .same hstore
  exact meets_attempt (fun _ _ => hnext) fun _ _ => hnext

theorem meets_pass {e : SubmitError} (hhold : burnHold e = none) (h : Attempted C config burn w w') :
    Meets (handler C) (Attempted C config burn w) (holdAndThrow burn.noteId e)
      (fun _ => Attempted C config burn w) w' := by
  have hthrow : holdAndThrow burn.noteId e = throw e := by simp only [holdAndThrow, hhold]
  rw [hthrow]
  exact meets_throw h

theorem burnHold_late {e : SubmitError} (h : e.late = true) : burnHold e = none := by
  cases e with
  | prepare | verification => cases h
  | invalidRequest | store | encoding | signing => rfl

/-- What follows a refusal of prepare. -/
theorem meets_rejected {status : StatusCode} {body : Bytes} (hstore : w'.store = w.store)
    (h : Answered burn w w' (.error (.unexpectedPrepareStatus status body)))
    (hlimit : ∀ policy, config.withdrawalLimit = some policy → isWithdrawalLimit C status body policy.messagePrefix = false) :
    Meets (handler C) (Attempted C config burn w)
      (holdAndThrow burn.noteId (.prepare (.unexpectedPrepareStatus status body)))
      (fun _ => Attempted C config burn w) w' := by
  by_cases hstatus : status = .badRequest
  · subst hstatus
    obtain ⟨fee, hsaid⟩ := h.said
    have hhold : burnHold (.prepare (.unexpectedPrepareStatus .badRequest body)) =
        some (.prepareRejected, some (StatusCode.badRequest.code, body)) := rfl
    exact meets_hold hhold hstore h ⟨fee, body, hsaid, hlimit⟩ fun hspares => hspares body rfl
  · exact meets_pass (if_neg hstatus) (.same hstore)

theorem meets_unverified {e : VerifyError} {reply : UnverifiedPrepareResponse} (hstore : w'.store = w.store)
    (h : Answered burn w w' (.ok reply)) (herror : verify C reply burn config = .error e) :
    Meets (handler C) (Attempted C config burn w) (holdAndThrow burn.noteId (.verification e))
      (fun _ => Attempted C config burn w) w' := by
  by_cases he : e = .tooSmallToForward
  · subst he
    obtain ⟨fee, hsaid⟩ := h.said
    refine meets_hold rfl hstore h ⟨fee, reply, hsaid, herror⟩ fun hspares => ?_
    obtain ⟨e, hverify, hne⟩ := hspares
    rw [herror] at hverify
    exact hne (Except.error.inj hverify).symm
  · refine meets_pass ?_ (.same hstore)
    unfold burnHold
    split
    · rename_i hprepare
      cases hprepare
    · rename_i hsmall
      exact absurd (SubmitError.verification.inj hsmall) he
    · rfl

/-- A limit rejection makes the burn wait, and holds nothing. -/
theorem meets_waitForWithdrawalLimit {status : StatusCode} {body : Bytes} (hstore : w'.store = w.store)
    (h : Answered burn w w' (.error (.unexpectedPrepareStatus status body))) :
    Meets (handler C) (Attempted C config burn w) (waitForWithdrawalLimit C config burn.noteId status body none)
      (fun r w1 => Attempted C config burn w w1 ∧ (r = .ok false → w1 = w' ∧
        ∀ policy, config.withdrawalLimit = some policy → isWithdrawalLimit C status body policy.messagePrefix = false)) w' := by
  unfold waitForWithdrawalLimit
  split
  · rename_i hnone
    refine meets_pure ⟨.same hstore, fun _ => ⟨rfl, fun policy hpolicy => ?_⟩⟩
    rw [hpolicy, Option.filter_eq_none_iff] at hnone
    exact Bool.eq_false_iff.2 (hnone policy rfl)
  · rename_i policy hpolicy
    have hstatus : status = .badRequest := by
      have hlimit := (Option.filter_eq_some_iff.1 hpolicy).2
      unfold isWithdrawalLimit at hlimit
      exact of_decide_eq_true (Bool.and_eq_true_iff.1 hlimit).1
    have hkept : ∀ w1, Submitting burn w (.error (.unexpectedPrepareStatus status body)) w1 →
        Attempted C config burn w w1 := by
      intro w1 h1
      refine .kept h1.answered h1.held fun hspares => hspares body ?_
      rw [hstatus]
    have hdone : ∀ {r : Except SubmitError Bool} w1,
        Submitting burn w (.error (.unexpectedPrepareStatus status body)) w1 → r ≠ .ok false →
        Attempted C config burn w w1 ∧ (r = .ok false → w1 = w' ∧ ∀ policy, config.withdrawalLimit = some policy →
          isWithdrawalLimit C status body policy.messagePrefix = false) :=
      fun w1 h1 hr => ⟨hkept w1 h1, fun hfalse => absurd hfalse hr⟩
    have hstart : Submitting burn w (.error (.unexpectedPrepareStatus status body)) w' := ⟨h, fun m => by rw [hstore]⟩
    refine meets_call_bind (hkept w' hstart) fun env => ?_
    have h1 := hstart.step (C := C) .now env w' rfl
    refine Meets.seq (R := fun _ => Submitting burn w (.error (.unexpectedPrepareStatus status body)))
      (meets_attempt (fun _ _ => h1) fun _ _ => h1) (fun retryAt w2 h2 => ?_) fun _ w2 h2 => hdone w2 h2 (by simp)
    refine Meets.seq (R := fun _ => Submitting burn w (.error (.unexpectedPrepareStatus status body))) ?_
      (fun _ w3 h3 => meets_pure (hdone w3 h3 (by simp))) fun _ w3 h3 => hdone w3 h3 (by simp)
    have hwrite : Calls (S := calls) (fun o => Call.submits o = true)
        (write SubmitError.store (.limit burn.noteId retryAt body none)) := calls_write rfl
    exact (hwrite.meets (fun o e w1 ho h1 => h1.step o e w1 ho) h2).weaken hkept

/-- Any other failure is passed on, and the burn is tried again. -/
theorem settleFailure_pass {n : NoteId} {e : SubmitError} (hhold : burnHold e = none)
    (hnot : ∀ status body, e ≠ .prepare (.unexpectedPrepareStatus status body)) :
    settleFailure C config n e = throw e := by
  unfold settleFailure
  split
  · rfl
  · exact absurd rfl (hnot _ _)
  · simp only [holdAndThrow, hhold]

theorem meets_settleFailure {e : SubmitError} (h : Failed C config burn w w' e) :
    Meets (handler C) (Attempted C config burn w) (settleFailure C config burn.noteId e)
      (fun _ => Attempted C config burn w) w' := by
  cases h with
  | late he h =>
    rw [settleFailure_pass (burnHold_late he) fun status body hprepare => by rw [hprepare] at he; cases he]
    exact meets_throw h
  | unsent he hstore =>
    rcases he with rfl | rfl
    · rw [settleFailure_pass rfl (by simp)]
      exact meets_throw (.same hstore)
    · rw [settleFailure_pass rfl (by simp)]
      exact meets_throw (.same hstore)
  | @prepare cause hstore h =>
    cases cause with
    | unexpectedPrepareStatus status body =>
      refine (meets_waitForWithdrawalLimit hstore h).seq (fun waits w1 h1 => ?_) fun _ _ h1 => h1.1
      cases waits with
      | true => exact meets_pure h1.1
      | false =>
        obtain ⟨rfl, hlimit⟩ := h1.2 rfl
        exact meets_rejected hstore h hlimit
    | unavailable | transport | unexpectedStatus | invalidResponse | bodyTooLarge | invalidUrl | rateLimited =>
      rw [settleFailure_pass rfl (by simp)]
      exact meets_throw (.same hstore)
  | verification hstore h herror => exact meets_unverified hstore h herror

theorem meets_attemptWithdrawal (w : World) :
    Meets (handler C) (Attempted C config burn w) (attemptWithdrawal C config burn)
      (fun _ => Attempted C config burn w) w := by
  refine meets_call_bind (.same rfl) fun env => ?_
  have hgrew : ∃ newer, ((handler C).step (.mark (.withdraw burn.noteId)) env w).2.log = newer ++ w.log := ⟨[_], rfl⟩
  have hnone : ∀ fee other, ¬ Said w ((handler C).step (.mark (.withdraw burn.noteId)) env w).2 (.prepare burn fee other) := by
    rintro fee other ⟨newer, hnewer, x, hx, hact⟩
    have hone : newer = [⟨.withdraw burn.noteId, w.store⟩] := List.append_cancel_right hnewer.symm
    rw [hone, List.mem_singleton] at hx
    rw [hx] at hact
    cases hact
  exact meets_tryCatch (meets_withdraw rfl hgrew hnone) (fun _ _ h => h) fun _ _ h => meets_settleFailure h

/-! ## Holds that are right -/

structure HoldsRight (C : Crates) (config : Config) (burn : DiscoveredBurn) : Prop where
  /-- The refusal passes every other check, and the fee of the second leg is at least the burn. -/
  checked : ∀ reply, verify C reply burn config = .error .tooSmallToForward →
    ∃ batch raw intent hook fee secondary, Checks C reply burn config batch raw intent hook fee secondary ∧
      (hook.forwarded = true ∨ FIRST_REMOTE_DOMAIN ≤ burn.items.destDomain) ∧ u256 burn.amount ≤ secondary
  /-- Then what verifies is paid out directly: never with a second leg, and never to a remote domain. -/
  final : ∀ reply other v, verify C reply burn config = .error .tooSmallToForward → verify C other burn config = .ok v →
    burn.items.destDomain < FIRST_REMOTE_DOMAIN ∧ ∃ batch raw intent hook, soleIntent other = some (batch, raw) ∧
      parseIntent C raw = .ok (intent, hook) ∧ hook.forwarded = false
  /-- An attempt holds a burn for that refusal or for a rejected prepare, and a reply that fails another check leaves
  the store. -/
  attempted : ∀ env w, Attempted C config burn w (Prog.run (handler C) (attemptWithdrawal C config burn).run env w).2.2

/-- **A burn is held as too small only where it is**, and no reply of Circle's makes it so. -/
theorem too_small_holds_right (C : Crates) (config : Config) (burn : DiscoveredBurn) : HoldsRight C config burn where
  checked _ h := tooSmall_checks h
  final _ _ _ h hother := tooSmall_final h hother
  attempted env w := by
    have hmeets : Meets (handler C) (Attempted C config burn w) (attemptWithdrawal C config burn)
      (fun _ => Attempted C config burn w) w := meets_attemptWithdrawal w
    exact hmeets.always (fun _ h => h) (fun _ _ h => h) env

end LightAttester
