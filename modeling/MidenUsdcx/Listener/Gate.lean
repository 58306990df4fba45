import MidenUsdcx.Listener.Attribution
import MidenUsdcx.Listener.Run
/-!
# What has to be true before a withdrawal is posted (`listener/mod.rs:456-567`)

`run_once` hands a value from stage to stage, and a stage that refuses leaves the next without its input. Each stage
has its own reading (`validateDiscovery_ok`, `validateReturned_ok`, `assembleQuorum_ok`, `assembleEvidence_ok`,
`authorizeSubmission_ok`); `clear_ok` puts them together for the stages between the two requests. `withdraw_gated`
then says what is true of every withdrawal that is posted in any run, whatever Circle, the signer and the reads answer
and wherever the run is cut off.
-/
namespace WithdrawalListener
open Checked Interact

/-! ## The stages -/

section
variable {C : Crates} {digest : Bytes32}

theorem sole_descent {a b : SignerClaim} (h : firstDescent 1 [a, b] = none) : a.1 < b.1 := by
  unfold firstDescent at h
  split at h
  · cases h
  · rename_i hle
    exact Address.lt_of_not_le hle

/-- Two signatures, each by the signer it is said to be by, in ascending order of the signers. -/
theorem assembleQuorum_ok {sigs : List SignerClaim} {bundle : QuorumBundle}
    (h : assembleQuorum C digest sigs = .ok bundle) :
    ∃ first second : SignerClaim, bundle.signatures = [first.2, second.2] ∧ first.1 < second.1 ∧
      recoverAddress C digest first.2 = some first.1 ∧ recoverAddress C digest second.2 = some second.1 := by
  have hverify : ∀ (index : Nat) (claim : SignerClaim),
      ensure (recoverAddress C digest claim.2 = some claim.1) (QuorumError.signatureDoesNotVerify index) = .ok () ↔
        recoverAddress C digest claim.2 = some claim.1 := fun _ _ => ensure_ok
  rw [assembleQuorum, ensure_bind_ok, ensure_bind_ok] at h
  simp only [bind_ok, forM_zipIdx_ok hverify, refuse_ok, Option.map_eq_none_iff, pure_ok] at h
  obtain ⟨hlow, hhigh, -, hsigned, -, -, -, hascending, rfl⟩ := h
  obtain ⟨first, second, rfl⟩ := List.length_eq_two.1 (Nat.le_antisymm hhigh hlow)
  exact ⟨first, second, rfl, sole_descent hascending, hsigned first (by simp), hsigned second (by simp)⟩

/-- The text is a signature over the digest that recovers to this registered attester. -/
structure SignedBy (C : Crates) (cfg : ListenerConfig) (digest : Bytes32) (text : HexBytes) (attester : Address) :
    Prop where
  recovers : ∃ signature : Signature65, Hex.decode (without0x text.asStr) = some signature.bytes.toList ∧
    recoverAddress C digest signature = some attester
  registered : attester ∈ cfg.attesterAllowlist

theorem fromBytes_ok {bytes : List UInt8} {signature : Signature65} :
    Signature65.fromBytes bytes = .ok signature ↔ bytes = signature.bytes.toList := by
  rw [Signature65.fromBytes, orThrow_ok, Option.map_eq_some_iff]
  simp only [Hex.fixed?_eq_some]
  constructor
  · rintro ⟨v, hv, rfl⟩
    exact hv
  · intro h
    exact ⟨signature.bytes, h, rfl⟩

theorem checkSigner_ok {cfg : ListenerConfig} {batch index : Nat} {text : HexBytes} :
    checkSigner C cfg.attesterAllowlist digest batch index text = .ok () ↔ ∃ attester, SignedBy C cfg digest text attester := by
  simp only [checkSigner, decodeSignatureHex, bind_ok, mapError_ok, fromBytes_ok, orThrow_ok, ensure_ok]
  constructor
  · rintro ⟨bytes, hbytes, signature, rfl, attester, hrecovers, hregistered⟩
    exact ⟨attester, ⟨signature, hbytes, hrecovers⟩, hregistered⟩
  · rintro ⟨attester, ⟨signature, hbytes, hrecovers⟩, hregistered⟩
    exact ⟨_, hbytes, signature, rfl, attester, hrecovers, hregistered⟩

theorem authorizeSubmission_iff {cfg : ListenerConfig} {request : WithdrawRequest} {validated : ValidatedWithdrawal}
    {authorized : AuthorizedWithdrawal} :
    authorizeSubmission C request validated cfg = .ok authorized ↔
      cfg.attesterAllowlist ≠ [] ∧ request.batches.length = validated.digests.length ∧
        (∀ entry ∈ request.batches.zip validated.digests, ∀ text ∈ entry.1.burnSignatures,
          ∃ attester, SignedBy C cfg entry.2 text attester) ∧ ⟨request⟩ = authorized := by
  have hbatch : ∀ (batch : Nat) (entry : WithdrawBatch × Bytes32),
      (entry.1.burnSignatures.zipIdx.forM fun signature =>
        checkSigner C cfg.attesterAllowlist entry.2 batch signature.2 signature.1) = .ok () ↔
        ∀ text ∈ entry.1.burnSignatures, ∃ attester, SignedBy C cfg entry.2 text attester :=
    fun _ _ => forM_zipIdx_ok fun _ _ => checkSigner_ok
  rw [authorizeSubmission, ensure_bind_ok, ensure_bind_ok]
  simp only [bind_ok, forM_zipIdx_ok hbatch, pure_ok, exists_const]

theorem authorizeSubmission_ok {cfg : ListenerConfig} {request : WithdrawRequest} {validated : ValidatedWithdrawal}
    {authorized : AuthorizedWithdrawal} (h : authorizeSubmission C request validated cfg = .ok authorized) :
    authorized.request = request ∧ ∀ entry ∈ request.batches.zip validated.digests, ∀ text ∈ entry.1.burnSignatures,
      ∃ attester, SignedBy C cfg entry.2 text attester := by
  obtain ⟨-, -, hsigned, rfl⟩ := authorizeSubmission_iff.1 h
  exact ⟨rfl, hsigned⟩

/-- A signature is read back from the text it is sent as. -/
theorem decode_toHexBytes (signature : Signature65) :
    Hex.decode (without0x signature.toHexBytes.asStr) = some signature.bytes.toList := by
  rw [without0x, show signature.toHexBytes.asStr = toHex signature.bytes.toList from rfl, strip0x_toHex,
    Option.getD_some, Hex.decode_encode]

/-- Who signed is decided by the text. -/
theorem SignedBy.of_toHexBytes {cfg : ListenerConfig} {signature : Signature65} {attester recovered : Address}
    (h : SignedBy C cfg digest signature.toHexBytes attester) (hrecovers : recoverAddress C digest signature = some recovered) :
    SignedBy C cfg digest signature.toHexBytes recovered := by
  obtain ⟨⟨read, hread, hattester⟩, hregistered⟩ := h
  rw [decode_toHexBytes, Option.some.injEq, Vector.toList_inj] at hread
  obtain rfl : signature = read := by
    cases signature
    cases read
    exact congrArg Signature65.mk hread
  obtain rfl : recovered = attester := Option.some.inj (hrecovers.symm.trans hattester)
  exact ⟨⟨signature, decode_toHexBytes signature, hrecovers⟩, hregistered⟩

end

/-! ## The gate -/

/-- What stands behind a posted withdrawal. -/
structure Gated (ctx : RunContext) (note : DiscoveredNote) (asked : PrepareWithdrawalRequest) (answer : Reply)
    (request : WithdrawRequest) (burn : DiscoveredBurn) (prepared : PreparedBatch) (intent : BurnIntent)
    (digest : Bytes32) (batch : WithdrawBatch) (package : EvidencePackage) : Prop where
  /-- The note has the configured tag, public details that decode and a real sender. -/
  discovered : BurnOf ctx.crates ctx.config note.record burn
  requested : buildPrepareRequest ctx.crates burn ctx.config = .ok asked
  /-- Circle prepared one batch with one intent. -/
  oneBatch : preparedOf ctx.circle answer = .ok ⟨[prepared]⟩
  oneIntent : prepared.burnIntents = [intent]
  /-- The intent pays out this burn. -/
  pays : IntentMatches ctx.crates ctx.config burn intent
  hashed : DigestOf prepared.messageHashToSign digest
  /-- One batch with that very intent is submitted. -/
  submitted : request.batches = [batch]
  sameIntent : batch.burnIntents = [intent]
  /-- Two attesters signed its digest, in ascending order. -/
  signed : ∃ first second signer₁ signer₂, batch.burnSignatures = [first, second] ∧ signer₁ < signer₂ ∧
    SignedBy ctx.crates ctx.config digest first signer₁ ∧ SignedBy ctx.crates ctx.config digest second signer₂
  /-- The batch names the transaction that burned this note. -/
  evidence : assembleEvidence ctx.crates ctx.evidence note.noteId ctx.config.faucetId = .ok package
  burned : Evidenced ctx.crates ctx.evidence note.noteId ctx.config.faucetId package
  burnTxId : batch.burnTxId = package.burnTxId

/-- A run that posts a withdrawal began with a prepare request, and its answer and the note stand behind the
withdrawal. -/
def WithdrawsGated (ctx : RunContext) (note : DiscoveredNote) (trace : List CallEvent) : Prop :=
  ∀ request reply, Exchange.withdraw request reply ∈ sent trace →
    ∃ asked answer later, sent trace = .prepare asked answer :: later ∧
      ∃ burn prepared intent digest batch package,
        Gated ctx note asked answer request burn prepared intent digest batch package

section
variable {ctx : RunContext} {note : DiscoveredNote}

theorem new_batch_ok {intents : List BurnIntent} {signatures : List HexBytes} {burnTxId : String} {forwarding : Bool}
    {batch : WithdrawBatch} (h : WithdrawBatch.new intents signatures burnTxId forwarding = .ok batch) :
    batch.burnIntents = intents ∧ batch.burnSignatures = signatures ∧ batch.burnTxId = burnTxId := by
  unfold WithdrawBatch.new at h
  split at h
  · split at h
    · cases h
      exact ⟨rfl, rfl, rfl⟩
    · cases h
  · cases h

theorem new_request_ok {batches : List WithdrawBatch} {request : WithdrawRequest}
    (h : WithdrawRequest.new batches = .ok request) : request.batches = batches := by
  unfold WithdrawRequest.new at h
  split at h
  · cases h
    rfl
  · cases h

/-- The stages between the two requests. -/
theorem clear_ok {burn : DiscoveredBurn} {asked : PrepareWithdrawalRequest} {answer : Reply}
    {response : PrepareWithdrawalResponse} {cleared : String × AuthorizedWithdrawal}
    (hburn : BurnOf ctx.crates ctx.config note.record burn)
    (hasked : buildPrepareRequest ctx.crates burn ctx.config = .ok asked)
    (hanswer : preparedOf ctx.circle answer = .ok response)
    (h : clear ctx note.noteId burn asked response = .ok cleared) :
    ∃ prepared intent digest batch package,
      Gated ctx note asked answer cleared.2.request burn prepared intent digest batch package := by
  simp only [clear, bind_ok, mapError_ok, sole_ok, pure_ok] at h
  obtain ⟨validated, hvalidated, digest, hdigest, prepared, hprepared, intent, hintent, -, -, claims, -, quorum, hquorum,
    package, hpackage, batch, hbatch, built, hbuilt, authorized, hauthorized, rfl⟩ := h
  obtain ⟨-, hmatch⟩ := validateReturned_ok.1 hvalidated
  rw [hprepared, hdigest] at hmatch
  obtain ⟨hmatch, -⟩ := List.forall₂_cons.1 hmatch
  obtain ⟨first, second, hsignatures, hascending, hfirst, hsecond⟩ := assembleQuorum_ok hquorum
  obtain ⟨hintents, htexts, htx⟩ := new_batch_ok hbatch
  have hbatches := new_request_ok hbuilt
  obtain ⟨hsame, hsigners⟩ := authorizeSubmission_ok hauthorized
  rw [hsignatures] at htexts
  have hsigner : ∀ text ∈ batch.burnSignatures, ∃ attester, SignedBy ctx.crates ctx.config digest text attester :=
    hsigners (batch, digest) (by simp [hbatches, hdigest])
  obtain ⟨_, hsigner₁⟩ := hsigner first.2.toHexBytes (by simp [htexts])
  obtain ⟨_, hsigner₂⟩ := hsigner second.2.toHexBytes (by simp [htexts])
  refine ⟨prepared, intent, digest, batch, package, ?_⟩
  exact {
    discovered := hburn
    requested := hasked
    oneBatch := by
      rw [hanswer, show response = ⟨[prepared]⟩ from congrArg PrepareWithdrawalResponse.mk hprepared]
    oneIntent := hintent
    pays := hmatch.intents intent (by simp [hintent])
    hashed := hmatch.digest
    submitted := by rw [hsame, hbatches]
    sameIntent := hintents
    signed := ⟨_, _, first.1, second.1, htexts, hascending, hsigner₁.of_toHexBytes hfirst, hsigner₂.of_toHexBytes hsecond⟩
    evidence := hpackage
    burned := assembleEvidence_ok hpackage
    burnTxId := htx }

/-! ## The run -/

/-- Nothing is prepared any more, and nothing but this request is posted. -/
def Call.Sends (request : WithdrawRequest) : Call → Prop
  | .postPrepare _ => False
  | .postWithdraw posted => posted = request
  | .claimBurns _ | .record _ _ _ | .getWithdrawal _ => True

theorem Call.Within.sends {request : WithdrawRequest} {o : Call} (h : o.Within request) : o.Sends request := by
  cases o with
  | postPrepare asked => exact h
  | postWithdraw posted => exact h
  | claimBurns keys => trivial
  | record target key id => trivial
  | getWithdrawal id => trivial

/-- After the submission: reading a status, and recording that this burn is done. -/
def Call.Settles (burnTxId : String) : Call → Prop
  | .record _ key _ => key = .new burnTxId
  | .getWithdrawal _ => True
  | .claimBurns _ | .postPrepare _ | .postWithdraw _ => False

theorem Call.Settles.sends {request : WithdrawRequest} {burnTxId : String} {o : Call} (h : o.Settles burnTxId) :
    o.Sends request := by
  cases o with
  | record target key id => trivial
  | getWithdrawal id => trivial
  | claimBurns keys => cases h
  | postPrepare asked => cases h
  | postWithdraw posted => cases h

theorem calls_settle {burnTxId : String} (outcome : SubmitOutcome) :
    Calls (Call.Settles burnTxId) (settle ctx burnTxId outcome) := by
  cases outcome with
  | submitted statuses =>
    refine calls_bind calls_attempt fun created => calls_bind (calls_adapt ?_) fun status => ?_
    · exact calls_pollStatusFrom trivial _
    · split
      · split
        · refine calls_bind (calls_adapt ?_) fun _ => calls_pure
          exact calls_bind (calls_call rfl) fun _ => calls_bind calls_attempt fun _ => calls_pure
        · exact calls_pure
      · exact calls_pure
  | conflictRecovered id status => exact calls_pure
  | reconciliationRequired burn => exact calls_pure
  | conflictEchoMismatch burns echoed => exact calls_pure
  | alreadySubmitted burn status => exact calls_pure

/-- After the prepare request only `request` is posted. -/
def PostsOnly (asked : PrepareWithdrawalRequest) (answer : Reply) (request : WithdrawRequest) (s : RunState) : Prop :=
  ∃ later, sent s.2 = .prepare asked answer :: later ∧
    ∀ posted reply, Exchange.withdraw posted reply ∈ later → posted = request

theorem PostsOnly.step {asked : PrepareWithdrawalRequest} {answer : Reply} {request : WithdrawRequest} {s : RunState}
    (h : PostsOnly asked answer request s) {o : Call} (ho : o.Sends request) (e : Moment) :
    PostsOnly asked answer request (handler.traced.step o e s).2 := by
  obtain ⟨later, hsent, hlater⟩ := h
  refine ⟨later ++ (exchange? ⟨o, (handler.step o e s.1).1, s.1⟩).toList, ?_, fun posted reply hmem => ?_⟩
  · show sent (_ :: s.2) = _
    rw [sent_cons, hsent, List.cons_append]
  · rcases List.mem_append.1 hmem with hmem | hmem
    · exact hlater posted reply hmem
    · cases o with
      | postPrepare asked => cases ho
      | postWithdraw posted' =>
        obtain rfl : posted' = request := ho
        cases List.mem_singleton.1 hmem
        rfl
      | claimBurns keys => cases hmem
      | record target key id => cases hmem
      | getWithdrawal id => cases List.mem_singleton.1 hmem

theorem PostsOnly.gated {asked : PrepareWithdrawalRequest} {answer : Reply} {request : WithdrawRequest} {s : RunState}
    (h : PostsOnly asked answer request s)
    (hgated : ∃ burn prepared intent digest batch package,
      Gated ctx note asked answer request burn prepared intent digest batch package) :
    WithdrawsGated ctx note s.2 := by
  obtain ⟨later, hsent, hlater⟩ := h
  intro posted reply hposted
  rw [hsent] at hposted
  rcases List.mem_cons.1 hposted with heq | hposted
  · cases heq
  · obtain rfl := hlater posted reply hposted
    exact ⟨asked, answer, later, hsent, hgated⟩

/-- `?` on a result, in the logic of the calls: what follows it has the value. -/
theorem meets_attempt_bind {ρ ε α β η σ : Type} {H : Handler calls η σ} {f : ε → ρ} {answer : Except ε α}
    {k : α → Task ρ β} {I : σ → Prop} {Q : Except ρ β → σ → Prop} {s : σ}
    (herr : ∀ e, answer = .error e → Q (.error (f e)) s) (hok : ∀ a, answer = .ok a → Meets H I (k a) Q s) :
    Meets H I (attempt f answer >>= k) Q s := by
  cases answer with
  | ok a => exact hok a rfl
  | error e => exact herr e rfl

/-- One call, and what its answer comes to. -/
theorem meets_prepare {asked : PrepareWithdrawalRequest} {I : RunState → Prop} {s : RunState} (hs : I s) :
    Meets handler.traced I ((prepare ctx.circle asked).adapt RunError.circle)
      (fun r s' => ∃ answer, s'.2 = ⟨.postPrepare asked, answer, s.1⟩ :: s.2 ∧
        ∀ response, r = .ok response → preparedOf ctx.circle answer = .ok response) s := by
  refine meets_adapt ((meets_call hs fun e => ?_).seq (R := fun r s' => ∃ answer : Reply, r = .ok answer ∧
    s'.2 = ⟨.postPrepare asked, answer, s.1⟩ :: s.2) ?_ ?_)
  · exact ⟨_, rfl, rfl⟩
  · rintro answer s' ⟨_, heq, htrace⟩
    cases heq
    cases hprepared : preparedOf ctx.circle answer with
    | error e => exact ⟨answer, htrace, fun _ h => by cases h⟩
    | ok response =>
      refine ⟨answer, htrace, fun response' h => ?_⟩
      cases h
      exact hprepared
  · rintro e s' ⟨_, heq, -⟩
    cases heq

/-- Everything after the gate keeps to the request it cleared. -/
theorem calls_submitted (ctx : RunContext) {cleared : String × AuthorizedWithdrawal} :
    Calls (Call.Sends cleared.2.request) ((submitWithdraw ctx.circle cleared.2.request).adapt RunError.submit >>=
      fun outcome => settle ctx cleared.1 outcome) :=
  calls_bind (calls_adapt (calls_submitWithdraw.mono fun _ h => h.sends)) fun outcome =>
    (calls_settle outcome).mono fun _ h => h.sends

end

/-- **The withdrawal listener's gate.** -/
theorem withdraw_gated (ctx : RunContext) (note : DiscoveredNote) (ledger : Ledger) (env : List Moment) :
    WithdrawsGated ctx note (Prog.trace handler (runOnce ctx note).run env ledger) := by
  let I : RunState → Prop := fun s => WithdrawsGated ctx note s.2
  have hstart : I (ledger, []) := fun _ _ hposted => by cases hposted
  have hasked : ∀ asked answer state, I (state, [⟨.postPrepare asked, answer, ledger⟩]) := by
    intro asked answer state posted reply hposted
    cases List.mem_singleton.1 hposted
  have hmeets : Meets handler.traced I (runOnce ctx note) (fun _ => I) (ledger, []) := by
    refine meets_attempt_bind (fun _ _ => hstart) fun burn hburn => ?_
    refine meets_attempt_bind (fun _ _ => hstart) fun asked hrequest => ?_
    refine (meets_prepare hstart).seq ?_ ?_
    · rintro response ⟨state, trace⟩ ⟨answer, htrace, hanswer⟩
      obtain rfl : trace = [⟨.postPrepare asked, answer, ledger⟩] := htrace
      refine meets_attempt_bind (fun _ _ => hasked asked answer state) fun cleared hcleared => ?_
      obtain hgated := clear_ok (validateDiscovery_ok.1 hburn) hrequest (hanswer response rfl) hcleared
      have hkeeps := (calls_submitted ctx).meets (H := handler.traced) (I := PostsOnly asked answer cleared.2.request)
        (s := (state, [⟨.postPrepare asked, answer, ledger⟩])) (fun o e s ho hs => hs.step ho e)
        ⟨[], rfl, fun _ _ h => by cases h⟩
      exact (hkeeps.weaken fun s hs => hs.gated ⟨burn, hgated⟩).mono fun _ s hs => hs.gated ⟨burn, hgated⟩
    · rintro e ⟨state, trace⟩ ⟨answer, htrace, -⟩
      obtain rfl : trace = [⟨.postPrepare asked, answer, ledger⟩] := htrace
      exact hasked asked answer state
  exact hmeets.always (fun _ h => h) (fun _ _ h => h) env

end WithdrawalListener
