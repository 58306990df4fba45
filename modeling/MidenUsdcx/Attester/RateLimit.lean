import MidenUsdcx.Attester.Binding
import MidenUsdcx.Attester.Divergence
import MidenUsdcx.Attester.Holds
import MidenUsdcx.Attester.TooSmall
/-!
# A 429 ends Circle traffic for the cycle (`attester.rs:372-402`, `572-592`, `656-690`, `submission.rs:155-279`)

The flag is set before anything is written, each loop looks at it before it does anything for an item, and an item
whose own request was answered 429 only writes that outcome down. Operators are served all the same: `admin_checkpoint`
comes before the check of the flag.

| here | there |
| --- | --- |
| `CallEvent.limited` | `CircleError::RateLimited`, of prepare, POST or GET |
| `Call.allowedAfter` | what is left of the cycle then |
-/
namespace LightAttester
open Checked Interact Keyed Store

/-- Circle's answer was a 429. -/
def isLimited {α : Type} : Except CircleError α → Bool
  | .ok _ => false
  | .error e => e.isRateLimited

/-- A request of the cycle, answered 429. -/
def CallEvent.limited : CallEvent → Bool
  | ⟨.prepare _ _, answer, _⟩ => isLimited (α := UnverifiedPrepareResponse) answer
  | ⟨.post _ _, answer, _⟩ => isLimited (α := RawResponse) answer
  | ⟨.get _ _, answer, _⟩ => isLimited (α := RawResponse) answer
  | _ => false

/-- The saved request that a POST or a GET is about. -/
def Call.savedNote : Call → Option NoteId
  | .post n _ | .get n _ => some n
  | _ => none

/-- What the rest of a cycle may call after `x` was answered 429: no request and no signature, and of the writes only the
outcome of `x` itself and what operators ask for. -/
def Call.allowedAfter (x : CallEvent) : Call → Bool
  | .prepare _ _ | .post _ _ | .get _ _ | .sign _ _ => false
  | .write (.outcome out) => x.op.savedNote == some out.noteId
  | .write (.release _) => true
  | .write _ => false
  | _ => true

/-- An operator's release of `m`. -/
def Call.releases (m : NoteId) : Call → Bool
  | .write (.release selection) => selection.noteId == m
  | _ => false

variable {C : Crates} {config : Config} {ρ α β : Type}

/-! ## The calls so far -/

/-- The calls, newest first, respect a 429 among them. -/
def Restrained : List CallEvent → Prop
  | [] => True
  | y :: earlier => (∀ x, earlier.find? CallEvent.limited = some x → y.op.allowedAfter x = true) ∧ Restrained earlier

/-- No 429 so far. -/
structure Unlimited (s : Watched) : Prop where
  restrained : Restrained s.2
  none : s.2.find? CallEvent.limited = none

/-- The 429 to `x` is known to the rest of the cycle. -/
structure LimitedBy (x : CallEvent) (s : Watched) : Prop where
  restrained : Restrained s.2
  first : s.2.find? CallEvent.limited = some x
  flag : s.1.rateLimited = true

/-- Between two items. -/
def Between (s : Watched) : Prop := Unlimited s ∨ ∃ x, LimitedBy x s

section
variable {s s' : Watched} {T : List CallEvent} {x y : CallEvent}

theorem Between.restrained (h : Between s) : Restrained s.2 := by
  rcases h with h | ⟨x, h⟩
  · exact h.restrained
  · exact h.restrained

theorem not_limited (h : y.op.isTraffic = false) : CallEvent.limited y = false := by
  obtain ⟨o, answer, w⟩ := y
  cases o <;> first | rfl | cases h

theorem Unlimited.cons (h : Unlimited s) (hT : s'.2 = y :: s.2) (hy : CallEvent.limited y = false) : Unlimited s' where
  restrained := by
    rw [hT]
    refine ⟨fun x hx => ?_, h.restrained⟩
    rw [h.none] at hx
    cases hx
  none := by
    rw [hT, List.find?_cons_of_neg (by rw [hy]; exact Bool.false_ne_true)]
    exact h.none

/-- The request that is answered 429, and the flag that follows it. -/
theorem Unlimited.limit (h : Unlimited s) (hT : s'.2 = y :: s.2) (hy : CallEvent.limited y = true) (e : Env) :
    Restrained s'.2 ∧ LimitedBy y ((handler C).traced.step (.setRateLimited true) e s').2 := by
  have hrestrained : Restrained s'.2 := by
    rw [hT]
    refine ⟨fun x hx => ?_, h.restrained⟩
    rw [h.none] at hx
    cases hx
  have hfirst : s'.2.find? CallEvent.limited = some y := by
    rw [hT]
    exact List.find?_cons_of_pos hy
  have hstays : (((handler C).traced.step (.setRateLimited true) e s').2.2).find? CallEvent.limited = some y :=
    (List.find?_cons_of_neg Bool.false_ne_true).trans hfirst
  exact ⟨hrestrained, ⟨fun _ _ => rfl, hrestrained⟩, hstays, rfl⟩

theorem LimitedBy.cons (h : LimitedBy x s) (hT : s'.2 = y :: s.2) (hflag : s'.1.rateLimited = s.1.rateLimited)
    (hallowed : y.op.allowedAfter x = true) (hy : CallEvent.limited y = false) : LimitedBy x s' where
  restrained := by
    rw [hT]
    refine ⟨fun x' hx' => ?_, h.restrained⟩
    obtain rfl : x = x' := Option.some.inj (h.first.symm.trans hx')
    exact hallowed
  first := by
    rw [hT, List.find?_cons_of_neg (by rw [hy]; exact Bool.false_ne_true)]
    exact h.first
  flag := hflag.trans h.flag

/-- The assertion at every call of a cycle. -/
abbrev Restrains (C : Crates) (t : Task ρ α) (Q : Except ρ α → Watched → Prop) (s : Watched) : Prop :=
  Meets (handler C).traced (fun s => Restrained s.2) t Q s

/-- Makes no request. -/
abbrev Local (t : Task ρ α) : Prop := Calls (S := calls) (fun o => Call.isTraffic o = false) t

theorem Local.meets {t : Task ρ α} (ht : Local t) (h : Unlimited s) : Restrains C t (fun _ => Unlimited) s := by
  have hkept := Calls.meets (H := (handler C).traced) (I := Unlimited) ht
    (fun _ _ _ ho hs => hs.cons rfl (not_limited ho)) h
  exact hkept.weaken fun _ hs => hs.restrained

/-! ## Operators -/

theorem transact_flag (x : Write) (fails : Bool) (w : World) : (w.transact C x fails).2.rateLimited = w.rateLimited := by
  unfold World.transact
  split
  · rfl
  · split
    · rfl
    · rfl

theorem step_admin_flag {o : Call} (ho : o.isAdmin = true) (e : Env) (w : World) :
    ((handler C).step o e w).2.rateLimited = w.rateLimited := by
  cases o <;> first | rfl | cases ho | skip
  case write x => exact transact_flag x e.storeFails w

theorem Call.allowedAfter_admin {o : Call} (ho : o.isAdmin = true) : o.allowedAfter x = true := by
  cases o <;> first | rfl | cases ho | skip
  case write y => cases y <;> first | rfl | cases ho

theorem Call.local_of_isAdmin {o : Call} (ho : o.isAdmin = true) : o.isTraffic = false := by
  cases o <;> first | rfl | cases ho

/-- Commands are carried out between any two items, 429 or not. -/
theorem Between.admin (h : Between s) : Restrains C (adminCheckpoint : Task ρ Unit) (fun _ => Between) s := by
  have hkept := Calls.meets (H := (handler C).traced) (I := Between) (adminCheckpoint_admin (ρ := ρ))
    (fun o e s ho hs => ?_) h
  · exact hkept.weaken fun _ hs => hs.restrained
  · rcases hs with hs | ⟨x, hs⟩
    · exact .inl (hs.cons rfl (not_limited (Call.local_of_isAdmin ho)))
    · exact .inr ⟨x, hs.cons rfl (step_admin_flag ho e s.1) (Call.allowedAfter_admin ho)
        (not_limited (Call.local_of_isAdmin ho))⟩

/-! ## One saved request -/

/-- What a request about `saved` leaves: nothing yet, or a 429 that is kept like any other answer. -/
def Heard (n : NoteId) (response : Except FailureClass RawResponse) (s : Watched) : Prop :=
  Unlimited s ∨ ∃ x, LimitedBy x s ∧ x.op.savedNote = some n ∧
    ∀ reply, response = .ok reply → reply.status = .tooManyRequests

/-- The outcome of the saved request whose answer it is. -/
theorem Heard.meets_outcome {n : NoteId} {response : Except FailureClass RawResponse} {out : SavedSubmission}
    (h : Heard n response s) (hn : out.noteId = n) :
    Restrains C (write SubmitError.store (.outcome out)) (fun _ => Between) s := by
  refine meets_call_bind ?_ fun e => ?_
  · rcases h with h | ⟨x, h, -, -⟩
    · exact h.restrained
    · exact h.restrained
  have hafter : Between ((handler C).traced.step (.write (.outcome out)) e s).2 := by
    rcases h with h | ⟨x, h, hx, -⟩
    · exact .inl (h.cons rfl rfl)
    · refine .inr ⟨x, h.cons rfl ?_ ?_ rfl⟩
      · show (s.1.transact C (.outcome out) e.storeFails).2.rateLimited = _
        exact transact_flag _ _ _
      · show (x.op.savedNote == some out.noteId) = true
        rw [hx, hn]
        exact beq_self_eq_true _
  exact meets_attempt (fun _ _ => hafter) fun _ _ => hafter

theorem Heard.meets_finish {n : NoteId} {response : Except FailureClass RawResponse} {current : SavedSubmission}
    (h : Heard n response s) (hn : current.noteId = n) :
    Restrains C (finishSubmission C current response) (fun _ => Between) s := by
  cases response with
  | ok reply => exact h.meets_outcome (((current.readResponse_spec C reply).1.noteId).trans hn)
  | error e => exact h.meets_outcome hn

/-- What a sent request leaves of the saved one. -/
def KeptReply (saved : SavedSubmission) (r : Except SubmitError (SavedSubmission × Except FailureClass RawResponse))
    (s : Watched) : Prop :=
  ∃ current response, r = .ok (current, response) ∧ current.noteId = saved.noteId ∧ Heard saved.noteId response s

/-- A 429 sets the flag before anything is written. -/
theorem restrains_keepReply {saved : SavedSubmission} {result : Except CircleError RawResponse} (h : Unlimited s)
    (hT : s'.2 = y :: s.2) (hy : CallEvent.limited y = isLimited result) (hnote : y.op.savedNote = some saved.noteId) :
    Restrains C (keepReply C saved result) (KeptReply saved) s' := by
  have hflagged : ∀ body, result = .error (.rateLimited body) → ∀ e,
      Restrained s'.2 ∧ LimitedBy y ((handler C).traced.step (.setRateLimited true) e s').2 := by
    intro body hresult e
    rw [hresult] at hy
    exact h.limit hT hy e
  cases result with
  | ok reply => exact ⟨_, _, rfl, rfl, .inl (h.cons hT hy)⟩
  | error cause =>
    cases cause with
    | rateLimited body =>
      cases body with
      | none =>
        refine meets_call_bind (hflagged none rfl {}).1 fun e => ?_
        exact ⟨_, _, rfl, rfl, .inr ⟨y, (hflagged none rfl e).2, hnote, fun reply hreply => by cases hreply⟩⟩
      | some body =>
        refine meets_call_bind (hflagged (some body) rfl {}).1 fun e => ?_
        exact ⟨_, _, rfl, rfl, .inr ⟨y, (hflagged (some body) rfl e).2, hnote, fun _ hreply => by cases hreply; rfl⟩⟩
    | unavailable | transport | unexpectedStatus | unexpectedPrepareStatus | invalidResponse | bodyTooLarge
    | invalidUrl => exact ⟨_, _, rfl, rfl, .inl (h.cons hT hy)⟩

theorem restrains_send {saved : SavedSubmission} (h : Unlimited s) :
    Restrains C (sendSavedRequest C saved) (KeptReply saved) s := by
  unfold sendSavedRequest
  split
  · split
    · rename_i e he
      rw [statusRequest_error he]
      exact ⟨_, _, rfl, rfl, .inl h⟩
    · exact meets_call_bind h.restrained fun e => restrains_keepReply h rfl rfl rfl
  · exact meets_call_bind h.restrained fun e => restrains_keepReply h rfl rfl rfl

theorem waitForWithdrawalLimit_local {n : NoteId} {status : StatusCode} {body : Bytes}
    {sub : Option (SavedSubmission × SubmissionAttempt)} :
    Local (waitForWithdrawalLimit C config n status body sub) :=
  calls_waitForWithdrawalLimit rfl fun _ => rfl

/-- A 429 is no limit rejection. -/
theorem waitForWithdrawalLimit_limited {n : NoteId} {status : StatusCode} {body : Bytes}
    {sub : Option (SavedSubmission × SubmissionAttempt)} (hstatus : status = .tooManyRequests) :
    waitForWithdrawalLimit C config n status body sub = pure false := by
  have hnone : config.withdrawalLimit.filter (fun policy => isWithdrawalLimit C status body policy.messagePrefix) =
      none := by
    rw [Option.filter_eq_none_iff]
    intro policy _
    rw [isWithdrawalLimit, hstatus]
    exact Bool.false_ne_true
  rw [waitForWithdrawalLimit, hnone]

theorem restrains_settleConflict {current : SavedSubmission} (h : Unlimited s) :
    Restrains C (settleConflict C current) (fun _ => Between) s := by
  have hwrite : ∀ out : SavedSubmission, Local (write SubmitError.store (.outcome out)) := fun out => calls_write rfl
  unfold settleConflict
  split
  · exact ((hwrite _).meets h).mono fun _ _ hs => .inl hs
  · refine Meets.seq ((hwrite _).meets h) (fun _ s1 h1 => ?_) fun _ _ hs => .inl hs
    refine Meets.seq (restrains_send h1) ?_ fun _ _ hs => by obtain ⟨_, _, hr, -⟩ := hs; cases hr
    rintro _ s2 ⟨final, response, hr, hn, hheard⟩
    cases hr
    exact hheard.meets_finish hn

theorem restrains_settleReply {n : NoteId} {current : SavedSubmission} {response : Except FailureClass RawResponse}
    {attempt : SubmissionAttempt} (h : Heard n response s) (hn : current.noteId = n) :
    Restrains C (settleReply C config attempt current response) (fun _ => Between) s := by
  unfold settleReply
  split
  · rename_i reply hid
    rcases h with h | ⟨x, hlimited, hx, hstatus⟩
    · refine Meets.seq (waitForWithdrawalLimit_local.meets h) (fun waits s1 h1 => ?_) fun _ _ hs => .inl hs
      split
      · exact meets_pure (.inl h1)
      · split
        · exact restrains_settleConflict h1
        · exact Heard.meets_finish (n := n) (.inl h1) hn
    · have hreply : reply.status = .tooManyRequests := hstatus reply rfl
      rw [settlePost, waitForWithdrawalLimit_limited hreply]
      refine Meets.seq (R := fun r s1 => r = .ok false ∧ s1 = s) (meets_pure ⟨rfl, rfl⟩) ?_
        fun _ _ hs => by cases hs.1
      rintro waits _ ⟨hr, rfl⟩
      cases hr
      rw [if_neg Bool.false_ne_true, if_neg (by rw [hreply]; exact fun hne => by cases hne)]
      exact Heard.meets_finish (n := n) (.inr ⟨x, hlimited, hx, hstatus⟩) hn
  · exact h.meets_finish hn

/-- An item ends with its answer written down, and with the flag set if that was a 429. -/
theorem restrains_advanceSubmission {saved : SavedSubmission} {attempt : SubmissionAttempt} (h : Unlimited s) :
    Restrains C (advanceSubmission C config saved attempt) (fun _ => Between) s := by
  refine meets_call_bind h.restrained fun e => ?_
  have hasked : Unlimited ((handler C).traced.step .rateLimited e s).2 := h.cons rfl rfl
  split
  · exact meets_pure (.inl hasked)
  · refine Meets.seq (restrains_send hasked) ?_ fun _ _ hs => by obtain ⟨_, _, hr, -⟩ := hs; cases hr
    rintro _ s1 ⟨current, response, hr, hn, hheard⟩
    cases hr
    exact restrains_settleReply hheard hn

/-! ## One new burn -/

/-- A failure that neither holds the burn nor makes it wait. -/
def SubmitError.passes (e : SubmitError) : Prop :=
  burnHold e = none ∧ ∀ status body, e ≠ .prepare (.unexpectedPrepareStatus status body)

theorem SubmitError.passes_of_late {e : SubmitError} (h : e.late = true) : e.passes :=
  ⟨burnHold_late h, fun status body hprepare => by rw [hprepare] at h; cases h⟩

/-- What an attempt at a new burn leaves: after a 429, a failure that is passed on. -/
def Ended (r : Except SubmitError α) (s : Watched) : Prop :=
  Between s ∧ ∀ e, r = .error e → Unlimited s ∨ e.passes

theorem Unlimited.ended {r : Except SubmitError α} (h : Unlimited s) : Ended r s := ⟨.inl h, fun _ _ => .inl h⟩

theorem Ended.error {e : SubmitError} (h : Ended (.error e : Except SubmitError α) s) :
    Ended (.error e : Except SubmitError β) s := ⟨h.1, fun e' he' => by cases he'; exact h.2 e rfl⟩

/-- A step that calls nothing. -/
theorem Unlimited.attempt {ε : Type} {f : ε → SubmitError} {a : Except ε α} (h : Unlimited s) :
    Restrains C (LightAttester.attempt f a) (fun _ => Unlimited) s := Local.meets calls_attempt h

theorem restrains_prepare {burn : DiscoveredBurn} {fee : UInt64} (h : Unlimited s) :
    Restrains C (prepareWithdrawal config burn fee)
      (fun r s' => Ended r s' ∧ ∀ reply, r = .ok reply → Unlimited s') s := by
  refine Meets.seq h.attempt (fun _ s1 h1 => ?_) fun e s1 h1 => ⟨h1.ended, fun reply hr => by cases hr⟩
  refine meets_call_bind h1.restrained fun e => ?_
  obtain ⟨reply, hstep⟩ : ∃ reply : Except CircleError UnverifiedPrepareResponse,
      (handler C).traced.step (.prepare burn fee) e s1 =
        (reply, s1.1.record (.prepare burn fee reply), ⟨.prepare burn fee, reply, s1.1⟩ :: s1.2) :=
    ⟨readReply e.http >>= readPrepared C, rfl⟩
  rw [hstep]
  cases reply with
  | ok prepared =>
    have h2 : Unlimited
        (s1.1.record (.prepare burn fee (.ok prepared)), ⟨.prepare burn fee, .ok prepared, s1.1⟩ :: s1.2) :=
      h1.cons rfl rfl
    exact meets_pure ⟨h2.ended, fun _ _ => h2⟩
  | error cause =>
    dsimp only
    split
    · rename_i hlimited
      have hflag : ∀ e, Restrained _ ∧ LimitedBy _ ((handler C).traced.step (.setRateLimited true) e
          (s1.1.record (.prepare burn fee (.error cause)), ⟨.prepare burn fee, .error cause, s1.1⟩ :: s1.2)).2 :=
        fun e => h1.limit (y := ⟨.prepare burn fee, .error cause, s1.1⟩) rfl hlimited e
      refine meets_call_bind (hflag {}).1 fun e => meets_throw ⟨⟨.inr ⟨_, (hflag e).2⟩, ?_⟩, fun _ hr => by cases hr⟩
      intro e' he'
      cases he'
      cases cause with
      | rateLimited body => exact .inr ⟨rfl, fun _ _ hne => by cases hne⟩
      | _ => cases hlimited
    · rename_i hfree
      have h2 : Unlimited
          (s1.1.record (.prepare burn fee (.error cause)), ⟨.prepare burn fee, .error cause, s1.1⟩ :: s1.2) :=
        h1.cons rfl (Bool.eq_false_iff.2 hfree)
      exact meets_throw ⟨h2.ended, fun _ hr => by cases hr⟩

theorem restrains_submitSigned {verified : VerifiedWithdrawal} {signatures : Signature × Signature} (h : Unlimited s) :
    Restrains C (submitSignedWithdrawal C config verified signatures) (fun _ => Between) s := by
  refine Meets.seq h.attempt (fun _ s1 h1 => ?_) fun _ _ h1 => .inl h1
  refine Meets.seq h1.attempt (fun saved s2 h2 => ?_) fun _ _ h2 => .inl h2
  have hquery : Local (query SubmitError.store fun s => s.submission C saved.noteId) := calls_query rfl
  refine Meets.seq (hquery.meets h2) (fun _ s3 h3 => ?_) fun _ _ h3 => .inl h3
  have hsave : Local (write SubmitError.store (.save saved)) := calls_write rfl
  exact Meets.seq (hsave.meets h3) (fun _ s4 h4 => restrains_advanceSubmission h4) fun _ _ h4 => .inl h4

theorem restrains_withdraw {burn : DiscoveredBurn} (h : Unlimited s) :
    Restrains C (withdraw C config burn) Ended s := by
  refine Meets.seq h.attempt (fun fee s1 h1 => ?_) fun _ _ h1 => h1.ended
  refine Meets.seq (restrains_prepare h1) (fun reply s2 h2 => ?_) fun e s2 h2 => h2.1.error
  refine Meets.seq (h2.2 reply rfl).attempt (fun verified s3 h3 => ?_) fun _ _ h3 => h3.ended
  have hsign : Local (signDigest verified.noteId verified.digest) := calls_bind (calls_one rfl) fun _ => calls_attempt
  have hrest : Restrains C (signAndSubmit C config verified) (fun _ => Between) s3 := by
    refine Meets.seq (hsign.meets h3) (fun _ s4 h4 => ?_) fun _ _ h4 => .inl h4
    exact Meets.seq (hsign.meets h4) (fun _ s5 h5 => restrains_submitSigned h5) fun _ _ h5 => .inl h5
  exact (hrest.raises signAndSubmit_late).mono fun r s4 h4 =>
    ⟨h4.1, fun e he => .inr (SubmitError.passes_of_late (h4.2 e he))⟩

theorem settleFailure_local {n : NoteId} {e : SubmitError} : Local (settleFailure C config n e) := by
  have hhold : ∀ error, Local (holdAndThrow n error) := fun error => by
    unfold holdAndThrow
    split
    · exact calls_bind (calls_write rfl) fun _ => calls_throw
    · exact calls_throw
  unfold settleFailure
  split
  · exact calls_throw
  · exact calls_bind waitForWithdrawalLimit_local fun _ => calls_ite calls_pure (hhold _)
  · exact hhold _

theorem restrains_attemptWithdrawal {burn : DiscoveredBurn} (h : Unlimited s) :
    Restrains C (attemptWithdrawal C config burn) (fun _ => Between) s := by
  refine meets_call_bind h.restrained fun e => ?_
  refine meets_tryCatch (restrains_withdraw (h.cons rfl rfl)) (fun _ _ h1 => h1.1) fun error s1 h1 => ?_
  rcases h1.2 error rfl with hfree | hpasses
  · exact (settleFailure_local.meets hfree).mono fun _ _ h2 => .inl h2
  · rw [settleFailure_pass hpasses.1 hpasses.2]
    exact meets_throw h1.1

/-! ## The cycle -/

theorem limitAllows_local {n : NoteId} : Local (limitAllows config n) := calls_limitAllows rfl rfl fun _ => rfl

/-- The flag is looked at: it is set whenever there was a 429. -/
theorem Between.flag {t u : Task ρ α} {Q : Except ρ α → Watched → Prop} (h : Between s)
    (hset : ∀ s1, Between s1 → Restrains C t Q s1) (hclear : ∀ s1, Unlimited s1 → Restrains C u Q s1) :
    Restrains C (do
      let limited : Bool ← call .rateLimited
      if limited then t else u) Q s := by
  refine meets_call_bind h.restrained fun e => ?_
  have hnext : Between ((handler C).traced.step .rateLimited e s).2 := by
    rcases h with h | ⟨x, h⟩
    · exact .inl (h.cons rfl rfl)
    · exact .inr ⟨x, h.cons rfl rfl rfl rfl⟩
  split
  · exact hset _ hnext
  · rename_i hflag
    rcases hnext with hnext | ⟨x, hnext⟩
    · exact hclear _ hnext
    · exact absurd hnext.flag hflag

theorem restrains_advanceSubmissions (list : List SavedSubmission) : ∀ {s : Watched}, Between s →
    Restrains C (advanceSubmissions C config list) (fun _ => Between) s := by
  induction list with
  | nil => exact fun h => meets_pure h
  | cons saved rest ih =>
    intro s h
    refine Meets.seq h.admin (fun _ s1 h1 => ?_) fun _ _ h1 => h1
    refine h1.flag (fun s2 h2 => meets_pure h2) fun s2 h2 => ?_
    have hrest : ∀ (admitted : Bool) (s3 : Watched), Unlimited s3 → Restrains C (if admitted = true then do
          call (.mark (.withdraw saved.noteId))
          advanceSubmission C config saved .recovery
          advanceSubmissions C config rest
        else advanceSubmissions C config rest) (fun _ => Between) s3 := by
      intro admitted s3 h3
      split
      · refine meets_call_bind h3.restrained fun e => ?_
        exact Meets.seq (restrains_advanceSubmission (h3.cons rfl rfl)) (fun _ s4 h4 => ih h4) fun _ _ h4 => h4
      · exact ih (.inl h3)
    split
    · exact Meets.seq (Local.meets (calls_adapt limitAllows_local) h2) hrest fun _ _ h3 => .inl h3
    · exact Meets.seq (R := fun _ => Unlimited) (meets_pure h2) hrest fun _ _ h3 => .inl h3

theorem restrains_submitWithdrawals (burns : List DiscoveredBurn) : ∀ {s : Watched} (firstError : Option SubmitError),
    Between s → Restrains C (submitWithdrawals C config firstError burns) (fun _ => Between) s := by
  induction burns with
  | nil => exact fun _ h => meets_pure h
  | cons burn rest ih =>
    intro s firstError h
    refine Meets.seq h.admin (fun _ s1 h1 => ?_) fun _ _ h1 => h1
    refine h1.flag (fun s2 h2 => meets_pure h2) fun s2 h2 => ?_
    refine Meets.seq (Local.meets (calls_adapt limitAllows_local) h2) (fun allowed s3 h3 => ?_) fun _ _ h3 => .inl h3
    split
    · refine Meets.seq (R := fun _ => Between) (meets_lift (restrains_attemptWithdrawal h3)) (fun outcome s4 h4 => ?_)
        fun _ _ h4 => h4
      cases outcome with
      | ok _ => exact ih firstError h4
      | error error =>
        dsimp only
        split
        · exact meets_throw h4
        · exact ih _ h4
    · exact meets_pure (.inl h3)

theorem adminCheckpoint_local : Local (adminCheckpoint : Task ρ Unit) :=
  adminCheckpoint_admin.mono fun _ => Call.local_of_isAdmin

theorem saveBlock_local {block : SignedBlock} : Local (saveBlock C config block) :=
  calls_bind (calls_query rfl) fun _ => calls_write rfl

theorem scanBlocks_local (numbers : List BlockNumber) : ∀ parent : BlockHeader,
    Local (scanBlocks C config parent numbers) := by
  induction numbers with
  | nil => exact fun _ => calls_pure
  | cons number rest ih =>
    intro parent
    refine calls_bind adminCheckpoint_local fun _ => calls_bind ?_ fun block => calls_bind saveBlock_local fun _ => ih _
    exact calls_bind (calls_one rfl) fun _ => calls_bind calls_attempt fun _ => calls_ite calls_throw calls_pure

theorem discoverBurns_local : Local (discoverBurns C config) := by
  refine calls_bind (calls_query rfl) fun checkpoint => calls_bind (calls_one rfl) fun _ =>
    calls_bind calls_attempt fun limits => ?_
  have hcheck : Local (checkCheckpoint checkpoint) := calls_bind (calls_one rfl) fun _ =>
    calls_bind calls_attempt fun _ => calls_ite calls_throw calls_pure
  refine calls_ite (calls_ite calls_pure calls_throw) (calls_ite (calls_bind hcheck fun _ => calls_pure) ?_)
  exact calls_bind (scanBlocks_local _ _) fun _ => calls_pure

theorem discoveryOutcome_local {found : Except DiscoverError BlockNumber} : Local (discoveryOutcome found) := by
  unfold discoveryOutcome
  split
  · exact calls_bind (calls_one rfl) fun _ => calls_pure
  · exact calls_pure
  · exact calls_throw

theorem snapshot_local {lag : Option BlockNumber} : Local (snapshot C config lag) := by
  refine calls_bind (calls_query rfl) fun recover => calls_bind (calls_query rfl) fun poll => ?_
  cases lag with
  | some lag => exact calls_bind (calls_query rfl) fun _ => calls_bind (calls_one rfl) fun _ => calls_pure
  | none => exact calls_bind calls_pure fun _ => calls_bind (calls_one rfl) fun _ => calls_pure

theorem restrains_cycle (w : World) : Restrains C (cycle C config) (fun _ => Between) (w, []) := by
  have hstart : Unlimited (w, []) := ⟨trivial, rfl⟩
  refine meets_call_bind hstart.restrained fun e => ?_
  have hmarked : Unlimited ((handler C).traced.step (.mark (.cycle config)) e (w, [])).2 := hstart.cons rfl rfl
  refine meets_call_bind hmarked.restrained fun e => ?_
  refine Meets.seq (Local.meets (calls_lift discoverBurns_local) (hmarked.cons rfl rfl)) (fun found s1 h1 => ?_)
    fun _ _ h1 => .inl h1
  refine Meets.seq (discoveryOutcome_local.meets h1) (fun lag s2 h2 => ?_) fun _ _ h2 => .inl h2
  refine Meets.seq (snapshot_local.meets h2) (fun work s3 h3 => ?_) fun _ _ h3 => .inl h3
  refine Meets.seq (R := fun _ => Between) (meets_adapt (restrains_advanceSubmissions work.recover (.inl h3)))
    (fun _ s4 h4 => ?_) fun _ _ h4 => h4
  refine Meets.seq (R := fun _ => Between) (meets_adapt (restrains_submitWithdrawals work.ready none h4))
    (fun _ s5 h5 => ?_) fun _ _ h5 => h5
  exact meets_adapt (restrains_advanceSubmissions work.poll h5)

/-! ## What a 429 leaves alone -/

theorem restrained_later {later earlier : List CallEvent} (h : Restrained (later ++ x :: earlier))
    (hx : CallEvent.limited x = true) :
    (∀ y ∈ later, y.op.allowedAfter x = true) ∧ (later ++ x :: earlier).find? CallEvent.limited = some x := by
  induction later with
  | nil => exact ⟨fun y hy => absurd hy List.not_mem_nil, List.find?_cons_of_pos hx⟩
  | cons y later ih =>
    obtain ⟨hallowed, hfirst⟩ := ih h.2
    have hy : y.op.allowedAfter x = true := h.1 x hfirst
    have hlocal : y.op.isTraffic = false := by
      obtain ⟨o, answer, w⟩ := y
      cases o <;> first | rfl | cases hy
    refine ⟨fun z hz => ?_, ?_⟩
    · rcases List.mem_cons.1 hz with rfl | hz
      · exact hy
      · exact hallowed z hz
    · exact (List.find?_cons_of_neg (by rw [not_limited hlocal]; exact Bool.false_ne_true)).trans hfirst

/-- `m` has the burn and the submission it has in `s`. -/
def SameNote (m : NoteId) (s s' : Store) : Prop := s'.burn m = s.burn m ∧ s'.row m = s.row m

theorem transact_same {m : NoteId} {z : Write} {w : World} {fails : Bool}
    (h : ∀ s', z.apply C w.store = .ok s' → SameNote m w.store s') :
    SameNote m w.store (w.transact C z fails).2.store := by
  unfold World.transact
  split
  · exact ⟨rfl, rfl⟩
  · split
    · rename_i s' hs'
      exact h s' hs'
    · exact ⟨rfl, rfl⟩

/-- A call that is allowed after `x` leaves every note alone but that of `x` and those it releases. -/
theorem step_same {m : NoteId} {o : Call} (ho : o.allowedAfter x = true) (hm : x.op.savedNote ≠ some m)
    (hrelease : o.releases m = false) (e : Env) (w : World) : SameNote m w.store ((handler C).step o e w).2.store := by
  cases o with
  | write z =>
    refine transact_same fun s' hs' => ?_
    cases z with
    | outcome out =>
      have hnote : x.op.savedNote = some out.noteId := beq_iff_eq.1 ho
      exact Write.apply_frame hs' rfl fun heq => hm (by rw [hnote, heq])
    | release selection =>
      obtain ⟨k, hk⟩ := release_apply_ok hs'
      have hne : selection.noteId ≠ m := beq_eq_false_iff_ne.1 hrelease
      exact (releaseHold_only (releaseChecked_ok hk)).others m hne.symm
    | create | scan | save | hold | advance | limit | releaseAll => cases ho
  | openFile create =>
    show SameNote m w.store (if create = true then { w with fileExists := true } else w).store
    split
    · exact ⟨rfl, rfl⟩
    · exact ⟨rfl, rfl⟩
  | prepare | sign | post | get => cases ho
  | _ => exact ⟨rfl, rfl⟩

theorem step_traffic {o : Call} (ho : o.isTraffic = true) (e : Env) (w : World) :
    ((handler C).step o e w).2.store = w.store := by
  cases o <;> first | rfl | cases ho

theorem isTraffic_of_limited (h : CallEvent.limited x = true) : x.op.isTraffic = true := by
  obtain ⟨o, answer, w⟩ := x
  cases o <;> first | rfl | cases h

theorem readBody_error {body : Bytes} {broken : Bool} {chunks : List Bytes} {e : CircleError}
    (h : readBody body broken chunks = .error e) : e.isRateLimited = false := by
  induction chunks generalizing body with
  | nil =>
    unfold readBody at h
    split at h
    · cases h
      rfl
    · cases h
  | cons chunk rest ih =>
    unfold readBody at h
    split at h
    · cases h
      rfl
    · exact ih h

/-- A status 429 is one, whether or not its body can be read. -/
theorem isLimited_readReply (status : StatusCode) (chunks : List Bytes) (broken : Bool) :
    isLimited (readReply (.answered status chunks broken)) = decide (status = .tooManyRequests) := by
  simp only [readReply]
  by_cases hstatus : status = .tooManyRequests
  · simp only [if_pos hstatus, decide_eq_true hstatus]
    cases readBody [] broken chunks with
    | ok body => rfl
    | error e => rfl
  · simp only [if_neg hstatus, decide_eq_false hstatus]
    cases hbody : readBody [] broken chunks with
    | ok body => rfl
    | error e => exact readBody_error hbody

/-- And so it is for prepare, which reads the reply further. -/
theorem isLimited_prepared (reply : Except CircleError RawResponse) :
    isLimited (reply >>= readPrepared C) = isLimited reply := by
  cases reply with
  | error e => rfl
  | ok raw =>
    show isLimited (readPrepared C raw) = false
    unfold readPrepared
    by_cases hstatus : raw.status = .ok
    · rw [ensure, if_pos hstatus]
      cases hparse : C.parsePrepared raw.body with
      | none => rfl
      | some prepared => rfl
    · rw [ensure, if_neg hstatus]
      rfl

end

/-- How the rest of a cycle treats a 429. -/
structure EndsTraffic (C : Crates) (config : Config) (w : World) (env : List Env) : Prop where
  /-- Every request that Circle answers with status 429 counts, whatever becomes of the body. -/
  limited : ∀ status chunks broken,
    isLimited (readReply (.answered status chunks broken)) = decide (status = .tooManyRequests) ∧
      isLimited (readReply (.answered status chunks broken) >>= readPrepared C) = decide (status = .tooManyRequests)
  /-- No request, signature, deadline, hold or authorization follows. -/
  quiet : ∀ later x earlier, Prog.trace (handler C) (cycle C config).run env w = later ++ x :: earlier →
    CallEvent.limited x = true → ∀ y ∈ later, y.op.allowedAfter x = true
  /-- All burns and rows stay, but the saved request that was answered and what operators release. -/
  left : ∀ later x earlier, Prog.trace (handler C) (cycle C config).run env w = later ++ x :: earlier →
    CallEvent.limited x = true → ∀ m, x.op.savedNote ≠ some m → (∀ y ∈ later, y.op.releases m = false) →
      SameNote m x.state.store (Prog.run (handler C) (cycle C config).run env w).2.2.store

theorem restrained_cycle (C : Crates) (config : Config) (w : World) (env : List Env) :
    Restrained (Prog.trace (handler C) (cycle C config).run env w) := by
  have hmeets : Restrains C (cycle C config) (fun _ => Between) (w, []) := restrains_cycle w
  exact hmeets.always (fun _ h => h) (fun _ _ h => h.restrained) env

/-- **A 429 ends Circle traffic for the cycle.** -/
theorem limit_ends_traffic (C : Crates) (config : Config) (w : World) (env : List Env) :
    EndsTraffic C config w env where
  limited status chunks broken := by
    refine ⟨isLimited_readReply status chunks broken, ?_⟩
    rw [isLimited_prepared]
    exact isLimited_readReply status chunks broken
  quiet later x earlier htrace hx := by
    have hrestrained := restrained_cycle C config w env
    rw [htrace] at hrestrained
    exact (restrained_later hrestrained hx).1
  left later x earlier htrace hx m hm hreleases := by
    have hrestrained := restrained_cycle C config w env
    rw [htrace] at hrestrained
    have hallowed := (restrained_later hrestrained hx).1
    have hlinked := Prog.linked_run (handler C) (cycle C config).run env w [] trivial
    have hfinal := (Prog.run_traced (handler C) (cycle C config).run env w []).2
    rw [Prog.trace] at htrace
    rw [htrace, hfinal] at hlinked
    refine hlinked.carries (P := fun w' => SameNote m x.state.store w'.store) (fun e w' hw' => ?_)
      (fun y hy e w' hw' => ?_) ⟨rfl, rfl⟩
    · show SameNote m x.state.store ((handler C).step x.op e w').2.store
      rw [step_traffic (isTraffic_of_limited hx)]
      exact hw'
    · have hstep := step_same (C := C) (hallowed y hy) hm (hreleases y hy) e w'
      exact ⟨hstep.1.trans hw'.1, hstep.2.trans hw'.2⟩

/-! ## A release in a limited cycle -/

namespace Sample

/-- Another burn like the sample's. -/
def burnOf (id : Nat) (holdReason : Option BurnHoldReason) : BurnRow :=
  { note := { note with id := ⟨BitVec.ofNat 256 id⟩, nullifier := ⟨BitVec.ofNat 256 id⟩ }, creationBlock := 100,
    consumptionBlock := some 101, holdReason := holdReason, limitRetryAt := none }

/-- Two burns are ready, and a third is held. -/
def ready : World where
  fileExists := true
  store :=
    { Store.created faucet Sample.config.trustedAnchor with
      state := some ⟨faucet, Sample.config.trustedAnchor, some emptyBlock.header⟩,
      burns := .put (.put (.put .empty (burnOf 1 none)) (burnOf 2 none)) (burnOf 3 (some .prepareRejected)),
      events := [.bare ⟨3⟩ .burnHeld (some 400) (some []) (some .prepareRejected)] }
  rateLimited := false
  log := []

/-- The first burn's prepare is answered 429, and the operator releases the third before the second's turn. -/
def limitedCycle : List Env :=
  still 3 ++ [tip, served emptyBlock] ++ still 9 ++ [{ http := .answered .tooManyRequests [] false }] ++ still 1 ++
    [{ commands := [⟨false, .release ⟨⟨3⟩, 1, false⟩⟩] }] ++ still 2

end Sample

/-- The burn at hand is another one, and yet the third burn is no longer held. -/
theorem released_after_limit : ∃ later x earlier, Prog.trace (handler Sample.crates)
      (cycle Sample.crates Sample.config).run Sample.limitedCycle Sample.ready = later ++ x :: earlier ∧
    CallEvent.limited x = true ∧ x.op.savedNote ≠ some ⟨3⟩ ∧ ¬ SameNote ⟨3⟩ x.state.store
      (Prog.run (handler Sample.crates) (cycle Sample.crates Sample.config).run Sample.limitedCycle
        Sample.ready).2.2.store := by
  have hfound : ((Prog.trace (handler Sample.crates) (cycle Sample.crates Sample.config).run Sample.limitedCycle
      Sample.ready).find? CallEvent.limited).any (fun x => x.op.savedNote != some ⟨3⟩ &&
        (x.state.store.burn ⟨3⟩).map BurnRow.holdReason == some (some .prepareRejected)) = true := by decide +kernel
  have hfinal : (((Prog.run (handler Sample.crates) (cycle Sample.crates Sample.config).run Sample.limitedCycle
      Sample.ready).2.2.store.burn ⟨3⟩).map BurnRow.holdReason) = some none := by decide +kernel
  obtain ⟨x, hx, hcase⟩ := (Option.any_eq_true _ _).1 hfound
  obtain ⟨hnote, hheld⟩ := Bool.and_eq_true_iff.1 hcase
  obtain ⟨hlimited, later, earlier, htrace, -⟩ := List.find?_eq_some_iff_append.1 hx
  refine ⟨later, x, earlier, htrace, hlimited, bne_iff_ne.1 hnote, fun hsame => ?_⟩
  rw [hsame.1, beq_iff_eq.1 hheld] at hfinal
  cases hfinal

end LightAttester
