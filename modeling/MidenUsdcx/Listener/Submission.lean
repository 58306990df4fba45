import MidenUsdcx.Listener.Settle
/-!
# One call of `submit_withdraw`

The whole call, from the claim to the settled rows, for every request, policy, starting ledger and
sequence of answers. `posted_cases` says once what a call can come to: refused before its first POST, or
posted under the retry policy and settled by the plan of its last answer.

`reply c i` is what comes back for the `i`-th POST, if there is one: the claim is the first call, and
only POSTs follow it until the retry loop ends.
-/
namespace WithdrawalListener
open Checked Interact Keyed

/-- A call, with the moments it will meet. -/
structure Submission where
  circle : CircleClient
  request : WithdrawRequest
  start : Ledger
  env : Nat → QuietMoment request.keys

namespace Submission
variable (c : Submission)

def run : Except SubmitError SubmitOutcome × (Nat → QuietMoment c.request.keys) × RunState :=
  Prog.runOn (quiet c.request.keys).traced (submitWithdraw c.circle c.request).run c.env (c.start, [])

def result : Except SubmitError SubmitOutcome := c.run.1

/-- The ledger when the call returns. -/
def final : Ledger := c.run.2.2.1

def trace : List CallEvent := c.run.2.2.2

/-- The POSTs of the call with their answers, oldest first. -/
def posts : List (WithdrawRequest × Reply) := (sent c.trace).filterMap Exchange.post?

def reply (i : Nat) : Reply := (c.env (i + 1)).reply

/-- What the others did to the ledger during the call. -/
def others : List Transaction := (List.range c.trace.length).flatMap fun i => (c.env i).meanwhile

end Submission

/-! ## Answers to a POST -/

/-- A 5xx that was read. -/
def ServerError (circle : CircleClient) (reply : Reply) : Prop :=
  ∃ status body, reply = .response status body ∧ body.length ≤ circle.maxResponseBytes ∧ 500 ≤ status ∧ status ≤ 599

/-- A 400 that was read. -/
def Rejected (circle : CircleClient) (reply : Reply) : Prop :=
  ∃ body, reply = .response 400 body ∧ body.length ≤ circle.maxResponseBytes

section
variable {circle : CircleClient} {request : WithdrawRequest} {reply : Reply}

theorem received_ok {response : RawResponse} (h : received circle reply = .ok response) :
    reply = .response response.status response.body ∧ response.body.length ≤ circle.maxResponseBytes := by
  cases reply with
  | failed => cases h
  | cutOff actual => cases h
  | response status body =>
    rw [received] at h
    split at h
    · cases h
      exact ⟨rfl, by assumption⟩
    · cases h

theorem received_of_le {status : UInt16} {body : Bytes} (h : body.length ≤ circle.maxResponseBytes) :
    received circle (.response status body) = .ok ⟨status, body⟩ := if_pos h

theorem received_error {e : ListenerError} (h : received circle reply = .error e) (status : UInt16) :
    e ≠ .http status := by
  rintro rfl
  cases reply with
  | failed => cases h
  | cutOff actual => cases h
  | response status body =>
    rw [received] at h
    split at h <;> cases h

theorem decodeWithdrawCreated_error {body : Bytes} {n : Nat} {e : ListenerError}
    (h : decodeWithdrawCreated circle body n = .error e) (status : UInt16) : e ≠ .http status := by
  rintro rfl
  cases hs : circle.serde.statuses body with
  | none => simp [decodeWithdrawCreated, decode, hs, orThrow, Bind.bind, Except.bind] at h
  | some statuses =>
    by_cases hn : statuses.length = n <;>
      simp [decodeWithdrawCreated, decode, hs, orThrow, ensure, hn, Bind.bind, Except.bind, pure, Except.pure] at h

/-- An attempt ends in a status of its own: it was read, and is neither 201 nor 409. -/
theorem attemptOf_http {status : UInt16} :
    attemptOf circle request reply = .error (.http status) ↔
      ∃ body, reply = .response status body ∧ body.length ≤ circle.maxResponseBytes ∧ status ≠ 201 ∧ status ≠ 409 := by
  constructor
  · intro h
    cases hr : received circle reply with
    | error e =>
      rw [attemptOf, hr] at h
      cases h
      exact absurd rfl (received_error hr status)
    | ok response =>
      obtain ⟨hreply, hlen⟩ := received_ok hr
      simp only [attemptOf, hr, Bind.bind, Except.bind] at h
      split at h
      · cases hd : decodeWithdrawCreated circle response.body request.batches.length with
        | error e =>
          rw [hd] at h
          cases h
          exact absurd rfl (decodeWithdrawCreated_error hd status)
        | ok statuses =>
          rw [hd] at h
          cases h
      · split at h
        · cases hd : circle.serde.conflict response.body with
          | none =>
            rw [decode, hd] at h
            cases h
          | some conflict =>
            rw [decode, hd] at h
            cases h
        · rename_i h201 h409
          cases h
          exact ⟨response.body, hreply, hlen, h201, h409⟩
  · rintro ⟨body, rfl, hlen, h201, h409⟩
    rw [attemptOf, received_of_le hlen]
    simp [Bind.bind, Except.bind, h201, h409]

theorem attemptOf_retryable :
    (∃ e, attemptOf circle request reply = .error e ∧ isRetryable e = true) ↔ ServerError circle reply := by
  constructor
  · rintro ⟨e, he, hretry⟩
    cases e with
    | http status =>
      obtain ⟨body, hreply, hlen, -, -⟩ := attemptOf_http.1 he
      simp only [isRetryable, Bool.and_eq_true, decide_eq_true_eq] at hretry
      exact ⟨status, body, hreply, hlen, hretry⟩
    | _ => cases hretry
  · rintro ⟨status, body, hreply, hlen, hlow, hhigh⟩
    refine ⟨.http status, attemptOf_http.2 ⟨body, hreply, hlen, ?_, ?_⟩, ?_⟩
    · rintro rfl
      exact absurd hlow (by decide)
    · rintro rfl
      exact absurd hlow (by decide)
    · simp only [isRetryable, hlow, hhigh, decide_true, Bool.and_self]

theorem attemptOf_rejected : attemptOf circle request reply = .error (.http 400) ↔ Rejected circle reply := by
  rw [attemptOf_http, Rejected]
  exact exists_congr fun body => and_congr_right fun _ => and_iff_left ⟨by decide, by decide⟩

theorem Rejected.not_serverError (h : Rejected circle reply) : ¬ ServerError circle reply := by
  obtain ⟨body, rfl, -⟩ := h
  rintro ⟨status, body', heq, -, hlow, -⟩
  cases heq
  exact absurd hlow (by decide)

theorem attemptOf_created {statuses : List WithdrawalStatus}
    (h : attemptOf circle request reply = .ok (.created statuses)) :
    statuses.length = request.batches.length ∧ ∃ body, reply = .response 201 body ∧
      body.length ≤ circle.maxResponseBytes ∧ circle.serde.statuses body = some statuses := by
  obtain ⟨response, hr, h⟩ := bind_ok.1 h
  obtain ⟨hreply, hlen⟩ := received_ok hr
  split at h
  · rename_i h201
    cases hd : decodeWithdrawCreated circle response.body request.batches.length with
    | error e =>
      rw [hd] at h
      cases h
    | ok statuses' =>
      rw [hd] at h
      cases h
      obtain ⟨parsed, hparsed, hd⟩ := bind_ok.1 hd
      obtain ⟨hn, hd⟩ := ensure_bind_ok.1 hd
      cases hd
      exact ⟨hn, response.body, h201 ▸ hreply, hlen, orThrow_ok.1 hparsed⟩
  · split at h
    · cases hd : circle.serde.conflict response.body <;> rw [decode, hd] at h <;> cases h
    · cases h

theorem attemptOf_conflict {conflict : WithdrawConflict}
    (h : attemptOf circle request reply = .ok (.conflict conflict)) :
    ∃ body, reply = .response 409 body ∧ body.length ≤ circle.maxResponseBytes ∧
      circle.serde.conflict body = some conflict := by
  obtain ⟨response, hr, h⟩ := bind_ok.1 h
  obtain ⟨hreply, hlen⟩ := received_ok hr
  split at h
  · cases hd : decodeWithdrawCreated circle response.body request.batches.length <;> rw [hd] at h <;> cases h
  · split at h
    · rename_i h409
      cases hd : circle.serde.conflict response.body with
      | none =>
        rw [decode, hd] at h
        cases h
      | some conflict' =>
        rw [decode, hd] at h
        cases h
        exact ⟨response.body, h409 ▸ hreply, hlen, hd⟩
    · cases h

end

/-! ## The retry loop -/

section
variable {circle : CircleClient} {request : WithdrawRequest} {K : List BurnKey}

/-- One POST takes one moment. -/
theorem attemptWithdraw_runOn (env : Nat → QuietMoment K) (s : RunState) :
    Prog.runOn (quiet K).traced (attemptWithdraw circle request).run env s =
      (attemptOf circle request (env 0).reply, (fun n => env (n + 1)),
        afterAll s.1 (env 0).meanwhile, ⟨.postWithdraw request, (env 0).reply, s.1⟩ :: s.2) := by
  show Prog.runOn (quiet K).traced (attempt _ (attemptOf circle request (env 0).reply)).run _ _ = _
  cases attemptOf circle request (env 0).reply <;> rfl

theorem withBackoffFrom_runOn (circle : CircleClient) (request : WithdrawRequest) (left : Nat)
    (env : Nat → QuietMoment K) (s : RunState) :
    ∃ m ≤ left, (∀ i < m, ServerError circle (env i).reply) ∧ (m < left → ¬ ServerError circle (env m).reply) ∧
      (Prog.runOn (quiet K).traced (withBackoffFrom (attemptWithdraw circle request) left).run env s).1 =
        attemptOf circle request (env m).reply ∧
      Asked K ((List.range (m + 1)).map fun i => .withdraw request (env i).reply) s
        (Prog.runOn (quiet K).traced (withBackoffFrom (attemptWithdraw circle request) left).run env s).2.2 := by
  have hone : ∀ (env : Nat → QuietMoment K) (s : RunState), Asked K [.withdraw request (env 0).reply] s
      (afterAll s.1 (env 0).meanwhile, ⟨.postWithdraw request, (env 0).reply, s.1⟩ :: s.2) :=
    fun env s => ⟨fun k hk => (env 0).read hk, sent_cons _ _⟩
  induction left generalizing env s with
  | zero =>
    refine ⟨0, le_refl 0, (fun i hi => absurd hi (by omega)), (fun h => absurd h (by omega)), ?_⟩
    rw [withBackoffFrom, attemptWithdraw_runOn]
    exact ⟨rfl, hone env s⟩
  | succ left ih =>
    rw [withBackoffFrom, run_tryCatch, Prog.runOn_bind, attemptWithdraw_runOn]
    by_cases hserver : ServerError circle (env 0).reply
    · obtain ⟨e, he, hretry⟩ := attemptOf_retryable.2 hserver
      obtain ⟨m, hm, hbefore, hlast, hres, hasked⟩ := ih (fun n => env (n + 1))
        (afterAll s.1 (env 0).meanwhile, ⟨.postWithdraw request, (env 0).reply, s.1⟩ :: s.2)
      rw [he]
      simp only [orElse, if_pos hretry]
      refine ⟨m + 1, by omega, fun i hi => ?_, fun h => hlast (by omega), hres, ?_⟩
      · cases i with
        | zero => exact hserver
        | succ i => exact hbefore i (by omega)
      · rw [List.range_succ_eq_map, List.map_cons, List.map_map]
        exact (hone env s).trans hasked
    · have hstop : ∀ e, attemptOf circle request (env 0).reply = .error e → isRetryable e = false := by
        intro e he
        by_contra hretry
        exact hserver (attemptOf_retryable.1 ⟨e, he, by simpa using hretry⟩)
      refine ⟨0, by omega, (fun i hi => absurd hi (by omega)), fun _ => hserver, ?_⟩
      cases hdone : attemptOf circle request (env 0).reply with
      | ok a => exact ⟨rfl, hone env s⟩
      | error e =>
        simp only [orElse, hstop e hdone]
        exact ⟨rfl, hone env s⟩

end

/-! ## The claim -/

theorem repeatedBurn_eq_none {burns : List String} : repeatedBurn burns = none ↔ (burns.map BurnKey.new).Nodup := by
  rw [repeatedBurn, Option.map_eq_none_iff, List.find?_eq_none, List.Nodup, List.pairwise_iff_getElem]
  constructor
  · intro h i j hi hj hij heq
    rw [List.length_map] at hi hj
    refine h (burns[j], j) (List.mem_zipIdx_iff_getElem?.2 (List.getElem?_eq_getElem hj)) ?_
    rw [List.contains_iff_mem, List.mem_map]
    refine ⟨burns[i], List.mem_take_iff_getElem.2 ⟨i, by omega, rfl⟩, ?_⟩
    rwa [List.getElem_map, List.getElem_map] at heq
  · rintro h ⟨burn, j⟩ hmem hcontains
    obtain ⟨hj, hburn⟩ := List.getElem?_eq_some_iff.1 (List.mem_zipIdx_iff_getElem?.1 hmem)
    rw [List.contains_iff_mem, List.mem_map] at hcontains
    obtain ⟨earlier, hearlier, heq⟩ := hcontains
    obtain ⟨i, hi, rfl⟩ := List.mem_take_iff_getElem.1 hearlier
    refine h i j (by rw [List.length_map]; omega) (by rw [List.length_map]; omega) (by omega) ?_
    rw [List.getElem_map, List.getElem_map, heq]
    exact congrArg BurnKey.new hburn.symm

/-- The ID a burn's row holds. -/
def idAt (l : Ledger) (key : BurnKey) : Option String :=
  match readRecord l key with
  | .ok (some r) => r.withdrawalId
  | _ => none

theorem Took.inRow {l l' : Ledger} {key : BurnKey} {r : SubmissionRecord} (h : Took l l' key r) :
    InRow l' key .pending (idAt l key) := by
  refine ⟨r, h.read, h.pending, ?_⟩
  rcases h.id with ⟨hnone, hid⟩ | ⟨old, hold, -, hid⟩
  · rw [idAt, hnone, hid]
  · rw [idAt, hold, hid]

theorem claimBurns_free {l l' : Ledger} {keys : List BurnKey} {now : UInt64} {fails : Bool}
    {records : List SubmissionRecord} (h : claimBurns l keys now fails = (.ok (.claimed records), l')) :
    keys.Nodup ∧ ∀ key ∈ keys, Free l key := by
  rcases commit_cases l (ClaimAborted.ledger .store) fails (claimEach now keys) with ⟨rs, l1, heq, hf⟩ | ⟨e, heq⟩
  · exact ⟨(claimEach_ok hf).nodup, claimEach_free hf⟩
  · rw [claimBurns, heq] at h
    cases e <;> cases h

/-! ## What a call comes to -/

namespace Submission

/-- The claim is granted: no burn twice, and each unseen or given up. -/
def Takes (c : Submission) : Prop := c.request.keys.Nodup ∧ ∀ key ∈ c.request.keys, Free c.start key

/-- The call sends nothing and changes nothing. -/
structure Refused (c : Submission) : Prop where
  sent : sent c.trace = []
  final : c.final = afterAll c.start c.others
  result : ∀ statuses, c.result ≠ .ok (.submitted statuses)

/-- The call posts `m + 1` times and settles its burns by a plan. -/
structure Posted (c : Submission) (m : Nat) (polls : List Exchange) (plan : Plan) : Prop where
  bound : m < c.circle.retry.maxAttempts.toNat
  retried : ∀ i < m, ServerError c.circle (c.reply i)
  stopped : m + 1 < c.circle.retry.maxAttempts.toNat → ¬ ServerError c.circle (c.reply m)
  ended : Ended c.circle c.request.keys (attemptOf c.circle c.request (c.reply m)) polls c.result plan
  rows : ∀ k ∈ c.request.keys, InRow c.final k (plan k).1 ((plan k).2 <|> idAt c.start k)
  sent : sent c.trace = ((List.range (m + 1)).map fun i => .withdraw c.request (c.reply i)) ++ polls

theorem run_eq (c : Submission) (hnone : repeatedBurn c.request.burns = none) :
    c.run = Prog.runOn (quiet c.request.keys).traced
      (attempt SubmitError.ledger (claimBurns (afterAll c.start (c.env 0).meanwhile) c.request.keys (c.env 0).now
        (c.env 0).fails).1 >>= submitClaimed c.circle c.request c.request.keys c.request.burns).run
      (fun n => c.env (n + 1))
      ((claimBurns (afterAll c.start (c.env 0).meanwhile) c.request.keys (c.env 0).now (c.env 0).fails).2,
        [⟨.claimBurns c.request.keys, (claimBurns (afterAll c.start (c.env 0).meanwhile) c.request.keys (c.env 0).now
          (c.env 0).fails).1, c.start⟩]) := by
  rw [run, submitWithdraw, hnone]
  rfl

theorem refused_of_claim (c : Submission) {res : Except SubmitError SubmitOutcome} {e : CallEvent}
    (hrun : c.run.1 = res) (hstate : c.run.2.2 = (afterAll c.start (c.env 0).meanwhile, [e]))
    (he : exchange? e = none) (hres : ∀ statuses, res ≠ .ok (.submitted statuses)) : c.Refused := by
  have htrace : c.trace = [e] := congrArg Prod.snd hstate
  refine ⟨?_, ?_, ?_⟩
  · rw [htrace, sent_cons, he]
    rfl
  · rw [final, hstate, others, htrace]
    simp
  · rw [result, hrun]
    exact hres

theorem posted_of_claim (c : Submission) {records : List SubmissionRecord} {l' : Ledger}
    (hnone : repeatedBurn c.request.burns = none)
    (hclaim : claimBurns (afterAll c.start (c.env 0).meanwhile) c.request.keys (c.env 0).now (c.env 0).fails =
      (.ok (.claimed records), l'))
    (htook : TookAll (afterAll c.start (c.env 0).meanwhile) l' c.request.keys records) :
    ∃ m polls plan, c.Posted m polls plan := by
  have hpos := c.circle.retry.positive
  -- The claim took the first moment; the retry loop runs on the rest.
  have hrun : c.run = Prog.runOn (quiet c.request.keys).traced
      (ExceptT.lift (withBackoff c.circle (attemptWithdraw c.circle c.request)).run >>=
        settleAttempt c.circle c.request.keys c.request.burns).run (fun n => c.env (n + 1))
      (l', [⟨.claimBurns c.request.keys, .ok (.claimed records), c.start⟩]) := by
    have h := c.run_eq hnone
    rw [hclaim] at h
    exact h
  rw [run_lift_bind, Prog.runOn_bind, withBackoff] at hrun
  obtain ⟨m, hm, hretried, hstopped, hdone, hasked⟩ := withBackoffFrom_runOn c.circle c.request
    (c.circle.retry.maxAttempts.toNat - 1) (fun n => c.env (n + 1))
    (l', [⟨.claimBurns c.request.keys, .ok (.claimed records), c.start⟩])
  generalize Prog.runOn (quiet c.request.keys).traced _ (fun n => c.env (n + 1)) _ = b at hrun hdone hasked
  have hpending : ∀ k ∈ c.request.keys, InRow b.2.2.1 k .pending (idAt c.start k) := by
    intro k hk
    obtain ⟨r, hr⟩ := htook.took k hk
    have hid : idAt (afterAll c.start (c.env 0).meanwhile) k = idAt c.start k := by
      rw [idAt, (c.env 0).read hk, idAt]
    exact (hid ▸ hr.inRow).same (hasked.rows k hk)
  have hcount : ∀ statuses, b.1 = .ok (.created statuses) → statuses.length = c.request.keys.length := by
    intro statuses h
    rw [hdone] at h
    rw [(attemptOf_created h).1, WithdrawRequest.keys, WithdrawRequest.burns, List.length_map, List.length_map]
  have hends : Meets (quiet c.request.keys).traced (fun _ => True)
      (settleAttempt c.circle c.request.keys c.request.burns b.1)
      (EndedFrom c.circle c.request.keys b.1 (idAt c.start) b.2.2) b.2.2 :=
    settleAttempt_ends rfl htook.nodup hcount hpending
  obtain ⟨polls, plan, hended, hrows, hsent⟩ := Prog.Guards.runOn b.2.1 hends
  rw [← hrun] at hended hrows hsent
  rw [hdone] at hended
  refine ⟨m, polls, plan, by omega, hretried, fun h => hstopped (by omega), hended, hrows, ?_⟩
  rw [trace, hsent, hasked.sent]
  rfl

/-- Every call is refused before its first POST, or posts and settles. -/
theorem posted_cases (c : Submission) :
    ¬ c.Takes ∧ c.Refused ∨ c.Takes ∧ ∃ m polls plan, c.Posted m polls plan := by
  cases hdup : repeatedBurn c.request.burns with
  | some burn =>
    have hrun : c.run = (.error (.duplicateBurnInRequest burn), c.env, c.start, []) := by
      rw [run, submitWithdraw, hdup]
      rfl
    refine .inl ⟨fun h => ?_, ?_, ?_, ?_⟩
    · rw [repeatedBurn_eq_none.2 h.1] at hdup
      cases hdup
    · rw [trace, hrun]
      rfl
    · rw [final, others, trace, hrun]
      rfl
    · rw [result, hrun]
      exact fun _ h => by cases h
  | none =>
    have hrun := c.run_eq hdup
    have htakes : c.Takes ↔ c.request.keys.Nodup ∧
        ∀ key ∈ c.request.keys, Free (afterAll c.start (c.env 0).meanwhile) key := by
      refine and_congr_right fun _ => forall_congr' fun k => forall_congr' fun hk => ?_
      exact ⟨fun h => h.same ((c.env 0).read hk), fun h => h.same ((c.env 0).read hk).symm⟩
    have hgrants : c.Takes → ∃ records, (claimBurns (afterAll c.start (c.env 0).meanwhile) c.request.keys (c.env 0).now
        (c.env 0).fails).1 = .ok (.claimed records) := by
      intro h
      rw [(c.env 0).works]
      exact claimBurns_granted (htakes.1 h).1 (htakes.1 h).2 (c.env 0).fits
    rcases claimBurns_cases (afterAll c.start (c.env 0).meanwhile) c.request.keys (c.env 0).now (c.env 0).fails with
      ⟨records, l', heq, htook⟩ | ⟨r, heq⟩ | ⟨e, heq⟩
    · exact .inr ⟨htakes.2 (claimBurns_free heq), c.posted_of_claim hdup heq htook⟩
    · rw [heq] at hrun hgrants
      refine .inl ⟨fun h => ?_, c.refused_of_claim (congrArg Prod.fst hrun) (congrArg (·.2.2) hrun) rfl fun _ h => ?_⟩
      · obtain ⟨records, h⟩ := hgrants h
        cases h
      · cases h
    · rw [heq] at hrun hgrants
      refine .inl ⟨fun h => ?_, c.refused_of_claim (congrArg Prod.fst hrun) (congrArg (·.2.2) hrun) rfl fun _ h => ?_⟩
      · obtain ⟨records, h⟩ := hgrants h
        cases h
      · cases h

end Submission

namespace Ended
variable {circle : CircleClient} {K : List BurnKey} {done : Except ListenerError Attempt} {polls : List Exchange}
  {res : Except SubmitError SubmitOutcome} {plan : Plan}

/-- Nothing is posted after the retry loop. -/
theorem no_post (h : Ended circle K done polls res plan) : polls.filterMap Exchange.post? = [] := by
  rw [List.filterMap_eq_nil_iff]
  intro x hx
  cases h with
  | recovered conflict id polls result target hasId polled not final =>
    obtain ⟨reply, rfl⟩ := polled x hx
    rfl
  | _ => cases hx

/-- Only the last answer is looked at when burns are given up. -/
theorem of_failed (h : Ended circle K done polls res plan) {key : BurnKey} (hplan : (plan key).1 = .failed) :
    done = .error (.http 400) := by
  cases h with
  | freed => rfl
  | recovered conflict id polls result target hasId polled not final =>
    rw [namedPlan] at hplan
    split at hplan
    · rcases final with rfl | ⟨rfl, -⟩ <;> cases hplan
    · cases hplan
  | _ => cases hplan

theorem of_rejected (h : Ended circle K done polls res plan) (hdone : done = .error (.http 400)) (key : BurnKey) :
    (plan key).1 = .failed := by
  cases h with
  | failed e other =>
    cases hdone
    exact absurd rfl other
  | freed => rfl
  | _ => cases hdone

theorem of_error (h : Ended circle K done polls res plan) {e : SubmitError} (he : res = .error e) :
    (∀ k, (plan k).1 = .failed) ∨ ∀ k, (plan k).1 = .reconciliationRequired := by
  cases h with
  | failed e other => exact .inr fun _ => rfl
  | freed => exact .inl fun _ => rfl
  | recovered conflict id polls result target hasId polled not final =>
    rcases final with rfl | ⟨-, ⟨outcome, h⟩, -⟩
    · refine .inr fun k => ?_
      rw [namedPlan]
      split <;> rfl
    · rw [h] at he
      cases he
  | _ => cases he

end Ended

namespace Submission

section
variable {c : Submission} {m : Nat} {polls : List Exchange} {plan : Plan}

theorem Posted.posts (h : c.Posted m polls plan) :
    c.posts = (List.range (m + 1)).map fun i => (c.request, c.reply i) := by
  rw [Submission.posts, h.sent, List.filterMap_append, h.ended.no_post, List.append_nil, List.filterMap_map]
  exact congrFun List.filterMap_eq_map _

theorem Refused.posts (h : c.Refused) : c.posts = [] := by
  rw [Submission.posts, h.sent]
  rfl

theorem Posted.status (h : c.Posted m polls plan) {key : BurnKey} (hkey : key ∈ c.request.keys)
    {p : SubmissionStatus → Prop} (hp : InStatus p c.final key) : p (plan key).1 := by
  obtain ⟨r, hr, hps⟩ := hp
  obtain ⟨r', hr', hstatus, -⟩ := h.rows key hkey
  rw [hr] at hr'
  cases hr'
  rwa [← hstatus]

theorem Posted.inStatus (h : c.Posted m polls plan) {key : BurnKey} (hkey : key ∈ c.request.keys) :
    InStatus (· = (plan key).1) c.final key := by
  obtain ⟨r, hr, hstatus, -⟩ := h.rows key hkey
  exact ⟨r, hr, hstatus⟩

end

end Submission

end WithdrawalListener
