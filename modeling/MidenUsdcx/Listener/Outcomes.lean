import MidenUsdcx.Lib.Ran
import MidenUsdcx.Listener.Keys
/-!
# What a run reports, and what the ledger says (`listener/mod.rs:373-418`, `575-658`, `submit.rs:326-463`)

| here | there |
| --- | --- |
| `Outcome.Agrees` | what each `Outcome` says of the burn, as a fact about its row |
| `strays` | a 201 for this burn whose withdrawal is later reported under another burn (`mod.rs:592-603`) |

`submit_withdraw` writes the row before it answers, and `settle` reports what it wrote: but when the status polled after
a 201 names another burn, `settle` reports the burn as blocked and leaves the row `Submitted`, where the same finding
behind a 409 is recorded (`submit.rs:448-457`). `outcome_agrees_iff` says that this is the only way to disagree.

A run that ended is taken apart with the moments it met (`Ran`), because which outcome is reported depends on them.
-/
namespace WithdrawalListener
open Checked Interact Keyed

/-! ## The report and the row -/

/-- What the outcome says of the burn is what its row says, and a burn found submitted was left alone. -/
def Outcome.Agrees (key : BurnKey) (before after : Ledger) : Outcome → Prop
  | .withdrawn _ id status => InRow after key (if status.status = .finalized then .finalized else .submitted) (some id)
  | .conflictRecovered _ id status =>
    InRow after key (if status.status = .finalized then .finalized else .reconciliationRequired) (some id)
  | .reconciliationRequired _ _ => InStatus (· = .reconciliationRequired) after key
  | .alreadySubmitted _ status => InStatus (· = status) after key ∧ after.get? key.text = before.get? key.text

/-! ## The answers that are reported and not recorded -/

section
variable (circle : CircleClient)

/-- A 5xx that was read: the POST is sent again, or the run ends in an error. -/
def isServerError (reply : Reply) : Bool :=
  match received circle reply with
  | .ok response => 500 ≤ response.status && response.status ≤ 599
  | .error _ => false

/-- The status of a 201 for one batch that names the burn. -/
def createdFor (burnTxId : String) (reply : Reply) : Option WithdrawalStatus :=
  match received circle reply with
  | .error _ => none
  | .ok response =>
    if response.status = 201 then match circle.serde.statuses response.body with
      | some [status] => if eqIgnoreAsciiCase burnTxId status.burnTxId.asStr then some status else none
      | _ => none
    else none

/-- The status that polling this withdrawal stops on. -/
def stopsOn (id : Uuid) : List Reply → Option WithdrawalStatus
  | [] => none
  | reply :: later =>
    match statusOf circle id reply with
    | .error _ => none
    | .ok status =>
      if status.status.isRetryable || status.status == .finalized || status.status == .failed then some status
      else stopsOn id later

/-- After any 5xx the POST is answered 201 for this burn, and the polls that follow stop on a status of another. The
moment between the answer and the polls is the ledger's. -/
def strays (burnTxId : String) (replies : List Reply) : Bool :=
  match replies.dropWhile (isServerError circle) with
  | created :: _ :: polls =>
    (createdFor circle burnTxId created).any fun status =>
      (stopsOn circle status.withdrawalId polls).any fun last => !eqIgnoreAsciiCase last.burnTxId.asStr burnTxId
  | _ => false

end

def replies {key : BurnKey} (env : List (OutsideMoment key)) : List Reply := env.map (·.reply)

/-! ## Taking a run apart -/

section
variable {key : BurnKey} {circle : CircleClient} {request : WithdrawRequest} {env env' : List (OutsideMoment key)}
  {l l' : Ledger}

theorem returned_attempt {ρ ε α : Type} {f : ε → ρ} {answer : Except ε α} {a : α} :
    Returned (outside key) (attempt f answer) env l a env' l' ↔ answer = .ok a ∧ env = env' ∧ l = l' := by
  cases answer with
  | ok a' =>
    rw [Except.ok.injEq, @eq_comm _ a' a, @eq_comm _ env, @eq_comm _ l]
    exact returned_pure
  | error e =>
    refine ⟨fun h => absurd h returned_throw, ?_⟩
    rintro ⟨h, -⟩
    cases h

theorem ran_attempt_error {ρ ε α : Type} {f : ε → ρ} {answer : Except ε α} {e : ρ}
    (h : Ran (outside key) (attempt f answer).run env l (.error e) env' l') :
    (∃ e', answer = .error e' ∧ e = f e') ∧ env' = env ∧ l' = l := by
  cases answer with
  | ok a => cases (ran_ret.1 h).1
  | error e' =>
    obtain ⟨heq, rfl, rfl⟩ := ran_ret.1 h
    cases heq
    exact ⟨⟨e', rfl, rfl⟩, rfl, rfl⟩

/-- A call that no ledger answers leaves the row as it was. -/
theorem outside_row {m : OutsideMoment key} : (afterAll l m.meanwhile).get? key.text = l.get? key.text :=
  afterAll_other m.elsewhere

theorem returned_pollStatusFrom {id : Uuid} {status : WithdrawalStatus} {left : Nat}
    (h : Returned (outside key) (pollStatusFrom circle id left) env l status env' l') :
    stopsOn circle id (replies env) = some status ∧ l'.get? key.text = l.get? key.text := by
  induction left generalizing env l with
  | zero => exact absurd h returned_throw
  | succ left ih =>
    obtain ⟨polled, es₁, s₁, honce, hrest⟩ := returned_bind.1 h
    obtain ⟨m, rest, rfl, hattempt⟩ := ran_call_bind.1 honce
    obtain ⟨hstatus, rfl, rfl⟩ := returned_attempt.1 hattempt
    simp only [replies, List.map_cons, stopsOn, show statusOf circle id m.reply = .ok polled from hstatus]
    split at hrest
    · rename_i hstop
      obtain ⟨rfl, rfl, rfl⟩ := returned_pure.1 hrest
      exact ⟨if_pos hstop, outside_row⟩
    · rename_i hgoes
      obtain ⟨hstops, hrow⟩ := ih hrest
      exact ⟨(if_neg hgoes).trans hstops, hrow.trans outside_row⟩

theorem isServerError_iff {reply : Reply} : isServerError circle reply = true ↔ ServerError circle reply := by
  unfold isServerError
  constructor
  · intro h
    cases hreceived : received circle reply with
    | error e => rw [hreceived] at h; cases h
    | ok response =>
      rw [hreceived, Bool.and_eq_true, decide_eq_true_eq, decide_eq_true_eq] at h
      obtain ⟨hreply, hlen⟩ := received_ok hreceived
      exact ⟨response.status, response.body, hreply, hlen, h⟩
  · rintro ⟨status, body, rfl, hlen, hlow, hhigh⟩
    simp only [received_of_le hlen, hlow, hhigh, decide_true, Bool.and_self]

/-- The first reply that is not a 5xx comes to `done`, and `rest` follows it. -/
def FirstAnswer (circle : CircleClient) (request : WithdrawRequest) (answers : List Reply) (done : Attempt)
    (rest : List Reply) : Prop :=
  ∃ reply, answers.dropWhile (isServerError circle) = reply :: rest ∧ attemptOf circle request reply = .ok done

/-- The POST that ends the retry loop is the first that is not answered with a 5xx. -/
theorem returned_withBackoffFrom {done : Attempt} {left : Nat}
    (h : Returned (outside key) (withBackoffFrom (attemptWithdraw circle request) left) env l done env' l') :
    FirstAnswer circle request (replies env) done (replies env') ∧ l'.get? key.text = l.get? key.text := by
  -- One attempt that succeeds is no 5xx.
  have hone : ∀ {env : List (OutsideMoment key)} {l : Ledger},
      Returned (outside key) (attemptWithdraw circle request) env l done env' l' →
      FirstAnswer circle request (replies env) done (replies env') ∧ l'.get? key.text = l.get? key.text := by
    intro env l h
    obtain ⟨m, rest, rfl, hattempt⟩ := ran_call_bind.1 h
    obtain ⟨hdone, rfl, rfl⟩ := returned_attempt.1 hattempt
    refine ⟨⟨m.reply, List.dropWhile_cons_of_neg fun hserver => ?_, hdone⟩, outside_row⟩
    obtain ⟨e, he, -⟩ := attemptOf_retryable.2 (isServerError_iff.1 hserver)
    cases he.symm.trans hdone
  induction left generalizing env l with
  | zero => exact hone h
  | succ left ih =>
    rcases returned_tryCatch.1 h with h | ⟨e, es₁, s₁, hfailed, hrest⟩
    · exact hone h
    obtain ⟨m, rest, rfl, hattempt⟩ := ran_call_bind.1 hfailed
    split at hrest
    · rename_i hretry
      obtain ⟨⟨e', he, rfl⟩, rfl, rfl⟩ := ran_attempt_error hattempt
      have hserver : isServerError circle m.reply = true := isServerError_iff.2 (attemptOf_retryable.1 ⟨e, he, hretry⟩)
      obtain ⟨hlast, hrow⟩ := ih hrest
      rw [replies, List.map_cons, FirstAnswer, List.dropWhile_cons_of_pos hserver]
      exact ⟨hlast, hrow.trans outside_row⟩
    · exact absurd hrest returned_throw

/-! ## The ledger's part -/

theorem Outcome.Agrees.congr {outcome : Outcome} {before before' : Ledger} (h : before'.get? key.text = before.get? key.text) :
    outcome.Agrees key before' l ↔ outcome.Agrees key before l := by
  cases outcome with
  | alreadySubmitted burn status => simp only [Outcome.Agrees, h]
  | withdrawn | conflictRecovered | reconciliationRequired => exact Iff.rfl

theorem blocked_congr (h : l'.get? key.text = l.get? key.text) : Blocked l' key ↔ Blocked l key := by
  simp only [Blocked, InStatus, readRecord_congr h]

/-- A recorded status is in the row, with the ID it was recorded with. -/
theorem returned_recordAs {target : SubmissionStatus} {id : Option String} {u : Unit}
    (h : Returned (outside key) (recordAs target key id) env l u env' l') :
    (∃ m, env = m :: env') ∧ ∃ old, InRow l' key target (id <|> old) := by
  obtain ⟨answer, es₁, s₁, hcall, h⟩ := returned_bind.1 h
  obtain ⟨m, rfl, rfl, rfl⟩ := returned_call.1 hcall
  obtain ⟨r, es₂, s₂, hattempt, hret⟩ := returned_bind.1 h
  obtain ⟨-, rfl, rfl⟩ := returned_pure.1 hret
  obtain ⟨hrecorded, rfl, rfl⟩ := returned_attempt.1 hattempt
  refine ⟨⟨m, rfl⟩, ?_⟩
  rcases transition_cases target (afterAll l m.meanwhile) key id m.now m.fails with ⟨before, after, l', heq, hmoved⟩ | ⟨e, heq⟩
  · refine ⟨before.withdrawalId, after, ?_, hmoved.record.1, hmoved.record.2⟩
    show readRecord (transition target (afterAll l m.meanwhile) key id m.now m.fails).2 key = _
    rw [heq]
    exact hmoved.wrote.read
  · have hfailed : (transition target (afterAll l m.meanwhile) key id m.now m.fails).1 = .ok r := hrecorded
    rw [heq] at hfailed
    cases hfailed

/-- Every burn of a request with one burn. -/
theorem returned_markAllReconciliation {u : Unit}
    (h : Returned (outside key) (markAllReconciliation [key]) env l u env' l') :
    InStatus (· = .reconciliationRequired) l' key := by
  obtain ⟨u₁, es₁, s₁, hrecord, hdone⟩ := returned_bind.1 h
  obtain ⟨-, rfl, rfl⟩ := returned_pure.1 hdone
  obtain ⟨-, old, r, hread, hstatus, -⟩ := returned_recordAs hrecord
  exact ⟨r, hread, hstatus⟩

theorem returned_settleNamed {target : SubmissionStatus} {id : Uuid} {u : Unit}
    (h : Returned (outside key) (settleNamed target [key] 0 id) env l u env' l') : InRow l' key target (some id.asStr) := by
  obtain ⟨u₁, es₁, s₁, hrecord, hothers⟩ := returned_bind.1 h
  -- The request has no other burn to block.
  obtain ⟨-, rfl, rfl⟩ := returned_pure.1 hothers
  obtain ⟨-, old, hrow⟩ := returned_recordAs hrecord
  exact hrow

/-! ## The submission -/

/-- What a submission of this burn alone came to: the answers it met, and what it left in the row. -/
inductive Came (circle : CircleClient) (request : WithdrawRequest) (burnTxId : String) (l l' : Ledger)
    (answers rest : List Reply) : SubmitOutcome → Prop
  /-- The claim found the burn, and nothing was written. -/
  | seen (r : SubmissionRecord) (hread : readRecord l (.new burnTxId) = .ok (some r))
      (hblocks : r.status.blocksResubmission = true)
      (hrow : l'.get? (BurnKey.new burnTxId).text = l.get? (BurnKey.new burnTxId).text) :
      Came circle request burnTxId l l' answers rest (.alreadySubmitted r.burnKey.text r.status)
  | created (status : WithdrawalStatus) (recorded : Reply) (hfree : ¬ Blocked l (.new burnTxId))
      (hanswer : FirstAnswer circle request (answers.drop 1) (.created [status]) (recorded :: rest))
      (hnamed : eqIgnoreAsciiCase burnTxId status.burnTxId.asStr = true)
      (hrow : InRow l' (.new burnTxId) .submitted (some status.withdrawalId.asStr)) :
      Came circle request burnTxId l l' answers rest (.submitted [status])
  | recovered (conflict : WithdrawConflict) (id : Uuid) (status : WithdrawalStatus) (later : List Reply)
      (hanswer : FirstAnswer circle request (answers.drop 1) (.conflict conflict) later)
      (hrow : InRow l' (.new burnTxId)
        (if status.status = .finalized then .finalized else .reconciliationRequired) (some id.asStr)) :
      Came circle request burnTxId l l' answers rest (.conflictRecovered id status)
  /-- An answer that cannot be taken for this burn's. -/
  | refused (outcome : SubmitOutcome) (done : Attempt) (later : List Reply)
      (hkind : (∃ echoed, outcome = .reconciliationRequired echoed) ∨
        ∃ echoed, outcome = .conflictEchoMismatch [burnTxId] echoed)
      (hanswer : FirstAnswer circle request (answers.drop 1) done later)
      (hother : ∀ statuses, done = .created statuses → ∃ status ∈ statuses,
        eqIgnoreAsciiCase burnTxId status.burnTxId.asStr = false)
      (hrow : InStatus (· = .reconciliationRequired) l' (.new burnTxId)) :
      Came circle request burnTxId l l' answers rest outcome

theorem echoesOneOf_one (burnTxId echoed : String) : echoesOneOf [burnTxId] echoed = eqIgnoreAsciiCase burnTxId echoed := by
  rw [Bool.eq_iff_iff, echoesOneOf_iff, List.map_singleton, List.mem_singleton, eqIgnoreAsciiCase_iff]
  exact eq_comm

theorem eqIgnoreAsciiCase_comm (a b : String) : eqIgnoreAsciiCase a b = eqIgnoreAsciiCase b a :=
  Bool.eq_iff_iff.2 (by rw [eqIgnoreAsciiCase_iff, eqIgnoreAsciiCase_iff, eq_comm])

end

section
variable {burnTxId : String} {circle : CircleClient} {request : WithdrawRequest}
  {env env' : List (OutsideMoment (.new burnTxId))} {l l₀ l' : Ledger} {answers : List Reply}

theorem FirstAnswer.one {statuses : List WithdrawalStatus} {rest : List Reply} (hburns : request.burns = [burnTxId])
    (h : FirstAnswer circle request answers (.created statuses) rest) : ∃ status, statuses = [status] := by
  obtain ⟨reply, -, hattempt⟩ := h
  have hbatches : request.batches.length = [burnTxId].length := by
    rw [← hburns, WithdrawRequest.burns, List.length_map]
  exact List.length_eq_one_iff.1 ((attemptOf_created hattempt).1.trans hbatches)

/-- A 201 that names the burn is recorded. -/
theorem settleCreated_named {keys : List BurnKey} {status : WithdrawalStatus}
    (hnamed : eqIgnoreAsciiCase burnTxId status.burnTxId.asStr = true) :
    settleCreated keys [burnTxId] [status] =
      ((keys.zip [status]).forM (fun pair => recordAs .submitted pair.1 (some pair.2.withdrawalId.asStr)) >>= fun _ =>
        pure (.submitted [status])) := by
  have hnone : [status].find? (fun s => !echoesOneOf [burnTxId] s.burnTxId.asStr) = none := by
    rw [List.find?_cons_of_neg, List.find?_nil]
    rw [echoesOneOf_one, hnamed]
    exact Bool.false_ne_true
  have hpaired : pairUp [burnTxId] [status] = .ok [status] := by
    have hfind : [status].find? (fun s => eqIgnoreAsciiCase s.burnTxId.asStr burnTxId) = some status :=
      List.find?_cons_of_pos ((eqIgnoreAsciiCase_comm _ _).trans hnamed)
    simp only [pairUp, List.mapM_cons, List.mapM_nil, hfind]
    rfl
  simp only [settleCreated, hnone, hpaired]

/-- A 201: the row is submitted under the status that names the burn, or blocked because none does. -/
theorem returned_settleCreated {status : WithdrawalStatus} {outcome : SubmitOutcome} (hfree : ¬ Blocked l₀ (.new burnTxId))
    (hanswer : FirstAnswer circle request (answers.drop 1) (.created [status]) (replies env))
    (h : Returned (outside (.new burnTxId)) (settleCreated [.new burnTxId] [burnTxId] [status]) env l outcome env' l') :
    Came circle request burnTxId l₀ l' answers (replies env') outcome := by
  cases hnamed : eqIgnoreAsciiCase burnTxId status.burnTxId.asStr with
  | false =>
    rw [settleCreated] at h
    have hstray : [status].find? (fun s => !echoesOneOf [burnTxId] s.burnTxId.asStr) = some status := by
      rw [List.find?_cons_of_pos]
      rw [echoesOneOf_one, hnamed]
      rfl
    simp only [hstray] at h
    obtain ⟨u, es₁, s₁, hmark, hdone⟩ := returned_bind.1 h
    obtain ⟨rfl, rfl, rfl⟩ := returned_pure.1 hdone
    refine .refused _ _ _ (.inr ⟨_, rfl⟩) hanswer ?_ (returned_markAllReconciliation hmark)
    rintro statuses heq
    cases heq
    exact ⟨status, List.mem_singleton_self _, hnamed⟩
  | true =>
    rw [settleCreated_named hnamed] at h
    obtain ⟨u, es₁, s₁, hrecords, hdone⟩ := returned_bind.1 h
    obtain ⟨rfl, rfl, rfl⟩ := returned_pure.1 hdone
    obtain ⟨u₁, es₂, s₂, hrecord, hrest⟩ := returned_bind.1 hrecords
    obtain ⟨-, rfl, rfl⟩ := returned_pure.1 hrest
    obtain ⟨⟨m, rfl⟩, old, hrow⟩ := returned_recordAs hrecord
    exact .created status m.reply hfree hanswer hnamed hrow

/-- A 409: the row is settled under the withdrawal it names, or blocked. -/
theorem returned_recoverConflict {conflict : WithdrawConflict} {outcome : SubmitOutcome}
    (hanswer : FirstAnswer circle request (answers.drop 1) (.conflict conflict) (replies env))
    (h : Returned (outside (.new burnTxId)) (recoverConflict circle [.new burnTxId] [burnTxId] conflict) env l outcome env'
      l') : Came circle request burnTxId l₀ l' answers (replies env') outcome := by
  have hnot : ∀ statuses, Attempt.conflict conflict = .created statuses → ∃ status ∈ statuses,
      eqIgnoreAsciiCase burnTxId status.burnTxId.asStr = false := fun _ heq => by cases heq
  rw [recoverConflict] at h
  split at h
  · obtain ⟨u, es₁, s₁, hmark, hdone⟩ := returned_bind.1 h
    obtain ⟨rfl, rfl, rfl⟩ := returned_pure.1 hdone
    exact .refused _ _ _ (.inr ⟨_, rfl⟩) hanswer hnot (returned_markAllReconciliation hmark)
  · rename_i index hindex
    -- The position is one of a list of one burn.
    obtain rfl : index = 0 := by
      obtain ⟨hlt, -⟩ := List.findIdx?_eq_some_iff_getElem.1 hindex
      exact Nat.lt_one_iff.1 hlt
    split at h
    · obtain ⟨u, es₁, s₁, hmark, hdone⟩ := returned_bind.1 h
      obtain ⟨rfl, rfl, rfl⟩ := returned_pure.1 hdone
      exact .refused _ _ _ (.inl ⟨_, rfl⟩) hanswer hnot (returned_markAllReconciliation hmark)
    · rename_i id hid
      obtain ⟨polled, es₁, s₁, -, h⟩ := returned_bind.1 h
      cases polled with
      | error e =>
        obtain ⟨u, es₂, s₂, -, hthrow⟩ := returned_bind.1 h
        exact absurd hthrow returned_throw
      | ok status =>
        rw [settleRecovered] at h
        split at h
        · obtain ⟨u, es₂, s₂, hnamed, hdone⟩ := returned_bind.1 h
          obtain ⟨rfl, rfl, rfl⟩ := returned_pure.1 hdone
          exact .recovered conflict id status _ hanswer (returned_settleNamed hnamed)
        · obtain ⟨u, es₂, s₂, hblock, hdone⟩ := returned_bind.1 h
          obtain ⟨rfl, rfl, rfl⟩ := returned_pure.1 hdone
          obtain ⟨r, hread, hstatus, -⟩ := returned_settleNamed hblock
          exact .refused _ _ _ (.inr ⟨_, rfl⟩) hanswer hnot ⟨r, hread, hstatus⟩

theorem returned_submitWithdraw {outcome : SubmitOutcome} (hburns : request.burns = [burnTxId])
    (h : Returned (outside (.new burnTxId)) (submitWithdraw circle request) env l outcome env' l') :
    Came circle request burnTxId l l' (replies env) (replies env') outcome := by
  have hkeys : request.keys = [.new burnTxId] := by rw [WithdrawRequest.keys, hburns, List.map_singleton]
  rw [submitWithdraw, hkeys, hburns] at h
  split at h
  · exact absurd h returned_throw
  obtain ⟨answer, es₁, s₁, hcall, h⟩ := returned_bind.1 h
  obtain ⟨m, rfl, rfl, rfl⟩ := returned_call.1 hcall
  obtain ⟨claim, es₂, s₂, hattempt, h⟩ := returned_bind.1 h
  obtain ⟨hclaim, rfl, rfl⟩ := returned_attempt.1 hattempt
  have hread : readRecord (afterAll l m.meanwhile) (.new burnTxId) = readRecord l (.new burnTxId) :=
    readRecord_congr outside_row
  rcases claimBurns_cases (afterAll l m.meanwhile) [.new burnTxId] m.now m.fails with
    ⟨records, claimed, heq, -⟩ | ⟨r, heq⟩ | ⟨e, heq⟩
  · have hfree : Free l (.new burnTxId) := ((claimBurns_free heq).2 _ (List.mem_singleton_self _)).same hread.symm
    have hstep : (outside (.new burnTxId)).step (.claimBurns [.new burnTxId]) m l = (.ok (.claimed records), claimed) := heq
    rw [hstep] at hclaim
    cases hclaim
    obtain ⟨done, es₃, s₃, hposted, h⟩ := returned_bind.1 h
    have hposted := returned_lift.1 hposted
    cases done with
    | error e =>
      obtain ⟨u, es₄, s₄, -, hthrow⟩ := returned_bind.1 h
      exact absurd hthrow returned_throw
    | ok done =>
      obtain ⟨hanswer, -⟩ := returned_withBackoffFrom hposted
      cases done with
      | created statuses =>
        obtain ⟨status, rfl⟩ := hanswer.one hburns
        exact returned_settleCreated hfree.not_blocked hanswer h
      | conflict conflict => exact returned_recoverConflict hanswer h
  · have hstep : (outside (.new burnTxId)).step (.claimBurns [.new burnTxId]) m l =
        (.ok (.alreadySeen r), afterAll l m.meanwhile) := heq
    rw [hstep] at hclaim h
    cases hclaim
    obtain ⟨rfl, rfl, rfl⟩ := returned_pure.1 h
    have hseen := claimBurns_seen (congrArg Prod.fst heq)
    exact .seen r (hread.symm.trans hseen.1) hseen.2 outside_row
  · have hstep : (outside (.new burnTxId)).step (.claimBurns [.new burnTxId]) m l = (.error e, afterAll l m.meanwhile) := heq
    rw [hstep] at hclaim
    cases hclaim

/-! ## The last poll -/

theorem statusOf_id {id : Uuid} {reply : Reply} {status : WithdrawalStatus} (h : statusOf circle id reply = .ok status) :
    status.withdrawalId.asStr = id.asStr := by
  obtain ⟨response, -, h⟩ := bind_ok.1 h
  split at h
  · obtain ⟨decoded, -, h⟩ := bind_ok.1 h
    obtain ⟨hid, h⟩ := ensure_bind_ok.1 h
    cases h
    exact hid
  · split at h <;> cases h

theorem stopsOn_id {id : Uuid} {status : WithdrawalStatus} (h : stopsOn circle id answers = some status) :
    status.withdrawalId.asStr = id.asStr := by
  induction answers with
  | nil => cases h
  | cons reply later ih =>
    rw [stopsOn] at h
    split at h
    · cases h
    · rename_i polled hpolled
      split at h
      · cases h
        exact statusOf_id hpolled
      · exact ih h

theorem createdFor_created {reply : Reply} {status : WithdrawalStatus}
    (h : attemptOf circle request reply = .ok (.created [status])) :
    createdFor circle burnTxId reply =
      if eqIgnoreAsciiCase burnTxId status.burnTxId.asStr then some status else none := by
  obtain ⟨-, body, rfl, hlen, hstatuses⟩ := attemptOf_created h
  simp only [createdFor, received_of_le hlen, hstatuses, if_true]

theorem createdFor_conflict {reply : Reply} {conflict : WithdrawConflict}
    (h : attemptOf circle request reply = .ok (.conflict conflict)) : createdFor circle burnTxId reply = none := by
  obtain ⟨body, rfl, hlen, -⟩ := attemptOf_conflict h
  simp only [createdFor, received_of_le hlen]
  rfl

/-- An answer that is no 201 for this burn does not stray. -/
theorem FirstAnswer.not_strays {done : Attempt} {rest : List Reply} (hburns : request.burns = [burnTxId])
    (h : FirstAnswer circle request answers done rest)
    (hother : ∀ statuses, done = .created statuses → ∃ status ∈ statuses,
      eqIgnoreAsciiCase burnTxId status.burnTxId.asStr = false) : strays circle burnTxId answers = false := by
  obtain ⟨reply, hreply, hattempt⟩ := h
  have hnone : createdFor circle burnTxId reply = none := by
    cases done with
    | created statuses =>
      obtain ⟨status, rfl⟩ := FirstAnswer.one hburns ⟨reply, hreply, hattempt⟩
      obtain ⟨named, hnamed, hecho⟩ := hother _ rfl
      obtain rfl := List.mem_singleton.1 hnamed
      rw [createdFor_created hattempt, hecho]
      rfl
    | conflict conflict => exact createdFor_conflict hattempt
  rw [strays, hreply]
  cases rest with
  | nil => rfl
  | cons recorded polls => simp only [hnone, Option.any_none]

/-- After a 201 that was recorded, `settle` agrees with the row exactly if the polls stop on a status of this burn. -/
theorem returned_settle_created {ctx : RunContext} {status : WithdrawalStatus} {outcome : Outcome}
    (hrow : InRow l (.new burnTxId) .submitted (some status.withdrawalId.asStr))
    (h : Returned (outside (.new burnTxId)) (settle ctx burnTxId (.submitted [status])) env l outcome env' l') :
    ∃ last, stopsOn ctx.circle status.withdrawalId (replies env) = some last ∧
      (outcome.Agrees (.new burnTxId) l₀ l' ↔ eqIgnoreAsciiCase last.burnTxId.asStr burnTxId = true) := by
  obtain ⟨created, es₁, s₁, hhead, h⟩ := returned_bind.1 h
  obtain ⟨hcreated, rfl, rfl⟩ := returned_attempt.1 hhead
  obtain rfl : status = created := Option.some.inj (orThrow_ok.1 hcreated)
  obtain ⟨last, es₂, s₂, hpolled, h⟩ := returned_bind.1 h
  obtain ⟨hstops, hkept⟩ := returned_pollStatusFrom (returned_adapt.1 hpolled)
  obtain ⟨r, hread, hsubmitted, hid⟩ := hrow
  have hread : readRecord s₂ (.new burnTxId) = .ok (some r) := (readRecord_congr hkept).trans hread
  refine ⟨last, hstops, ?_⟩
  split at h
  · rename_i hecho
    refine iff_of_true ?_ hecho
    split at h
    · rename_i hfinal
      obtain ⟨u, es₃, s₃, hrecord, h⟩ := returned_bind.1 h
      obtain ⟨rfl, rfl, rfl⟩ := returned_pure.1 h
      obtain ⟨-, old, hrow⟩ := returned_recordAs (returned_adapt.1 hrecord)
      rw [Outcome.Agrees, if_pos hfinal, ← stopsOn_id hstops]
      exact hrow
    · rename_i hopen
      obtain ⟨rfl, rfl, rfl⟩ := returned_pure.1 h
      rw [Outcome.Agrees, if_neg hopen]
      exact ⟨r, hread, hsubmitted, hid⟩
  · rename_i hother
    obtain ⟨rfl, rfl, rfl⟩ := returned_pure.1 h
    refine iff_of_false ?_ hother
    -- The row is still submitted.
    rintro ⟨found, hfound, hstatus⟩
    cases hread.symm.trans hfound
    cases hsubmitted.symm.trans hstatus

/-- What `settle` reports agrees with the row, unless the polls after a 201 stop on a status of another burn. -/
theorem returned_settle {ctx : RunContext} {submitted : SubmitOutcome} {outcome : Outcome}
    (hburns : request.burns = [burnTxId]) (hcame : Came ctx.circle request burnTxId l₀ l answers (replies env) submitted)
    (h : Returned (outside (.new burnTxId)) (settle ctx burnTxId submitted) env l outcome env' l') :
    outcome.Agrees (.new burnTxId) l₀ l' ↔
      ¬ (¬ Blocked l₀ (.new burnTxId) ∧ strays ctx.circle burnTxId (answers.drop 1) = true) := by
  cases hcame with
  | seen r hread hblocks hrow =>
    obtain ⟨rfl, rfl, rfl⟩ := returned_pure.1 h
    refine iff_of_true ⟨⟨r, ?_, rfl⟩, hrow⟩ fun hstrays => hstrays.1 ⟨r, hread, hblocks⟩
    rw [readRecord_congr hrow, hread]
  | recovered conflict id status later hanswer hrow =>
    obtain ⟨rfl, rfl, rfl⟩ := returned_pure.1 h
    refine iff_of_true hrow fun hstrays => ?_
    rw [hanswer.not_strays hburns fun _ heq => by cases heq] at hstrays
    cases hstrays.2
  | refused _ done later hkind hanswer hother hrow =>
    have hagrees : outcome.Agrees (.new burnTxId) l₀ l' := by
      rcases hkind with ⟨echoed, rfl⟩ | ⟨echoed, rfl⟩
      · obtain ⟨rfl, rfl, rfl⟩ := returned_pure.1 h
        exact hrow
      · obtain ⟨rfl, rfl, rfl⟩ := returned_pure.1 h
        exact hrow
    refine iff_of_true hagrees fun hstrays => ?_
    rw [hanswer.not_strays hburns hother] at hstrays
    cases hstrays.2
  | created status recorded hfree hanswer hnamed hrow =>
    obtain ⟨last, hstops, hagrees⟩ := returned_settle_created hrow h
    have hstrays : strays ctx.circle burnTxId (answers.drop 1) = !eqIgnoreAsciiCase last.burnTxId.asStr burnTxId := by
      obtain ⟨reply, hreply, hattempt⟩ := hanswer
      simp only [strays, hreply, createdFor_created hattempt, hnamed, if_true, hstops, Option.any_some]
    rw [hagrees, hstrays, Bool.not_eq_true', not_and, Bool.not_eq_false]
    exact ⟨fun hecho _ => hecho, fun hecho => hecho hfree⟩

end

/-! ## The run -/

theorem runIn_of_returned {key : BurnKey} {ctx : RunContext} {note : DiscoveredNote} {env env' : List (OutsideMoment key)}
    {l l' : Ledger} {outcome : Outcome} (h : Returned (outside key) (runOnce ctx note) env l outcome env' l') :
    runIn key ctx note env l = (some (.ok outcome), l') := by
  have hrun : Prog.run (outside key) (runOnce ctx note).run env l = (some (.ok outcome), env', l') := h
  rw [runIn, hrun]

section
variable {key : BurnKey} {ctx : RunContext} {note : DiscoveredNote} {env : List (OutsideMoment key)} {l : Ledger}
  {outcome : Outcome}

/-- **What a run reports.** In a run that nobody else writes the burn's row in, the outcome agrees with the ledger unless
the burn was free, its POST was answered 201, and the polls stopped on a status of another burn. -/
theorem outcome_agrees_iff (h : (runIn key ctx note env l).1 = some (.ok outcome)) :
    ∃ package, assembleEvidence ctx.crates ctx.evidence note.noteId ctx.config.faucetId = .ok package ∧
      (key = .new package.burnTxId → (outcome.Agrees key l (runIn key ctx note env l).2 ↔
        ¬ (¬ Blocked l key ∧ strays ctx.circle package.burnTxId ((replies env).drop 2) = true))) := by
  have hran : Returned (outside key) (runOnce ctx note) env l outcome
      (Prog.run (outside key) (runOnce ctx note).run env l).2.1 (runIn key ctx note env l).2 :=
    Prod.ext h rfl
  obtain ⟨burn, es₁, s₁, hattempt, hran⟩ := returned_bind.1 hran
  obtain ⟨hburn, rfl, rfl⟩ := returned_attempt.1 hattempt
  obtain ⟨asked, es₁, s₁, hattempt, hran⟩ := returned_bind.1 hran
  obtain ⟨hasked, rfl, rfl⟩ := returned_attempt.1 hattempt
  obtain ⟨response, es₁, s₁, hprepare, hran⟩ := returned_bind.1 hran
  obtain ⟨m, rest, hcons, hprepare⟩ := ran_call_bind.1 (returned_adapt.1 hprepare)
  obtain ⟨hprepared, rfl, rfl⟩ := returned_attempt.1 hprepare
  obtain ⟨cleared, es₂, s₂, hattempt, hran⟩ := returned_bind.1 hran
  obtain ⟨hcleared, rfl, rfl⟩ := returned_attempt.1 hattempt
  obtain ⟨submitted, es₂, s₂, hsubmitted, hsettled⟩ := returned_bind.1 hran
  obtain ⟨_, _, _, _, package, hgated⟩ := clear_ok (validateDiscovery_ok.1 hburn) hasked hprepared hcleared
  refine ⟨package, hgated.evidence, ?_⟩
  rintro rfl
  obtain ⟨htext, hburns⟩ := clear_burnTxId hgated.evidence hcleared
  have hcame := returned_submitWithdraw hburns (returned_adapt.1 hsubmitted)
  rw [htext] at hsettled
  -- Preparing left the row as it was.
  have hrow : ((outside (.new package.burnTxId)).step (.postPrepare asked) m l).2.get? (BurnKey.new package.burnTxId).text =
      l.get? (BurnKey.new package.burnTxId).text := outside_row
  have hanswers : (replies env).drop 2 = (replies rest).drop 1 := by
    rw [hcons]
    rfl
  have hsettles := returned_settle hburns hcame hsettled
  rw [Outcome.Agrees.congr hrow, blocked_congr hrow] at hsettles
  rw [hanswers]
  exact hsettles

end

/-! ## A run that disagrees -/

namespace Stray
open Sample (word intent)

def account (n : UInt8) : Address := ⟨Vector.replicate 20 n⟩

def signature (n : UInt8) : Signature65 := ⟨(Vector.replicate 64 n).push 27⟩

/-- Crates for which the first byte of a signature names its signer. -/
def crates : Crates where
  decodeItems _ := some ⟨0, sampleBytes 0⟩
  tryFromElements _ _ := some ⟨3⟩
  toBytes32 _ := sampleBytes 0
  domainText _ := ""
  transactionIdToHex id := toHex id.bytes.toList
  recoverFromPrehash _ rs _ := rs.head?.map account

/-- The transaction of the burn, and of another. -/
def ownId : HexTxId := ⟨"0x1515151515151515151515151515151515151515151515151515151515151515", by decide⟩
def otherId : HexTxId := ⟨"0x1616161616161616161616161616161616161616161616161616161616161616", by decide⟩

def withdrawal : Uuid := ⟨"11111111-1111-1111-1111-111111111111", by decide⟩

def statusFor (burn : HexTxId) (kind : WithdrawalStatusKind) : WithdrawalStatus where
  withdrawalId := withdrawal
  burnTxId := burn
  status := kind
  attestationPayload := none
  attestation := none
  useCircleForwarding := false
  transactionHash := none
  failureReason := none
  transferSpecHashes := []

/-- The 201 names the burn, and every poll says that another burn's withdrawal is finalized. -/
def answers : Serde where
  prepared _ := some ⟨[⟨[intent], "", word.asStr⟩]⟩
  statuses _ := some [statusFor ownId .created]
  conflict _ := none
  status _ := some (statusFor otherId .finalized)

def context : RunContext where
  crates := crates
  config := ⟨sampleFaucet, 0, 10000, 5, [account 1, account 2]⟩
  circle := ⟨1048576, .new 1, .new 1, answers⟩
  signer _ := .ok [[(account 1, signature 1), (account 2, signature 2)]]
  evidence := sampleReads [sampleRow 21 [11]]

def note : DiscoveredNote := ⟨⟨sampleBytes 1⟩, ⟨0, some ⟨[], 10, ⟨some (⟨1, Nat.le_of_ble_eq_true rfl⟩, ⟨1, Nat.le_of_ble_eq_true rfl⟩)⟩⟩⟩⟩

def key : BurnKey := .new ownId.asStr

def answered (status : UInt16) : OutsideMoment key :=
  { meanwhile := [], now := 0, fails := false, reply := .response status [], elsewhere := fun _ ht => by cases ht }

theorem key_text : key.text = toHex (sampleBytes 21).toList := by
  show ownId.asStr.toLower = _
  have h : ownId.asStr = toHex (sampleBytes 21).toList := by decide
  rw [h]
  exact toHex_toLower _

/-! ### Before the submission -/

theorem discovered : validateDiscovery context.crates note.record context.config = .ok sampleBurn := by decide

def asked : PrepareWithdrawalRequest :=
  ⟨[⟨.usdc, none, some (decimalAmountOf 10), 10000, hex32Of (sampleBytes 0), 0, hex32Of (sampleBytes 0), none, none, false,
    none⟩]⟩

theorem requested : buildPrepareRequest context.crates sampleBurn context.config = .ok asked := rfl

def response : PrepareWithdrawalResponse := ⟨[⟨[intent], "", word.asStr⟩]⟩

theorem prepared : preparedOf context.circle (.response 200 []) = .ok response := rfl

theorem word_decoded : decodeHex32 word.asStr = some (sampleBytes 0) := by decide

theorem validated : validateReturned context.crates context.config sampleBurn response = .ok ⟨[sampleBytes 0]⟩ := by
  refine validateReturned_ok.2 ⟨by decide, .cons ⟨by decide, ?_, by unfold DigestOf; decide⟩ .nil⟩
  intro i hi
  obtain rfl := List.mem_singleton.1 hi
  exact ⟨by decide, by decide, by decide, rfl, word_decoded, word_decoded, ⟨rfl, word_decoded, word_decoded, rfl, rfl⟩⟩

theorem ascending : ¬ account 2 ≤ account 1 :=
  fun h => absurd (show (List.replicate 20 1 : List UInt8) < List.replicate 20 2 by decide) h

def quorum : QuorumBundle := ⟨[signature 1, signature 2]⟩

theorem agreed :
    assembleQuorum context.crates (sampleBytes 0) [(account 1, signature 1), (account 2, signature 2)] = .ok quorum := by
  refine ensure_bind_ok.2 ⟨by decide, ensure_bind_ok.2 ⟨by decide, ?_⟩⟩
  refine bind_ok.2 ⟨(), by decide, bind_ok.2 ⟨(), refuse_ok.2 (by decide), bind_ok.2 ⟨(), refuse_ok.2 ?_, rfl⟩⟩⟩
  simp only [firstDescent, if_neg ascending]
  rfl

def package : EvidencePackage := ⟨ownId.asStr, sampleBytes 1, sampleBytes 11, 5⟩

theorem evidenced :
    assembleEvidence context.crates context.evidence note.noteId context.config.faucetId = .ok package := by decide

theorem one_intent : 1 ≤ [intent].length ∧ [intent].length ≤ 10 := by decide

def request : WithdrawRequest :=
  ⟨[⟨[intent], [(signature 1).toHexBytes, (signature 2).toHexBytes], ownId.asStr, false, one_intent, Nat.le_refl 2⟩],
    ⟨Nat.le_refl 1, Nat.le_add_left 1 4⟩⟩

theorem authorized : authorizeSubmission context.crates request ⟨[sampleBytes 0]⟩ context.config = .ok ⟨request⟩ := by
  refine authorizeSubmission_iff.2 ⟨by decide, rfl, fun entry hentry text htext => ?_, rfl⟩
  obtain rfl := List.mem_singleton.1 hentry
  rcases List.mem_pair.1 htext with rfl | rfl
  · exact ⟨account 1, ⟨signature 1, decode_toHexBytes _, rfl⟩, by decide⟩
  · exact ⟨account 2, ⟨signature 2, decode_toHexBytes _, rfl⟩, by decide⟩

theorem cleared : clear context note.noteId sampleBurn asked response = .ok (ownId.asStr, ⟨request⟩) := by
  simp only [clear, bind_ok, mapError_ok, sole_ok, pure_ok]
  exact ⟨_, validated, _, rfl, _, rfl, _, rfl, _, rfl, _, rfl, _, agreed, _, evidenced, _, rfl, _, rfl, _, authorized, rfl⟩

/-! ### The submission, and the poll after it -/

theorem free : Free .empty key := by
  refine .inl ⟨rfl, ?_⟩
  rw [key_text]
  decide

theorem fits : Fits 0 := by
  unfold Fits
  decide

theorem named : eqIgnoreAsciiCase ownId.asStr ownId.asStr = true := eqIgnoreAsciiCase_iff.2 rfl

theorem other_named : eqIgnoreAsciiCase otherId.asStr ownId.asStr = false := by decide +kernel

theorem returned_submit : ∃ l', Returned (outside key) (submitWithdraw context.circle request)
    [answered 0, answered 201, answered 0, answered 200] .empty (.submitted [statusFor ownId .created])
    [answered 200] l' ∧ InRow l' key .submitted (some withdrawal.asStr) := by
  obtain ⟨records, hclaim⟩ := claimBurns_granted (List.nodup_singleton key)
    (fun k hk => List.mem_singleton.1 hk ▸ free) fits
  obtain ⟨records', claimed, heq, htook⟩ | ⟨r, heq⟩ | ⟨e, heq⟩ := claimBurns_cases .empty [key] 0 false
  · obtain ⟨r, htook⟩ := htook.took key (List.mem_singleton_self _)
    obtain ⟨r', l', hrecorded, hmoved⟩ := transition_granted .submitted (some withdrawal.asStr) htook.read
      (by rw [htook.pending]; rfl) fits
    refine ⟨l', ?_, r', hmoved.wrote.read, hmoved.record.1, hmoved.record.2⟩
    have hkeys : request.keys = [key] := rfl
    have hstep : (outside key).step (.claimBurns [key]) (answered 0) .empty = (.ok (.claimed records'), claimed) := heq
    have hrecord : Returned (outside key) (recordAs .submitted key (some withdrawal.asStr))
        [answered 0, answered 200] claimed () [answered 200] l' :=
      returned_bind.2 ⟨_, _, _, returned_call.2 ⟨answered 0, rfl, rfl, rfl⟩, returned_bind.2 ⟨r', _, _,
        returned_attempt.2 ⟨congrArg Prod.fst hrecorded, rfl, rfl⟩,
        returned_pure.2 ⟨rfl, rfl, (congrArg Prod.snd hrecorded).symm⟩⟩⟩
    have hcreated : Returned (outside key) (settleCreated [key] [ownId.asStr] [statusFor ownId .created])
        [answered 0, answered 200] claimed (.submitted [statusFor ownId .created]) [answered 200] l' := by
      rw [settleCreated_named named]
      exact returned_bind.2 ⟨(), _, _, returned_bind.2 ⟨(), _, _, hrecord, returned_pure.2 ⟨rfl, rfl, rfl⟩⟩,
        returned_pure.2 ⟨rfl, rfl, rfl⟩⟩
    -- The one POST is answered with a 201 for this burn.
    have hposted : Ran (outside key) (withBackoff context.circle (attemptWithdraw context.circle request)).run
        [answered 201, answered 0, answered 200] claimed (.ok (.created [statusFor ownId .created]))
        [answered 0, answered 200] claimed :=
      ran_call_bind.2 ⟨answered 201, _, rfl, returned_attempt.2 ⟨rfl, rfl, rfl⟩⟩
    rw [submitWithdraw, hkeys]
    show Returned (outside key) (_ >>= _) _ _ _ _ _
    refine returned_bind.2 ⟨.ok (.claimed records'), _, claimed, returned_call.2 ⟨answered 0, rfl,
      (congrArg Prod.fst hstep).symm, (congrArg Prod.snd hstep).symm⟩, ?_⟩
    refine returned_bind.2 ⟨.claimed records', _, claimed, returned_attempt.2 ⟨rfl, rfl, rfl⟩, ?_⟩
    exact returned_bind.2 ⟨.ok (.created [statusFor ownId .created]), _, claimed, returned_lift.2 hposted, hcreated⟩
  · rw [heq] at hclaim; cases hclaim
  · rw [heq] at hclaim; cases hclaim

/-- Prepared, claimed, posted and answered 201, recorded, polled. -/
def env : List (OutsideMoment key) := [answered 200, answered 0, answered 201, answered 0, answered 200]

theorem returned_run : ∃ l', Returned (outside key) (runOnce context note) env .empty
    (.reconciliationRequired ownId.asStr (.echoMismatch otherId.asStr)) [] l' ∧
      InRow l' key .submitted (some withdrawal.asStr) := by
  obtain ⟨l', hsubmit, r, hread, hrow⟩ := returned_submit
  refine ⟨l', ?_, r, hread, hrow⟩
  refine returned_bind.2 ⟨sampleBurn, _, _, returned_attempt.2 ⟨discovered, rfl, rfl⟩, ?_⟩
  refine returned_bind.2 ⟨asked, _, _, returned_attempt.2 ⟨requested, rfl, rfl⟩, ?_⟩
  refine returned_bind.2 ⟨response, _, _, returned_adapt.2 (ran_call_bind.2 ⟨answered 200, _, rfl,
    returned_attempt.2 ⟨prepared, rfl, rfl⟩⟩), ?_⟩
  refine returned_bind.2 ⟨(ownId.asStr, ⟨request⟩), _, _, returned_attempt.2 ⟨cleared, rfl, rfl⟩, ?_⟩
  refine returned_bind.2 ⟨_, _, _, returned_adapt.2 hsubmit, ?_⟩
  refine returned_bind.2 ⟨statusFor ownId .created, _, _, returned_attempt.2 ⟨rfl, rfl, rfl⟩, ?_⟩
  refine returned_bind.2 ⟨statusFor otherId .finalized, _, _, returned_adapt.2 (returned_bind.2
    ⟨statusFor otherId .finalized, _, _, ran_call_bind.2 ⟨answered 200, _, rfl, returned_attempt.2 ⟨rfl, rfl, rfl⟩⟩,
      returned_pure.2 ⟨rfl, rfl, rfl⟩⟩), ?_⟩
  show Returned (outside key) (if eqIgnoreAsciiCase otherId.asStr ownId.asStr = true then _ else _) _ _ _ _ _
  rw [other_named]
  exact returned_pure.2 ⟨rfl, rfl, rfl⟩

end Stray

/-- The status polled after the 201 names another burn: the run reports the burn as blocked, and the ledger has it as
submitted. -/
theorem stray_status_unrecorded :
    (runIn Stray.key Stray.context Stray.note Stray.env .empty).1 =
        some (.ok (.reconciliationRequired Stray.ownId.asStr (.echoMismatch Stray.otherId.asStr))) ∧
      InStatus (· = .submitted) (runIn Stray.key Stray.context Stray.note Stray.env .empty).2 Stray.key ∧
      ¬ Outcome.Agrees Stray.key .empty (runIn Stray.key Stray.context Stray.note Stray.env .empty).2
        (.reconciliationRequired Stray.ownId.asStr (.echoMismatch Stray.otherId.asStr)) := by
  obtain ⟨l', hrun, r, hread, hstatus, -⟩ := Stray.returned_run
  rw [runIn_of_returned hrun]
  refine ⟨rfl, ⟨r, hread, hstatus⟩, ?_⟩
  rintro ⟨found, hfound, hblocked⟩
  cases hread.symm.trans hfound
  cases hstatus.symm.trans hblocked

theorem outcome_agrees_iff_stray :
    ¬ Blocked .empty Stray.key ∧ strays Stray.context.circle Stray.ownId.asStr ((replies Stray.env).drop 2) = true := by
  obtain ⟨l', hrun, r, hread, hstatus, -⟩ := Stray.returned_run
  obtain ⟨package, hpackage, hiff⟩ := outcome_agrees_iff (congrArg Prod.fst (runIn_of_returned hrun))
  obtain rfl : Stray.package = package := Except.ok.inj (Stray.evidenced.symm.trans hpackage)
  rw [runIn_of_returned hrun] at hiff
  refine Classical.not_not.1 fun hno => ?_
  obtain ⟨found, hfound, hblocked⟩ := (hiff rfl).2 hno
  cases hread.symm.trans hfound
  cases hstatus.symm.trans hblocked

end WithdrawalListener
