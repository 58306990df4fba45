import MidenUsdcx.Listener.Submission
/-!
# What a submission may say of its burns (`submit.rs`)

Two results about every call of `submit_withdraw`, both read off `posted_cases`:

* `freed_rightly_iff`: when a burn can be claimed again although an answer left open whether Circle acted.
  `settle_failure` (`submit.rs:471`) sees only the last error of the retry loop, so a 400 frees the burns also
  after a 5xx, which the same function blocks them for when it comes last.
* `submission_attributed`: which outcome, status and ID each burn can get, and by which answer.
-/
namespace WithdrawalListener
open Checked Interact Keyed

/-! ## Which burns may be claimed again -/

/-- The answer leaves open whether Circle acted: it is not a 400 that was read. -/
def LeavesOpen (circle : CircleClient) (reply : Reply) : Prop := ¬ Rejected circle reply

/-- A burn is given up only when no answer leaves open whether Circle acted, and any other failure after a POST blocks
every burn. -/
structure FreedRightly (c : Submission) : Prop where
  freed : (∃ key ∈ c.request.keys, InStatus (· = .failed) c.final key) →
    ∀ post ∈ c.posts, ¬ LeavesOpen c.circle post.2
  blocked : ∀ e, c.result = .error e → c.posts ≠ [] →
    (∀ key ∈ c.request.keys, InStatus (· = .failed) c.final key) ∨
      ∀ key ∈ c.request.keys, InStatus (· = .reconciliationRequired) c.final key

/-- The claim is granted and, within the attempts of the policy, one or more 5xx are followed by a 400. -/
def RejectedAfterServerError (c : Submission) : Prop :=
  c.Takes ∧ ∃ k, 0 < k ∧ k < c.circle.retry.maxAttempts.toNat ∧ (∀ i < k, ServerError c.circle (c.reply i)) ∧
    Rejected c.circle (c.reply k)

section
variable {c : Submission} {m : Nat} {polls : List Exchange} {plan : Plan}

/-- The retry loop stops at the first 400. -/
theorem Submission.Posted.stops_at (h : c.Posted m polls plan) {k : Nat} (hk : k < c.circle.retry.maxAttempts.toNat)
    (hbefore : ∀ i < k, ServerError c.circle (c.reply i)) (hrejected : Rejected c.circle (c.reply k)) : m = k := by
  rcases Nat.lt_trichotomy m k with hlt | heq | hgt
  · exact absurd (hbefore m hlt) (h.stopped (by omega))
  · exact heq
  · exact absurd (h.retried k hgt) hrejected.not_serverError

theorem keys_ne_nil (request : WithdrawRequest) : ∃ key, key ∈ request.keys := by
  apply List.exists_mem_of_length_pos
  rw [WithdrawRequest.keys, WithdrawRequest.burns, List.length_map, List.length_map]
  exact request.batchCount.1

/-- A 400 after a 5xx frees the burns. -/
theorem not_freedRightly (h : RejectedAfterServerError c) : ¬ FreedRightly c := by
  intro hright
  obtain ⟨htakes, k, hpos, hk, hbefore, hrejected⟩ := h
  rcases c.posted_cases with ⟨hno, -⟩ | ⟨-, m, polls, plan, hposted⟩
  · exact hno htakes
  · obtain rfl := hposted.stops_at hk hbefore hrejected
    obtain ⟨key, hkey⟩ := keys_ne_nil c.request
    have hfailed : InStatus (· = .failed) c.final key :=
      hposted.ended.of_rejected (attemptOf_rejected.2 hrejected) key ▸ hposted.inStatus hkey
    have hfirst := hright.freed ⟨key, hkey, hfailed⟩ (c.request, c.reply 0) (by
      rw [hposted.posts]
      exact List.mem_map_of_mem (List.mem_range.2 (by omega)))
    exact hfirst fun hopen => hopen.not_serverError (hbefore 0 hpos)

end

/-- **Burns that are given up.** Exactly when no 400 follows a 5xx. -/
theorem freed_rightly_iff (c : Submission) : FreedRightly c ↔ ¬ RejectedAfterServerError c := by
  refine ⟨fun hright h => not_freedRightly h hright, fun hno => ⟨?_, ?_⟩⟩
  · rintro ⟨key, hkey, hfailed⟩ post hpost hopen
    rcases c.posted_cases with ⟨-, hrefused⟩ | ⟨htakes, m, polls, plan, hposted⟩
    · rw [hrefused.posts] at hpost
      cases hpost
    · have hrejected := attemptOf_rejected.1 (hposted.ended.of_failed (hposted.status hkey hfailed))
      have hm : m = 0 := by
        by_contra hm
        exact hno ⟨htakes, m, by omega, hposted.bound, hposted.retried, hrejected⟩
      subst hm
      rw [hposted.posts] at hpost
      rw [List.mem_singleton.1 hpost] at hopen
      exact hopen hrejected
  · intro e he hposts
    rcases c.posted_cases with ⟨-, hrefused⟩ | ⟨-, m, polls, plan, hposted⟩
    · exact absurd hrefused.posts hposts
    · refine (hposted.ended.of_error he).imp (fun h key hkey => ?_) (fun h key hkey => ?_)
      · exact h key ▸ hposted.inStatus hkey
      · exact h key ▸ hposted.inStatus hkey

namespace Sample

def word : Hex32 := ⟨"0x0000000000000000000000000000000000000000000000000000000000000000", by decide⟩

def intent : BurnIntent :=
  { maxBlockHeight := ⟨"0", by decide⟩, maxFee := ⟨"1", by decide⟩,
    spec := { version := 1, sourceDomain := 0, destinationDomain := 0, sourceContract := word,
              destinationContract := word, sourceToken := word, destinationToken := word, sourceDepositor := word,
              destinationRecipient := word, sourceSigner := word, destinationCaller := word,
              value := ⟨"9", by decide⟩, salt := word,
              hookData := { remoteDomain := 10000, remoteDepositor := word, remoteToken := word,
                            forwardingContractAddress := ⟨"0x0000000000000000000000000000000000000000", by decide⟩,
                            forwardingCalldata := ⟨"0x", by decide⟩ } } }

/-- One batch for the burn `0xab`. -/
def request : WithdrawRequest :=
  ⟨[⟨[intent], [⟨"0x01", by decide⟩, ⟨"0x02", by decide⟩], "0xab", false, by decide, by decide⟩], by decide⟩

/-- No body decodes. -/
def serde : Serde := ⟨fun _ => none, fun _ => none, fun _ => none, fun _ => none⟩

/-- Two attempts. -/
def circle : CircleClient := ⟨1048576, .new 2, .new 1, serde⟩

def moment (reply : Reply) : QuietMoment request.keys :=
  { meanwhile := [], now := 0, fails := false, reply := reply, works := rfl, fits := by unfold Fits; decide,
    elsewhere := fun _ ht => by cases ht }

/-- The first POST is answered 503, the second 400. -/
def submission : Submission :=
  ⟨circle, request, .empty, fun n => moment (.response (if n = 1 then 503 else 400) [])⟩

theorem takes : submission.Takes := by
  refine ⟨List.nodup_singleton _, fun key hkey => .inl ⟨rfl, ?_⟩⟩
  rw [List.mem_singleton.1 hkey]
  show 0 < sqlLength ("0xab".map Char.toLower)
  rw [sqlLength, String.toList_map]
  decide

end Sample

/-- The 503 may have created the withdrawal, and the burn can be claimed again. -/
theorem rejected_after_503_frees : ¬ FreedRightly Sample.submission :=
  not_freedRightly ⟨Sample.takes, 1, by decide, by decide, by
    intro i hi
    obtain rfl : i = 0 := by omega
    exact ⟨503, [], rfl, by decide, by decide, by decide⟩, [], rfl, by decide⟩

/-! ## What the ledger says of each burn -/

/-- The answer to the last POST, read whole. -/
def Submission.Answered (c : Submission) (status : UInt16) (body : Bytes) : Prop :=
  c.posts.getLast? = some (c.request, .response status body) ∧ body.length ≤ c.circle.maxResponseBytes

/-- The last POST was answered 201 with these statuses. -/
def Submission.Created (c : Submission) (statuses : List WithdrawalStatus) : Prop :=
  ∃ body, c.Answered 201 body ∧ c.circle.serde.statuses body = some statuses

/-- The last POST was answered 409, which named this burn with this ID. -/
def Submission.ConflictNames (c : Submission) (key : BurnKey) (id : Uuid) : Prop :=
  ∃ body conflict, c.Answered 409 body ∧ c.circle.serde.conflict body = some conflict ∧ conflict.key = key ∧
    conflict.withdrawalId = some id

/-- The call's own requests: it claims, records, and posts nothing but its burns. -/
def Call.Within (request : WithdrawRequest) : Call → Prop
  | .claimBurns keys => keys = request.keys
  | .record _ key _ => key ∈ request.keys
  | .postPrepare _ => False
  | .postWithdraw posted => posted = request
  | .getWithdrawal _ => True

structure Attributed (c : Submission) : Prop where
  /-- A burn that is named twice or blocked: nothing is sent and nothing changes. -/
  refused : (¬ c.request.keys.Nodup ∨ ∃ key ∈ c.request.keys, InStatus (·.blocksResubmission = true) c.start key) →
    c.posts = []
  /-- Without a POST, the ledger is what the others made of it. -/
  unchanged : c.posts = [] → c.final = afterAll c.start c.others
  bounded : c.posts.length ≤ c.circle.retry.maxAttempts.toNat
  /-- Only the burns of the request are written, and only the request is posted. -/
  own : ∀ e ∈ c.trace, Call.Within c.request e.op
  /-- Every POST but the last was answered 5xx. -/
  retried : ∀ post ∈ c.posts.dropLast, ServerError c.circle post.2
  /-- `Submitted` is a 201 whose statuses are the burns', each recorded on its own. -/
  submitted : ∀ statuses, c.result = .ok (.submitted statuses) →
    c.Created statuses ∧ (statuses.map (·.key)).Perm c.request.keys ∧
      ∀ status ∈ statuses, InRow c.final status.key .submitted (some status.withdrawalId.asStr)
  /-- A 409 is the last POST and no success. -/
  conflict : ∀ earlier request body later, c.posts = earlier ++ (request, .response 409 body) :: later →
    later = [] ∧ ∀ statuses, c.result ≠ .ok (.submitted statuses)
  /-- A burn becomes `Finalized` through a 409 that named it and a GET that confirmed it. -/
  finalized : ∀ key ∈ c.request.keys, InStatus (· = .finalized) c.final key →
    InStatus (· = .finalized) c.start key ∨ ∃ id, c.ConflictNames key id ∧ PolledFinal c.circle key id (sent c.trace)
  /-- An ID is new on a burn only when Circle named it for this burn. -/
  ids : ∀ key ∈ c.request.keys, ∀ id, idAt c.final key = some id →
    idAt c.start key = some id ∨
      (∃ statuses, c.Created statuses ∧ ∃ status ∈ statuses, status.key = key ∧ status.withdrawalId.asStr = id) ∨
      ∃ uuid, c.ConflictNames key uuid ∧ uuid.asStr = id
  /-- After a POST every burn's row is readable and none is `Pending`. -/
  settled : c.posts ≠ [] → ∀ key ∈ c.request.keys, InStatus (· ≠ .pending) c.final key

section
variable {circle : CircleClient} {request : WithdrawRequest} {ok : Call → Prop}

theorem calls_attempt {ρ ε α : Type} {f : ε → ρ} {answer : Except ε α} : Calls (S := calls) ok (attempt f answer) := by
  cases answer with
  | ok a => exact calls_pure
  | error e => exact calls_throw

theorem calls_recordAs {target : SubmissionStatus} {key : BurnKey} {id : Option String} (hkey : key ∈ request.keys) :
    Calls (Call.Within request) (recordAs target key id) :=
  calls_bind (calls_call hkey) fun _ => calls_bind calls_attempt fun _ => calls_pure

theorem calls_markAllReconciliation : Calls (Call.Within request) (markAllReconciliation request.keys) :=
  calls_forM fun _ hkey => calls_recordAs hkey

theorem calls_settleNamed {target : SubmissionStatus} {index : Nat} {id : Uuid} :
    Calls (Call.Within request) (settleNamed target request.keys index id) := by
  refine calls_bind ?_ fun _ => ?_
  · cases h : request.keys[index]? with
    | none => exact calls_pure
    | some key => exact calls_recordAs (List.mem_of_getElem? h)
  · rw [blockOthers_eq]
    exact calls_forM fun _ hkey => calls_recordAs (List.mem_of_mem_eraseIdx hkey)

theorem calls_pollStatusFrom {id : Uuid} (h : ok (.getWithdrawal id)) :
    ∀ left, Calls (S := calls) ok (pollStatusFrom circle id left)
  | 0 => calls_throw
  | left + 1 => by
    refine calls_bind (calls_bind (calls_call h) fun _ => calls_attempt) fun status => ?_
    split
    · exact calls_pure
    · exact calls_pollStatusFrom h left

theorem calls_settleAttempt {burns : List String} (done : Except ListenerError Attempt) :
    Calls (Call.Within request) (settleAttempt circle request.keys burns done) := by
  have hblocked : ∀ outcome, Calls (Call.Within request) (markAllReconciliation request.keys >>= fun _ =>
      (pure outcome : Task SubmitError SubmitOutcome)) :=
    fun _ => calls_bind calls_markAllReconciliation fun _ => calls_pure
  cases done with
  | error e =>
    refine calls_bind ?_ fun _ => calls_throw
    rw [settleFailure]
    split
    · exact calls_forM fun _ hkey => calls_recordAs hkey
    · exact calls_markAllReconciliation
  | ok done =>
    cases done with
    | created statuses =>
      rw [settleAttempt, settleCreated]
      split
      · exact hblocked _
      · split
        · exact hblocked _
        · refine calls_bind (calls_forM ?_) fun _ => calls_pure
          rintro ⟨key, status⟩ hmem
          exact calls_recordAs (List.of_mem_zip hmem).1
    | conflict conflict =>
      rw [settleAttempt, recoverConflict]
      split
      · exact hblocked _
      · split
        · exact hblocked _
        · refine calls_bind (calls_lift (calls_pollStatusFrom trivial _)) fun polled => ?_
          cases polled with
          | error e => exact calls_bind calls_settleNamed fun _ => calls_throw
          | ok status =>
            rw [settleRecovered]
            split
            · exact calls_bind calls_settleNamed fun _ => calls_pure
            · exact calls_bind calls_settleNamed fun _ => calls_pure

theorem calls_withBackoffFrom : ∀ left,
    Calls (Call.Within request) (withBackoffFrom (attemptWithdraw circle request) left)
  | 0 => calls_bind (calls_call rfl) fun _ => calls_attempt
  | left + 1 => by
    refine calls_tryCatch (calls_bind (calls_call rfl) fun _ => calls_attempt) fun e => ?_
    split
    · exact calls_withBackoffFrom left
    · exact calls_throw

theorem calls_submitWithdraw : Calls (Call.Within request) (submitWithdraw circle request) := by
  rw [submitWithdraw]
  split
  · exact calls_throw
  · refine calls_bind (calls_call rfl) fun _ => calls_bind calls_attempt fun outcome => ?_
    cases outcome with
    | alreadySeen record => exact calls_pure
    | claimed records => exact calls_bind (calls_lift (calls_withBackoffFrom _)) fun done => calls_settleAttempt done

end

namespace Ended
variable {circle : CircleClient} {K : List BurnKey} {done : Except ListenerError Attempt} {polls : List Exchange}
  {res : Except SubmitError SubmitOutcome} {plan : Plan}

theorem of_submitted (h : Ended circle K done polls res plan) {statuses : List WithdrawalStatus}
    (hres : res = .ok (.submitted statuses)) :
    done = .ok (.created statuses) ∧ (statuses.map (·.key)).Perm K ∧ plan = createdPlan statuses := by
  cases h with
  | submitted statuses perm =>
    cases hres
    exact ⟨rfl, perm, rfl⟩
  | blocked conflict result not =>
    cases hres
    exact absurd rfl (not statuses)
  | recovered conflict id polls result target hasId polled not final => exact absurd hres (not statuses)
  | _ => cases hres

theorem of_finalized (h : Ended circle K done polls res plan) {key : BurnKey} (hplan : (plan key).1 = .finalized) :
    ∃ conflict id, done = .ok (.conflict conflict) ∧ conflict.key = key ∧ conflict.withdrawalId = some id ∧
      PolledFinal circle key id polls := by
  cases h with
  | recovered conflict id polls result target hasId polled not final =>
    rw [namedPlan] at hplan
    split at hplan
    · rename_i hkey
      rcases final with rfl | ⟨rfl, -, hfinal⟩
      · cases hplan
      · exact ⟨conflict, id, rfl, hkey.symm, hasId, hkey ▸ hfinal⟩
    · cases hplan
  | _ => cases hplan

theorem of_id (h : Ended circle K done polls res plan) {key : BurnKey} {id : String} (hplan : (plan key).2 = some id) :
    (∃ statuses, done = .ok (.created statuses) ∧
        ∃ status ∈ statuses, status.key = key ∧ status.withdrawalId.asStr = id) ∨
      ∃ conflict uuid, done = .ok (.conflict conflict) ∧ conflict.key = key ∧ conflict.withdrawalId = some uuid ∧
        uuid.asStr = id := by
  cases h with
  | submitted statuses perm =>
    obtain ⟨status, hfind, hid⟩ := Option.map_eq_some_iff.1 hplan
    exact .inl ⟨statuses, rfl, status, List.mem_of_find?_eq_some hfind, by simpa using List.find?_some hfind, hid⟩
  | recovered conflict uuid polls result target hasId polled not final =>
    rw [namedPlan] at hplan
    split at hplan
    · rename_i hkey
      cases hplan
      exact .inr ⟨conflict, uuid, rfl, hkey.symm, hasId, rfl⟩
    · cases hplan
  | _ => cases hplan

theorem not_pending (h : Ended circle K done polls res plan) (key : BurnKey) : (plan key).1 ≠ .pending := by
  cases h with
  | recovered conflict uuid polls result target hasId polled not final =>
    rw [namedPlan]
    split
    · rcases final with rfl | ⟨rfl, -⟩ <;> exact fun h => by cases h
    · exact fun h => by cases h
  | _ => exact fun h => by cases h

end Ended

section
variable {c : Submission} {m : Nat} {polls : List Exchange} {plan : Plan}

theorem Free.not_blocked {l : Ledger} {key : BurnKey} (h : Free l key) :
    ¬ InStatus (·.blocksResubmission = true) l key := by
  rintro ⟨r, hr, hblocks⟩
  rcases h with ⟨hnone, -⟩ | ⟨r', hr', hfailed⟩
  · rw [hr] at hnone
    cases hnone
  · rw [hr] at hr'
    cases hr'
    rw [hfailed] at hblocks
    cases hblocks

theorem Submission.Posted.last (h : c.Posted m polls plan) : c.posts.getLast? = some (c.request, c.reply m) := by
  rw [h.posts, List.range_succ, List.map_append, List.map_singleton, List.getLast?_concat]

theorem Submission.Posted.created (h : c.Posted m polls plan) {statuses : List WithdrawalStatus}
    (hdone : attemptOf c.circle c.request (c.reply m) = .ok (.created statuses)) : c.Created statuses := by
  obtain ⟨-, body, hreply, hlen, hparse⟩ := attemptOf_created hdone
  exact ⟨body, ⟨by rw [h.last, hreply], hlen⟩, hparse⟩

theorem Submission.Posted.names (h : c.Posted m polls plan) {conflict : WithdrawConflict} {id : Uuid}
    (hdone : attemptOf c.circle c.request (c.reply m) = .ok (.conflict conflict)) (hid : conflict.withdrawalId = some id) :
    c.ConflictNames conflict.key id := by
  obtain ⟨body, hreply, hlen, hparse⟩ := attemptOf_conflict hdone
  exact ⟨body, conflict, ⟨by rw [h.last, hreply], hlen⟩, hparse, rfl, hid⟩

theorem Submission.own (c : Submission) : ∀ e ∈ c.trace, Call.Within c.request e.op := by
  have hkeeps : ∀ (o : Call) (e : QuietMoment c.request.keys) (s : RunState), Call.Within c.request o →
      (∀ x ∈ s.2, Call.Within c.request x.op) →
      ∀ x ∈ ((quiet c.request.keys).traced.step o e s).2.2, Call.Within c.request x.op := by
    intro o e s ho hs x hx
    rcases List.mem_cons.1 hx with rfl | hx
    · exact ho
    · exact hs x hx
  exact Prog.Guards.runOn c.env (calls_submitWithdraw.meets hkeeps (fun _ hx => by cases hx))

/-- A refused call leaves the rows of its burns as they were. -/
theorem Submission.Refused.read (h : c.Refused) {key : BurnKey} (hkey : key ∈ c.request.keys) :
    readRecord c.final key = readRecord c.start key := by
  rw [h.final]
  refine readRecord_congr (afterAll_other fun t ht => ?_)
  obtain ⟨i, -, hi⟩ := List.mem_flatMap.1 ht
  exact (c.env i).elsewhere t hi key hkey

theorem Submission.Refused.attributed (h : c.Refused) : Attributed c where
  refused _ := h.posts
  unchanged _ := h.final
  bounded := by
    rw [h.posts]
    exact Nat.zero_le _
  own := c.own
  retried := by
    rw [h.posts]
    exact fun _ hpost => by cases hpost
  submitted statuses hres := absurd hres (h.result statuses)
  conflict := by
    intro earlier request body later hposts
    rw [h.posts] at hposts
    exact absurd hposts.symm (by simp)
  finalized key hkey hfinal := by
    rw [InStatus, h.read hkey] at hfinal
    exact .inl hfinal
  ids key hkey id hid := by
    rw [idAt, h.read hkey] at hid
    exact .inl hid
  settled hposts := absurd h.posts hposts

theorem Submission.Posted.posts_ne_nil (h : c.Posted m polls plan) : c.posts ≠ [] := by
  rw [h.posts, List.range_succ]
  simp

/-- A 409 ends the retry loop. -/
theorem Submission.Posted.conflict_last (h : c.Posted m polls plan) {earlier later : List (WithdrawRequest × Reply)}
    {request : WithdrawRequest} {body : Bytes} (hposts : c.posts = earlier ++ (request, .response 409 body) :: later) :
    later = [] ∧ c.reply m = .response 409 body := by
  have hget : c.posts[earlier.length]? = some (request, .response 409 body) := by
    rw [hposts]
    simp
  have hlen : c.posts.length = m + 1 := by rw [h.posts, List.length_map, List.length_range]
  have hlt : earlier.length < m + 1 := by
    rw [← hlen, hposts]
    simp
  rw [h.posts, List.getElem?_map, List.getElem?_range hlt] at hget
  have hreply : c.reply earlier.length = .response 409 body := congrArg Prod.snd (Option.some.inj hget)
  have hm : earlier.length = m := by
    by_contra hne
    obtain ⟨status, body', heq, -, hlow, -⟩ := h.retried earlier.length (by omega)
    rw [hreply] at heq
    cases heq
    exact absurd hlow (by decide)
  refine ⟨List.eq_nil_of_length_eq_zero ?_, hm ▸ hreply⟩
  rw [hposts, List.length_append, List.length_cons] at hlen
  omega

theorem find?_own {statuses : List WithdrawalStatus} {status : WithdrawalStatus}
    (hnodup : (statuses.map (·.key)).Nodup) (h : status ∈ statuses) :
    statuses.find? (fun s => s.key == status.key) = some status := by
  induction statuses with
  | nil => cases h
  | cons x rest ih =>
    rw [List.map_cons, List.nodup_cons] at hnodup
    rcases List.mem_cons.1 h with rfl | h
    · exact List.find?_cons_of_pos (beq_self_eq_true _)
    · rw [List.find?_cons_of_neg, ih hnodup.2 h]
      intro heq
      exact hnodup.1 (beq_iff_eq.1 heq ▸ List.mem_map_of_mem h)

theorem Submission.Posted.attributed (htakes : c.Takes) (h : c.Posted m polls plan) : Attributed c where
  refused hbad := by
    rcases hbad with hdup | ⟨key, hkey, hblocked⟩
    · exact absurd htakes.1 hdup
    · exact absurd hblocked (htakes.2 key hkey).not_blocked
  unchanged hnone := absurd hnone h.posts_ne_nil
  bounded := by
    rw [h.posts, List.length_map, List.length_range]
    exact h.bound
  own := c.own
  retried post hpost := by
    rw [h.posts, List.range_succ, List.map_append, List.map_singleton, List.dropLast_concat] at hpost
    obtain ⟨i, hi, rfl⟩ := List.mem_map.1 hpost
    exact h.retried i (List.mem_range.1 hi)
  submitted statuses hres := by
    obtain ⟨hdone, hperm, hplan⟩ := h.ended.of_submitted hres
    refine ⟨h.created hdone, hperm, fun status hstatus => ?_⟩
    have hkey : status.key ∈ c.request.keys := hperm.subset (List.mem_map_of_mem hstatus)
    have hrow := h.rows status.key hkey
    rw [hplan, createdPlan, find?_own (hperm.nodup_iff.2 htakes.1) hstatus] at hrow
    exact hrow
  conflict earlier request body later hposts := by
    obtain ⟨hlast, hreply⟩ := h.conflict_last hposts
    refine ⟨hlast, fun statuses hres => ?_⟩
    obtain ⟨-, body', h201, -⟩ := attemptOf_created (h.ended.of_submitted hres).1
    rw [hreply] at h201
    cases h201
  finalized key hkey hfinal := by
    obtain ⟨conflict, id, hdone, rfl, hid, reply, status, hlast, hpolled⟩ := h.ended.of_finalized (h.status hkey hfinal)
    refine .inr ⟨id, h.names hdone hid, reply, status, ?_, hpolled⟩
    rw [h.sent, List.getLast?_append, hlast]
    rfl
  ids key hkey id hid := by
    obtain ⟨r, hr, -, hrow⟩ := h.rows key hkey
    rw [idAt, hr] at hid
    rw [show r.withdrawalId = some id from hid] at hrow
    cases hplan : (plan key).2 with
    | none =>
      rw [hplan] at hrow
      exact .inl hrow.symm
    | some named =>
      rw [hplan] at hrow
      obtain rfl : id = named := Option.some.inj hrow
      rcases h.ended.of_id hplan with ⟨statuses, hdone, hown⟩ | ⟨conflict, uuid, hdone, rfl, huuid, rfl⟩
      · exact .inr (.inl ⟨statuses, h.created hdone, hown⟩)
      · exact .inr (.inr ⟨uuid, h.names hdone huuid, rfl⟩)
  settled _ key hkey := by
    obtain ⟨r, hr, hstatus, -⟩ := h.rows key hkey
    exact ⟨r, hr, hstatus ▸ h.ended.not_pending key⟩

end

/-- **Outcome and attribution.** What a call may say of each burn, and what it is entitled to say it by. -/
theorem submission_attributed (c : Submission) : Attributed c := by
  rcases c.posted_cases with ⟨-, hrefused⟩ | ⟨htakes, m, polls, plan, hposted⟩
  · exact hrefused.attributed
  · exact hposted.attributed htakes

end WithdrawalListener
