import MidenUsdcx.Attester.Calls
/-!
# What a reply can do to a saved request (`submission.rs:178-279`, `407-535`)

`exchange` is one request and what is read of its answer, over the three functions that change the saved request in
place: `send_saved_request`, `read_conflict` and `read_response`. `Moved` lists all it can do to the status, the ID and
the hold reason, and with which replies. `advance_submission` makes one exchange, or two after a conflict, and what it
writes is what they leave.

| here | there |
| --- | --- |
| `kept` | the end of `send_saved_request` (`submission.rs:251-278`), without the flag of a 429 |
| `exchange` | one round of `advance_submission` (`submission.rs:178-220`) |
-/
namespace LightAttester
open Checked Interact Keyed Store

variable {C : Crates} {config : Config}

namespace SavedSubmission

/-- What a request came to, in the saved request. -/
def kept (C : Crates) (saved : SavedSubmission) :
    Except CircleError RawResponse → SavedSubmission × Except FailureClass RawResponse
  | .ok response => (saved.answered response, .ok response)
  | .error (.rateLimited (some body)) => (saved.answered ⟨.tooManyRequests, body⟩, .ok ⟨.tooManyRequests, body⟩)
  | .error e => (saved.unanswered (e.text C), .error e.failure)

/-- A reply to a POST that makes the burn wait. -/
def waits (C : Crates) (config : Config) (reply : RawResponse) : Bool :=
  config.withdrawalLimit.any fun policy => isWithdrawalLimit C reply.status reply.body policy.messagePrefix

/-- What is read of an answer: a limit rejection is left to the store, a conflict to `read_conflict`. -/
def readAnswer (C : Crates) (config : Config) (saved : SavedSubmission) :
    Except FailureClass RawResponse → SavedSubmission
  | .error _ => saved
  | .ok reply =>
    if saved.withdrawalId.isSome then (saved.readResponse C reply).1
    else if waits C config reply then saved
    else if reply.status = .conflict then (saved.readConflict C).1
    else (saved.readResponse C reply).1

def exchange (C : Crates) (config : Config) (saved : SavedSubmission) (result : Except CircleError RawResponse) :
    SavedSubmission := (saved.kept C result).1.readAnswer C config (saved.kept C result).2

/-! ## One exchange -/

/-- The withdrawal of the reply is the saved one: its ID, its note, its one hash, and the ID known before. -/
structure Names (C : Crates) (saved : SavedSubmission) (w : WithdrawalResponse) : Prop where
  id : isWellFormedId w.withdrawalId = true
  note : saved.matchesNote w.burnNoteId = true
  hash : ∃ hash, w.transferSpecHashes = [hash] ∧ C.parseB256 hash = some saved.transferSpecHash
  known : ∀ id, saved.withdrawalId = some id → w.withdrawalId = id

/-- What one reply does to the status, the ID and the hold reason. -/
inductive Moved (C : Crates) (saved out : SavedSubmission) : Except CircleError RawResponse → Prop where
  | same {result : Except CircleError RawResponse} (status : out.status = saved.status)
    (id : out.withdrawalId = saved.withdrawalId) (reason : out.holdReason = saved.holdReason) : Moved C saved out result
  /-- A 400 to a POST without a known ID. -/
  | held {body : Bytes} (unknown : saved.withdrawalId = none) (status : out.status = .held)
    (id : out.withdrawalId = none) (reason : out.holdReason = some .httpRejected) :
    Moved C saved out (.ok ⟨.badRequest, body⟩)
  /-- A 201 to a POST or a 200 to a GET with the saved withdrawal and no other. -/
  | named {body : Bytes} {w : WithdrawalResponse} (single : withdrawalOf C saved.withdrawalId.isSome body = .ok (some w))
    (names : Names C saved w) (id : out.withdrawalId = some w.withdrawalId) (reason : out.holdReason = saved.holdReason)
    (status : out.status = (saved.readStatus w).1.status) :
    Moved C saved out (.ok ⟨expectedStatus saved.withdrawalId.isSome, body⟩)
  /-- A 409 that names no other note. -/
  | learned {body : Bytes} {conflict : WithdrawalConflict} {id : String} (unknown : saved.withdrawalId = none)
    (reported : (C.parseConflict body).bind (·.conflict) = some conflict)
    (note : ∀ other, conflict.burnNoteId = some other → saved.matchesNote other = true)
    (carries : conflict.withdrawalId = some id) (wellFormed : isWellFormedId id = true)
    (status : out.status = saved.status) (now : out.withdrawalId = some id) (reason : out.holdReason = saved.holdReason) :
    Moved C saved out (.ok ⟨.conflict, body⟩)

variable {saved : SavedSubmission}

theorem reads_kept (C : Crates) (saved : SavedSubmission) (result : Except CircleError RawResponse) :
    Reads saved (saved.kept C result).1 := by
  unfold kept
  split
  · exact reads_answered saved _
  · exact reads_answered saved _
  · exact reads_unanswered saved _

theorem reads_readAnswer (saved : SavedSubmission) (response : Except FailureClass RawResponse) :
    Reads saved (saved.readAnswer C config response) := by
  unfold readAnswer
  split
  · exact Reads.refl saved
  · split
    · exact (saved.readResponse_spec C _).1
    · rename_i hid
      split
      · exact Reads.refl saved
      · split
        · exact (readConflict_spec C (by simpa using hid)).1
        · exact (saved.readResponse_spec C _).1

/-- The request stays, and so does a known ID. -/
theorem reads_exchange (saved : SavedSubmission) (result : Except CircleError RawResponse) :
    Reads saved (saved.exchange C config result) := (reads_kept C saved result).trans (reads_readAnswer _ _)

theorem identifies_names {w : WithdrawalResponse} (h : saved.identifies C w = true) : Names C saved w := by
  have hknown := identifies_id h
  simp only [identifies, Bool.and_eq_true] at h
  obtain ⟨⟨⟨hid, hnote⟩, hhash⟩, -⟩ := h
  refine ⟨hid, hnote, ?_, hknown⟩
  split at hhash
  · rename_i hash hone
    exact ⟨hash, hone, beq_iff_eq.1 hhash⟩
  · cases hhash

theorem readStatus_id (saved : SavedSubmission) (w : WithdrawalResponse) :
    (saved.readStatus w).1.withdrawalId = some w.withdrawalId ∧
      (saved.readStatus w).1.holdReason = saved.holdReason := by
  unfold readStatus
  simp only
  split
  · exact ⟨rfl, rfl⟩
  · split
    · exact ⟨rfl, rfl⟩
    · split
      · exact ⟨rfl, rfl⟩
      · split
        · exact ⟨rfl, rfl⟩
        · exact ⟨rfl, rfl⟩

/-- What `read_response` does with a reply. -/
theorem moved_readResponse (saved : SavedSubmission) (reply : RawResponse) :
    Moved C saved (saved.readResponse C reply).1 (.ok reply) := by
  obtain ⟨status, body⟩ := reply
  unfold readResponse
  simp only
  split
  · split
    · rename_i hpost
      obtain ⟨hlookup, rfl⟩ := hpost
      have hid : saved.withdrawalId = none := by simpa using hlookup
      exact .held hid rfl hid rfl
    · exact .same rfl rfl rfl
  · rename_i hstatus
    have hstatus : status = expectedStatus saved.withdrawalId.isSome := of_not_not hstatus
    subst hstatus
    split
    · exact .same rfl rfl rfl
    · exact .same rfl rfl rfl
    · rename_i w hsingle
      split
      · rename_i hidentifies
        obtain ⟨hid, hreason⟩ := saved.readStatus_id w
        exact .named hsingle (identifies_names hidentifies) hid hreason rfl
      · exact .same rfl rfl rfl

/-- What `read_conflict` does with a 409. -/
theorem moved_readConflict {body : Bytes} (hid : saved.withdrawalId = none) (hbody : saved.lastResponse = some body) :
    Moved C saved (saved.readConflict C).1 (.ok ⟨.conflict, body⟩) := by
  have hsame : ∀ message, Moved C saved { saved with lastError := message } (.ok ⟨.conflict, body⟩) :=
    fun message => .same rfl rfl rfl
  unfold readConflict
  split
  · exact hsame _
  · rename_i conflict hconflict
    have hreported : (C.parseConflict body).bind (·.conflict) = some conflict := by
      rw [conflictOf, hbody] at hconflict
      exact hconflict
    split
    · exact hsame _
    · rename_i hnote
      split
      · exact hsame _
      · rename_i id hfilter
        obtain ⟨hcarries, -⟩ := Option.filter_eq_some_iff.1 hfilter
        split
        · rename_i hwellFormed
          refine .learned hid hreported (fun other hother => ?_) hcarries hwellFormed rfl rfl rfl
          rw [hother] at hnote
          simpa using hnote
        · exact hsame _

theorem readStatus_answered {reply : RawResponse} {w : WithdrawalResponse} :
    ((saved.answered reply).readStatus w).1.status = (saved.readStatus w).1.status := by
  unfold readStatus
  simp only
  split_ifs <;> rfl

/-- What is kept of an answer does not matter for what is read of it. -/
theorem moved_answered {out : SavedSubmission} {reply : RawResponse} {result : Except CircleError RawResponse}
    (h : Moved C (saved.answered reply) out result) : Moved C saved out result := by
  cases h with
  | same status id reason => exact .same status id reason
  | held unknown status id reason => exact .held unknown status id reason
  | named single names id reason status =>
    exact .named single ⟨names.id, names.note, names.hash, names.known⟩ id reason (status.trans readStatus_answered)
  | learned unknown reported note carries wellFormed status now reason =>
    exact .learned unknown reported note carries wellFormed status now reason

/-- A 429 moves nothing. -/
theorem Moved.limited {out : SavedSubmission} {body : Bytes} (h : Moved C saved out (.ok ⟨.tooManyRequests, body⟩)) :
    Moved C saved out (.error (.rateLimited (some body))) := by
  generalize hresult : (.ok ⟨.tooManyRequests, body⟩ : Except CircleError RawResponse) = result at h
  cases h with
  | same status id reason => exact .same status id reason
  | held unknown status id reason => cases hresult
  | named single names id reason status =>
    cases hid : saved.withdrawalId.isSome with
    | true =>
      rw [hid] at hresult
      cases hresult
    | false =>
      rw [hid] at hresult
      cases hresult
  | learned unknown reported note carries wellFormed status now reason => cases hresult

/-- What one answer does. -/
theorem moved_exchange (saved : SavedSubmission) (result : Except CircleError RawResponse) :
    Moved C saved (saved.exchange C config result) result := by
  have hread : ∀ reply : RawResponse,
      Moved C saved ((saved.answered reply).readAnswer C config (.ok reply)) (.ok reply) := by
    intro reply
    unfold readAnswer
    simp only
    split
    · exact moved_answered (moved_readResponse _ reply)
    · rename_i hid
      split
      · exact .same rfl rfl rfl
      · split
        · rename_i hconflict
          obtain ⟨status, body⟩ := reply
          obtain rfl : status = .conflict := hconflict
          exact moved_answered (moved_readConflict (by simpa using hid) rfl)
        · exact moved_answered (moved_readResponse _ reply)
  unfold exchange kept
  split
  · exact hread _
  · exact (hread _).limited
  · exact .same rfl rfl rfl

/-! ## Any number of answers -/

/-- The saved request after these answers. -/
def after (C : Crates) (config : Config) (saved : SavedSubmission) (results : List (Except CircleError RawResponse)) :
    SavedSubmission := results.foldl (exchange C config) saved

theorem after_snoc (results : List (Except CircleError RawResponse)) (result : Except CircleError RawResponse) :
    saved.after C config (results ++ [result]) = (saved.after C config results).exchange C config result := by
  simp only [after, List.foldl_append, List.foldl_cons, List.foldl_nil]

theorem reads_after (saved : SavedSubmission) (results : List (Except CircleError RawResponse)) :
    Reads saved (saved.after C config results) := by
  induction results generalizing saved with
  | nil => exact Reads.refl saved
  | cons result rest ih => exact (reads_exchange saved result).trans (ih _)

end SavedSubmission

/-! ## What is written of them -/

/-- The answer of a POST or a GET. -/
def Act.heard : Act → Option (Except CircleError RawResponse)
  | .post _ _ reply | .get _ _ reply => some reply
  | _ => none

/-- The saved request a write is about. -/
def Write.carries : Write → Option SavedSubmission
  | .save saved | .outcome saved | .limit _ _ _ (some (saved, _)) => some saved
  | _ => none

def Act.carries : Act → Option SavedSubmission
  | .commit x | .refused x _ => x.carries
  | _ => none

/-- The answers of these entries, oldest first. -/
def heard (entries : List Entry) : List (Except CircleError RawResponse) := (entries.filterMap (·.act.heard)).reverse

theorem heard_cons (x : Entry) (earlier : List Entry) : heard (x :: earlier) = heard earlier ++ x.act.heard.toList := by
  unfold heard
  cases h : x.act.heard with
  | none => simp [h]
  | some result => simp [h]

/-- The saved request after the answers heard. A GET whose URL cannot be built fails unsent, and nothing follows it. -/
def IsAfter (C : Crates) (config : Config) (saved out : SavedSubmission)
    (results : List (Except CircleError RawResponse)) : Prop :=
  out = saved.after C config results ∨ out = saved.after C config (results ++ [.error .invalidUrl])

/-- Each write of these entries, newest first, carries the saved request after the answers before it. -/
def WritesAfter (C : Crates) (config : Config) (saved : SavedSubmission) : List Entry → Prop
  | [] => True
  | x :: earlier => (∀ out, x.act.carries = some out → IsAfter C config saved out (heard earlier)) ∧
      WritesAfter C config saved earlier

/-- What happened since `w`, with these answers. -/
structure Conversed (C : Crates) (config : Config) (saved : SavedSubmission) (w : World)
    (results : List (Except CircleError RawResponse)) (w' : World) (newer : List Entry) : Prop where
  log : w'.log = newer ++ w.log
  recorded : WritesAfter C config saved newer
  heard : heard newer = results

/-- What holds at every point of the conversation. -/
def Conversing (C : Crates) (config : Config) (saved : SavedSubmission) (w w' : World) : Prop :=
  ∃ results newer, Conversed C config saved w results w' newer

section
variable {saved : SavedSubmission} {w w' w'' : World} {results : List (Except CircleError RawResponse)}
  {newer : List Entry}

theorem Conversed.conversing (h : Conversed C config saved w results w' newer) : Conversing C config saved w w' :=
  ⟨results, newer, h⟩

theorem Conversed.cons {x : Entry} (h : Conversed C config saved w results w' newer) (hlog : w''.log = x :: w'.log)
    (hx : ∀ out, x.act.carries = some out → IsAfter C config saved out results) :
    Conversed C config saved w (results ++ x.act.heard.toList) w'' (x :: newer) where
  log := by rw [hlog, h.log, List.cons_append]
  recorded := ⟨by rw [h.heard]; exact hx, h.recorded⟩
  heard := by rw [heard_cons, h.heard]

/-- An answer. -/
theorem Conversed.told {a : Act} {r : Except CircleError RawResponse}
    (h : Conversed C config saved w results w' newer)
    (hheard : a.heard = some r) (hcarries : a.carries = none) :
    Conversed C config saved w (results ++ [r]) (w'.record a) (⟨a, w'.store⟩ :: newer) := by
  have hcons : Conversed C config saved w (results ++ a.heard.toList) (w'.record a) (⟨a, w'.store⟩ :: newer) :=
    Conversed.cons (x := ⟨a, w'.store⟩) h rfl fun out hout => absurd (hcarries.symm.trans hout) (by simp)
  rwa [hheard] at hcons

/-- Anything else: a write carries the saved request after the answers so far. -/
theorem Conversed.quiet {a : Act} (h : Conversed C config saved w results w' newer) (hheard : a.heard = none)
    (hlog : w''.log = ⟨a, w''.store⟩ :: w'.log) (ha : ∀ out, a.carries = some out → IsAfter C config saved out results) :
    Conversed C config saved w results w'' (⟨a, w''.store⟩ :: newer) := by
  have hcons : Conversed C config saved w (results ++ a.heard.toList) w'' (⟨a, w''.store⟩ :: newer) :=
    Conversed.cons (x := ⟨a, w''.store⟩) h hlog ha
  rwa [hheard, Option.toList_none, List.append_nil] at hcons

theorem Conversed.transact {x : Write} (h : Conversed C config saved w results w' newer)
    (hx : ∀ out, x.carries = some out → IsAfter C config saved out results) (fails : Bool) :
    ∃ newer, Conversed C config saved w results (w'.transact C x fails).2 newer := by
  unfold World.transact
  split
  · exact ⟨_, h.quiet (a := .refused x .io) rfl rfl hx⟩
  · split
    · exact ⟨_, h.quiet (a := .commit x) rfl rfl hx⟩
    · exact ⟨_, h.quiet (a := .refused x _) rfl rfl hx⟩

theorem Conversed.meets_write {x : Write} {f : StoreError → SubmitError}
    (h : Conversed C config saved w results w' newer)
    (hx : ∀ out, x.carries = some out → IsAfter C config saved out results) :
    Meets (handler C) (Conversing C config saved w) (write f x)
      (fun _ w'' => ∃ newer, Conversed C config saved w results w'' newer) w' := by
  refine meets_call_bind h.conversing fun e => ?_
  have hafter : ∃ newer, Conversed C config saved w results ((handler C).step (.write x) e w').2 newer :=
    h.transact hx e.storeFails
  exact meets_attempt (fun _ _ => hafter) fun _ _ => hafter

/-! ## The conversation about one saved request -/

/-- A request about the saved request after `told`: its answer is heard, or it could not be sent. -/
structure Posed (C : Crates) (config : Config) (saved : SavedSubmission) (w w' : World)
    (told : List (Except CircleError RawResponse)) (result : Except CircleError RawResponse) : Prop where
  conversed : ∃ newer, Conversed C config saved w (told ++ [result]) w' newer ∨
    result = .error .invalidUrl ∧ Conversed C config saved w told w' newer

/-- What the request leaves may be written. -/
theorem Posed.meets_write {told : List (Except CircleError RawResponse)} {result : Except CircleError RawResponse}
    {x : Write} {f : StoreError → SubmitError} (h : Posed C config saved w w' told result)
    (hx : ∀ out, x.carries = some out → out = saved.after C config (told ++ [result])) :
    Meets (handler C) (Conversing C config saved w) (write f x) (fun _ => Conversing C config saved w) w' := by
  obtain ⟨newer, hsent | ⟨hlost, hunsent⟩⟩ := h.conversed
  · exact (hsent.meets_write fun out hout => .inl (hx out hout)).mono fun _ _ hdone => hdone.choose_spec.conversing
  · rw [hlost] at hx
    exact (hunsent.meets_write fun out hout => .inr (hx out hout)).mono fun _ _ hdone => hdone.choose_spec.conversing

theorem Posed.conversing {told : List (Except CircleError RawResponse)} {result : Except CircleError RawResponse}
    (h : Posed C config saved w w' told result) : Conversing C config saved w w' := by
  obtain ⟨newer, hsent | ⟨hlost, hunsent⟩⟩ := h.conversed
  · exact hsent.conversing
  · exact hunsent.conversing

theorem meets_keepReply {current : SavedSubmission} {result : Except CircleError RawResponse}
    (h : Conversed C config saved w results w' newer) {Q : Except SubmitError _ → World → Prop}
    (hQ : ∀ w'', Conversed C config saved w results w'' newer → Q (.ok (current.kept C result)) w'') :
    Meets (handler C) (Conversing C config saved w) (keepReply C current result) Q w' := by
  have hset : ∀ value : Bool, Conversed C config saved w results { w' with rateLimited := value } newer :=
    fun _ => ⟨h.log, h.recorded, h.heard⟩
  cases result with
  | ok reply => exact hQ w' h
  | error e =>
    cases e with
    | rateLimited body =>
      cases body with
      | none => exact meets_call_bind h.conversing fun _ => hQ _ (hset true)
      | some body => exact meets_call_bind h.conversing fun _ => hQ _ (hset true)
    | unavailable | transport | unexpectedStatus | unexpectedPrepareStatus | invalidResponse | bodyTooLarge
    | invalidUrl => exact hQ w' h

theorem statusRequest_error {current : SavedSubmission} {id : String} {e : CircleError}
    (h : statusRequest current id = .error e) : e = .invalidUrl := by
  unfold statusRequest at h
  cases hurl : current.endpoint.join "/v1/withdrawal/" with
  | none =>
    rw [hurl] at h
    cases h
    rfl
  | some url =>
    rw [hurl] at h
    cases h

/-- `send_saved_request` asks once and keeps the answer. -/
theorem meets_sendSavedRequest (h : Conversed C config saved w results w' newer) :
    Meets (handler C) (Conversing C config saved w) (sendSavedRequest C (saved.after C config results))
      (fun r w'' => ∃ result, r = .ok ((saved.after C config results).kept C result) ∧
        Posed C config saved w w'' results result) w' := by
  unfold sendSavedRequest
  split
  · split
    · rename_i e he
      rw [statusRequest_error he]
      exact meets_keepReply h fun w'' h' => ⟨_, rfl, ⟨newer, .inr ⟨rfl, h'⟩⟩⟩
    · refine meets_call_bind h.conversing fun e => ?_
      exact meets_keepReply (h.told (r := readReply e.http) rfl rfl) fun w'' h' => ⟨_, rfl, ⟨_, .inl h'⟩⟩
  · refine meets_call_bind h.conversing fun e => ?_
    exact meets_keepReply (h.told (r := readReply e.http) rfl rfl) fun w'' h' => ⟨_, rfl, ⟨_, .inl h'⟩⟩

section
variable {told : List (Except CircleError RawResponse)} {result : Except CircleError RawResponse}
  {current : SavedSubmission} {response : Except FailureClass RawResponse} {attempt : SubmissionAttempt}

/-- The last step, where neither the limit nor a conflict is at issue. -/
theorem meets_finishSubmission (h : Posed C config saved w w' told result)
    (hkept : (saved.after C config told).kept C result = (current, response))
    (hread : ∀ reply, response = .ok reply → current.readAnswer C config response = (current.readResponse C reply).1) :
    Meets (handler C) (Conversing C config saved w) (finishSubmission C current response)
      (fun _ => Conversing C config saved w) w' := by
  have hafter : saved.after C config (told ++ [result]) = current.readAnswer C config response := by
    rw [SavedSubmission.after_snoc, SavedSubmission.exchange, hkept]
  cases response with
  | error e => exact h.meets_write fun out hout => by cases hout; exact hafter.symm
  | ok reply => exact h.meets_write fun out hout => by cases hout; rw [hafter, hread reply rfl]

theorem Posed.clock {now : Int} (h : Posed C config saved w w' told result) :
    Posed C config saved w (w'.record (.clock now)) told result := by
  obtain ⟨newer, hsent | ⟨hlost, hunsent⟩⟩ := h.conversed
  · exact ⟨_, .inl (hsent.quiet (a := .clock now) rfl rfl fun _ hout => by cases hout)⟩
  · exact ⟨_, .inr ⟨hlost, hunsent.quiet (a := .clock now) rfl rfl fun _ hout => by cases hout⟩⟩

/-- A limit rejection makes the burn wait, with the request as it is. -/
theorem meets_waits {n : NoteId} {reply : RawResponse} (h : Posed C config saved w w' told result)
    (hafter : SavedSubmission.waits C config reply = true → saved.after C config (told ++ [result]) = current) :
    Meets (handler C) (Conversing C config saved w)
      (waitForWithdrawalLimit C config n reply.status reply.body (some (current, attempt)))
      (fun r w'' => Conversing C config saved w w'' ∧
        (r = .ok false → w'' = w' ∧ SavedSubmission.waits C config reply = false)) w' := by
  unfold waitForWithdrawalLimit
  cases hlimit : config.withdrawalLimit.filter
      fun policy => isWithdrawalLimit C reply.status reply.body policy.messagePrefix with
  | none =>
    refine meets_pure ⟨h.conversing, fun _ => ⟨rfl, ?_⟩⟩
    unfold SavedSubmission.waits
    cases hpolicy : config.withdrawalLimit with
    | none => rfl
    | some policy =>
      rw [hpolicy] at hlimit
      simpa using hlimit
  | some policy =>
    have hwaits : SavedSubmission.waits C config reply = true := by
      obtain ⟨hpolicy, hrejected⟩ := Option.filter_eq_some_iff.1 hlimit
      rw [SavedSubmission.waits, hpolicy]
      exact hrejected
    refine meets_call_bind h.conversing fun e => ?_
    have hnow : Posed C config saved w (w'.record (.clock e.now)) told result := h.clock
    refine Meets.seq (R := fun _ w'' => w'' = w'.record (.clock e.now))
      (meets_attempt (fun _ _ => rfl) fun _ _ => rfl) ?_ ?_
    · rintro retryAt _ rfl
      have hwrite : Meets (handler C) (Conversing C config saved w)
          (write SubmitError.store (.limit n retryAt reply.body (some (current, attempt))))
          (fun _ => Conversing C config saved w) (w'.record (.clock e.now)) :=
        hnow.meets_write fun out hout => by cases hout; exact (hafter hwaits).symm
      exact Meets.seq hwrite (fun _ _ hdone => meets_pure ⟨hdone, fun h => by cases h⟩)
        fun _ _ hdone => ⟨hdone, fun h => by cases h⟩
    · rintro failure _ rfl
      exact ⟨hnow.conversing, fun h => by cases h⟩

/-- A conflict: the ID it reports is written, and then asked about. -/
theorem meets_settleConflict {reply : RawResponse} (h : Posed C config saved w w' told result)
    (hkept : (saved.after C config told).kept C result = (current, .ok reply)) (hid : current.withdrawalId = none)
    (hafter : saved.after C config (told ++ [result]) = (current.readConflict C).1) :
    Meets (handler C) (Conversing C config saved w) (settleConflict C current)
      (fun _ => Conversing C config saved w) w' := by
  obtain ⟨-, -, hfound⟩ := SavedSubmission.readConflict_spec C hid
  unfold settleConflict
  split
  · rename_i next failure hread
    rw [hread] at hafter
    exact h.meets_write fun out hout => by cases hout; exact hafter.symm
  · rename_i next hread
    rw [hread] at hafter hfound
    obtain ⟨id, hknown⟩ := hfound rfl
    obtain ⟨newer, hsent | ⟨hlost, -⟩⟩ := h.conversed
    · refine Meets.seq (hsent.meets_write fun out hout => by cases hout; exact .inl hafter.symm) ?_
        fun _ _ hdone => hdone.choose_spec.conversing
      rintro _ w1 ⟨newer1, h1⟩
      have hsend := meets_sendSavedRequest h1
      rw [hafter] at hsend
      refine Meets.seq hsend ?_ fun _ _ hdone => by obtain ⟨_, hr, -⟩ := hdone; cases hr
      rintro ⟨final, response⟩ w2 ⟨result', hr, hasked⟩
      have hkept' : (saved.after C config (told ++ [result])).kept C result' = (final, response) := by
        rw [hafter]
        exact (Except.ok.inj hr).symm
      refine meets_finishSubmission hasked hkept' fun reply' hreply => ?_
      have hlookup : final.withdrawalId.isSome = true := by
        have hreads := SavedSubmission.reads_kept C (saved.after C config (told ++ [result])) result'
        rw [hkept', hafter] at hreads
        rw [hreads.kept id hknown]
        rfl
      rw [hreply, SavedSubmission.readAnswer, if_pos hlookup]
    · rw [hlost] at hkept
      cases hkept

theorem meets_settleReply (h : Posed C config saved w w' told result)
    (hkept : (saved.after C config told).kept C result = (current, response)) :
    Meets (handler C) (Conversing C config saved w) (settleReply C config attempt current response)
      (fun _ => Conversing C config saved w) w' := by
  have hafter : saved.after C config (told ++ [result]) = current.readAnswer C config response := by
    rw [SavedSubmission.after_snoc, SavedSubmission.exchange, hkept]
  unfold settleReply
  split
  · rename_i reply hid
    have hlookup : ¬ current.withdrawalId.isSome = true := by rw [hid]; exact Bool.false_ne_true
    rw [SavedSubmission.readAnswer, if_neg hlookup] at hafter
    refine Meets.seq (meets_waits h fun hwaits => by rw [hafter, if_pos hwaits]) ?_ fun _ _ hdone => hdone.1
    rintro waits w1 ⟨hdone, hgoes⟩
    cases waits with
    | true => exact meets_pure hdone
    | false =>
      obtain ⟨rfl, hwaits⟩ := hgoes rfl
      have hwaits : ¬ SavedSubmission.waits C config reply = true := by rw [hwaits]; exact Bool.false_ne_true
      rw [if_neg hwaits] at hafter
      rw [if_neg Bool.false_ne_true]
      split
      · rename_i hconflict
        rw [if_pos hconflict] at hafter
        exact meets_settleConflict h hkept hid hafter
      · rename_i hconflict
        refine meets_finishSubmission h hkept fun reply' hreply => ?_
        cases hreply
        rw [SavedSubmission.readAnswer, if_neg hlookup, if_neg hwaits, if_neg hconflict]
  · rename_i hother
    refine meets_finishSubmission h hkept fun reply hreply => ?_
    cases hid : current.withdrawalId with
    | none => exact absurd hreply (hother reply hid)
    | some id => rw [hreply, SavedSubmission.readAnswer, if_pos (by rw [hid]; rfl)]

end

theorem meets_advanceSubmission (saved : SavedSubmission) (attempt : SubmissionAttempt) (w : World) :
    Meets (handler C) (Conversing C config saved w) (advanceSubmission C config saved attempt)
      (fun _ => Conversing C config saved w) w := by
  have hstart : Conversed C config saved w [] w [] := ⟨rfl, trivial, rfl⟩
  refine meets_call_bind hstart.conversing fun e => ?_
  split
  · exact meets_pure hstart.conversing
  · refine Meets.seq (meets_sendSavedRequest hstart) ?_ fun _ _ hdone => by obtain ⟨_, hr, -⟩ := hdone; cases hr
    rintro ⟨current, response⟩ w1 ⟨result, hr, hasked⟩
    exact meets_settleReply hasked (Except.ok.inj hr).symm

/-! ## Replies and the request they are about -/

/-- How a saved request is bound to its replies. -/
structure BoundToReplies (C : Crates) (config : Config) (saved : SavedSubmission) : Prop where
  /-- Whatever is answered, the request stays, and so does a known ID. -/
  request : ∀ results more,
    SavedSubmission.Reads (saved.after C config results) (saved.after C config (results ++ more))
  /-- Each answer does to the status, the ID and the hold reason only what it says itself. -/
  each : ∀ results result,
    SavedSubmission.Moved C (saved.after C config results) (saved.after C config (results ++ [result])) result
  /-- `advance_submission` writes what the answers so far leave. -/
  written : ∀ attempt env w, ∃ newer,
    (Prog.run (handler C) (advanceSubmission C config saved attempt).run env w).2.2.log = newer ++ w.log ∧
      WritesAfter C config saved newer

/-- **Replies bind**: whatever Circle answers, and in whatever order, moves a saved request only as its own withdrawal.
-/
theorem replies_bound (C : Crates) (config : Config) (saved : SavedSubmission) : BoundToReplies C config saved where
  request results more := by
    have hsplit : saved.after C config (results ++ more) = (saved.after C config results).after C config more :=
      List.foldl_append
    rw [hsplit]
    exact SavedSubmission.reads_after _ more
  each results result := by
    rw [SavedSubmission.after_snoc]
    exact SavedSubmission.moved_exchange _ result
  written attempt env w := by
    have hmeets : Meets (handler C) (Conversing C config saved w) (advanceSubmission C config saved attempt)
      (fun _ => Conversing C config saved w) w := meets_advanceSubmission saved attempt w
    obtain ⟨results, newer, hconversed⟩ := hmeets.always (fun _ h => h) (fun _ _ h => h) env
    exact ⟨newer, hconversed.log, hconversed.recorded⟩

end

end LightAttester
