import MidenUsdcx.Attester.Verify
/-!
# Saved requests and Circle's answers to them (`submission.rs`, `circle.rs`)

| here | there |
| --- | --- |
| `SavedSubmission`, `SubmissionStatus`, `HoldReason` | `submission.rs:66-109` |
| `readReply`, `readPrepared`, `isWithdrawalLimit`, `circleMessage` | `circle.rs:78-101`, `306-352` |
| `submissionEndpoint`, `submissionRequest`, `statusRequest` | `circle.rs:225-256`, `356` |
| `SavedSubmission.readConflict`, `SavedSubmission.readResponse` | `submission.rs:415-520` |

An answer is read into a copy of the saved request: `Reads` is all that a copy may differ in.
-/
namespace LightAttester
open Checked

/-! ## Failures -/

/-- `usdcx_telemetry::FailureClass`, with the kind each carries. -/
inductive FailureClass where
  | transient (kind : String)
  | actionable (kind : String)
  | integrity (kind : String)
deriving DecidableEq, Repr

/-- `CircleError` (`circle.rs:25`), without the sources nothing reads. -/
inductive CircleError where
  | unavailable
  | transport
  | unexpectedStatus (status : StatusCode)
  | unexpectedPrepareStatus (status : StatusCode) (body : Bytes)
  | invalidResponse
  | bodyTooLarge
  | invalidUrl
  | rateLimited (body : Option Bytes)
deriving DecidableEq

namespace CircleError

/-- `Display`. -/
def text (C : Crates) : CircleError → String
  | .unavailable => "Circle API is unavailable"
  | .transport => "Circle request failed"
  | .unexpectedStatus status => "Circle returned HTTP " ++ C.statusText status
  | .unexpectedPrepareStatus status _ => "Circle prepare returned HTTP " ++ C.statusText status
  | .invalidResponse => "Circle prepare response is malformed"
  | .bodyTooLarge => "Circle response body exceeds 1048576 bytes"
  | .invalidUrl => "Circle request URL is invalid"
  | .rateLimited _ => "Circle returned HTTP 429 Too Many Requests"

def failure : CircleError → FailureClass
  | .invalidUrl => .actionable "invalid_url"
  | .rateLimited _ => .transient "rate_limited"
  | .unavailable | .transport => .transient "circle_unavailable"
  | .unexpectedStatus _ | .unexpectedPrepareStatus _ _ => .transient "unexpected_status"
  | .invalidResponse | .bodyTooLarge => .transient "invalid_response"

/-- `matches!(error, CircleError::RateLimited { .. })`. -/
def isRateLimited : CircleError → Bool
  | .rateLimited _ => true
  | _ => false

end CircleError

/-! ## Replies -/

/-- What sending a request over HTTPS comes to: nothing, or a status and the chunks of a body whose
reading may break off. -/
inductive HttpOutcome where
  | failed
  | answered (status : StatusCode) (chunks : List Bytes) (broken : Bool)

def MAX_RESPONSE_BODY_BYTES : Nat := 1048576
def MAX_LOGGED_MESSAGE_CHARS : Nat := 200

/-- The reading loop of `read_reply` (`circle.rs:315-323`). -/
def readBody (body : Bytes) (broken : Bool) : List Bytes → Except CircleError Bytes
  | [] => if broken then .error .transport else .ok body
  | chunk :: rest =>
    if MAX_RESPONSE_BODY_BYTES < body.length + chunk.length then .error .bodyTooLarge
    else readBody (body ++ chunk) broken rest

/-- `CircleClient::send` and `read_reply` (`circle.rs:193-208`, `306-337`). -/
def readReply : HttpOutcome → Except CircleError RawResponse
  | .failed => .error .transport
  | .answered status chunks broken =>
    match readBody [] broken chunks with
    | .ok body => if status = .tooManyRequests then .error (.rateLimited (some body)) else .ok ⟨status, body⟩
    | .error e => if status = .tooManyRequests then .error (.rateLimited none) else .error e

/-- `read_prepared` (`circle.rs:342`). -/
def readPrepared (C : Crates) (response : RawResponse) : Except CircleError UnverifiedPrepareResponse := do
  ensure (response.status = .ok) (.unexpectedPrepareStatus response.status response.body)
  orThrow (C.parsePrepared response.body) .invalidResponse

/-- The `message` of a JSON reply. -/
def replyMessage (C : Crates) (body : Bytes) : Option String := do
  let reply ← C.parseJson body
  (← reply.get "message").asStr

/-- `is_withdrawal_limit` (`circle.rs:80`). -/
def isWithdrawalLimit (C : Crates) (status : StatusCode) (body : Bytes) (messagePrefix : String) : Bool :=
  decide (status = .badRequest) &&
    ((replyMessage C body).map fun m => messagePrefix.toList.isPrefixOf m.toList).getD false

/-- `circle_message` (`circle.rs:93`). -/
def circleMessage (C : Crates) (body : Bytes) : Option String :=
  (replyMessage C body).map fun m => String.ofList (m.toList.take MAX_LOGGED_MESSAGE_CHARS)

/-! ## The saved request -/

inductive SubmissionStatus where
  | submitting
  | submitted
  | finalized
  | expired
  | failed
  | held
deriving DecidableEq, Repr

inductive HoldReason where
  | httpRejected
deriving DecidableEq, Repr

/-- Whether a POST is a signed request's first send or a resend after an unknown outcome. -/
inductive SubmissionAttempt where
  | first
  | recovery
deriving DecidableEq, Repr

structure SavedSubmission where
  noteId : NoteId
  endpoint : Url
  body : Bytes
  transferSpecHash : B256
  status : SubmissionStatus
  withdrawalId : Option String
  holdReason : Option HoldReason
  lastHttpStatus : Option Nat
  lastResponse : Option Bytes
  lastError : Option String
deriving DecidableEq, Repr

/-- `submission_endpoint` (`circle.rs:356`). -/
def submissionEndpoint (baseUrl : Url) : Except CircleError Url :=
  orThrow (baseUrl.join "/v1/withdraw") .invalidUrl

/-- `submission_request` (`circle.rs:225`). -/
def submissionRequest (saved : SavedSubmission) : Request :=
  { method := .post, url := saved.endpoint, body := some saved.body }

/-- `status_request` (`circle.rs:242`). A saved ID is a UUID, so as a path segment it is itself. -/
def statusRequest (saved : SavedSubmission) (id : String) : Except CircleError Request := do
  let url ← orThrow (saved.endpoint.join "/v1/withdrawal/") .invalidUrl
  pure { method := .get, url := { url with path := "/v1/withdrawal/" ++ id }, body := none }

/-- `validate_saved_request` (`verify.rs:230`). -/
def validateSavedRequest (C : Crates) (saved : SavedSubmission) : Bool :=
  C.parseSavedRequest saved.body == some saved.noteId.toHex

/-- `SignedWithdrawal::submission` (`verify.rs:201`): the request two signatures authorize. -/
def signedSubmission (C : Crates) (verified : VerifiedWithdrawal) (signatures : Signature × Signature)
    (endpoint : Url) : Option SavedSubmission := do
  let body ← C.renderSubmission verified.intent signatures verified.noteId.toHex
  pure { noteId := verified.noteId, endpoint := endpoint, body := body, transferSpecHash := verified.transferSpecHash,
         status := .submitting, withdrawalId := none, holdReason := none, lastHttpStatus := none,
         lastResponse := none, lastError := none }

namespace SavedSubmission

/-- `matches_note` (`submission.rs:522`). -/
def matchesNote (saved : SavedSubmission) (id : String) : Bool := eqIgnoreAsciiCase id saved.noteId.toHex

/-- `hold` (`submission.rs:407`). -/
def hold (saved : SavedSubmission) (reason : HoldReason) (message : String) : SavedSubmission :=
  { saved with status := .held, holdReason := some reason, lastError := some message }

/-- What `send_saved_request` keeps of a reply (`submission.rs:275-277`). -/
def answered (saved : SavedSubmission) (response : RawResponse) : SavedSubmission :=
  { saved with lastHttpStatus := some response.status.code, lastResponse := some response.body, lastError := none }

/-- What it keeps of a lost one (`submission.rs:268-272`). -/
def unanswered (saved : SavedSubmission) (message : String) : SavedSubmission :=
  { saved with lastHttpStatus := none, lastResponse := none, lastError := some message }

/-- The `conflict` of a 409 reply. -/
def conflictOf (C : Crates) (saved : SavedSubmission) : Option WithdrawalConflict := do
  let body ← saved.lastResponse
  (← C.parseConflict body).conflict

/-- `read_conflict` (`submission.rs:415`). The request is returned either way: a failure saves its
reason in it. -/
def readConflict (C : Crates) (saved : SavedSubmission) : SavedSubmission × Option FailureClass :=
  let noId := ({ saved with lastError := some "conflict has no withdrawal ID yet" },
    some (.transient "conflict_without_id"))
  match saved.conflictOf C with
  | none => noId
  | some conflict =>
    if conflict.burnNoteId.any fun id => !saved.matchesNote id then
      ({ saved with lastError := some "conflict names another burn note" }, some (.integrity "wrong_burn"))
    else match conflict.withdrawalId.filter fun id => !isBlank id with
      | none => noId
      | some id =>
        if isWellFormedId id then ({ saved with withdrawalId := some id }, none)
        else ({ saved with lastError := some "conflict names a malformed withdrawal ID" },
          some (.integrity "malformed_withdrawal_id"))

/-- The one withdrawal a reply holds (`submission.rs:464-476`): a lookup answers with it, a request
with a list of at most one. -/
def withdrawalOf (C : Crates) (lookup : Bool) (body : Bytes) : Except Unit (Option WithdrawalResponse) :=
  if lookup then .ok (C.parseWithdrawal body)
  else match C.parseWithdrawals body with
    | none => .ok none
    | some [] => .ok none
    | some [w] => .ok (some w)
    | some (_ :: _ :: _) => .error ()

/-- Whether the withdrawal is the saved one (`submission.rs:482-491`). -/
def identifies (C : Crates) (saved : SavedSubmission) (w : WithdrawalResponse) : Bool :=
  isWellFormedId w.withdrawalId && saved.matchesNote w.burnNoteId &&
    (match w.transferSpecHashes with
      | [hash] => C.parseB256 hash == some saved.transferSpecHash
      | _ => false) &&
    saved.withdrawalId.all fun id => id == w.withdrawalId

/-- The saved request under the status Circle reports (`submission.rs:496-518`). -/
def readStatus (saved : SavedSubmission) (w : WithdrawalResponse) : SavedSubmission × Option FailureClass :=
  let saved := { saved with withdrawalId := some w.withdrawalId }
  if w.status = "created" ∨ w.status = "verified" ∨ w.status = "confirmed" then
    ({ saved with status := .submitted }, none)
  else if w.status = "finalized" then ({ saved with status := .finalized }, none)
  else if w.status = "expired" then ({ saved with status := .expired }, none)
  else if w.status = "failed" then
    ({ saved with lastError := w.failureReason, status := .failed }, some (.actionable "withdrawal_failed"))
  else ({ saved with lastError := some "Circle returned an unknown withdrawal status" },
    some (.transient "unknown_status"))

/-- A lookup is answered with 200, a new withdrawal with 201. -/
def expectedStatus (lookup : Bool) : StatusCode := if lookup then .ok else .created

/-- `read_response` (`submission.rs:447`). -/
def readResponse (C : Crates) (saved : SavedSubmission) (response : RawResponse) :
    SavedSubmission × Option FailureClass :=
  let lookup := saved.withdrawalId.isSome
  if response.status ≠ expectedStatus lookup then
    -- Circle may have accepted an earlier attempt whose reply was lost.
    if lookup = false ∧ response.status = .badRequest then
      (saved.hold .httpRejected "HTTP response needs operator review", some (.actionable "withdrawal_held"))
    else
      ({ saved with lastError := some ("Circle returned HTTP " ++ C.statusText response.status) },
        some (.transient (if response.status = .tooManyRequests then "rate_limited" else "unexpected_status")))
  else match withdrawalOf C lookup response.body with
    | .error () =>
      ({ saved with lastError := some "response contains extra withdrawals" }, some (.integrity "extra_withdrawals"))
    | .ok none =>
      ({ saved with lastError := some "Circle returned an incomplete or malformed response" },
        some (.transient "invalid_response"))
    | .ok (some w) =>
      if saved.identifies C w then saved.readStatus w
      else ({ saved with lastError := some "response does not identify the saved withdrawal" },
        some (.integrity "wrong_withdrawal"))

/-! ## What an answer can change -/

/-- `out` is `r` after some answers: the same request, and an ID that is only ever added. -/
structure Reads (r out : SavedSubmission) : Prop where
  noteId : out.noteId = r.noteId
  endpoint : out.endpoint = r.endpoint
  body : out.body = r.body
  hash : out.transferSpecHash = r.transferSpecHash
  kept : ∀ id, r.withdrawalId = some id → out.withdrawalId = some id

theorem Reads.refl (r : SavedSubmission) : Reads r r := ⟨rfl, rfl, rfl, rfl, fun _ h => h⟩

theorem Reads.trans {a b c : SavedSubmission} (hab : Reads a b) (hbc : Reads b c) : Reads a c where
  noteId := hbc.noteId.trans hab.noteId
  endpoint := hbc.endpoint.trans hab.endpoint
  body := hbc.body.trans hab.body
  hash := hbc.hash.trans hab.hash
  kept id h := hbc.kept id (hab.kept id h)

theorem reads_answered (r : SavedSubmission) (response : RawResponse) : Reads r (r.answered response) :=
  ⟨rfl, rfl, rfl, rfl, fun _ h => h⟩

theorem reads_unanswered (r : SavedSubmission) (message : String) : Reads r (r.unanswered message) :=
  ⟨rfl, rfl, rfl, rfl, fun _ h => h⟩

/-- A conflict is read only before an ID is known, and never moves the status. -/
theorem readConflict_spec (C : Crates) {r : SavedSubmission} (hid : r.withdrawalId = none) :
    Reads r (r.readConflict C).1 ∧ (r.readConflict C).1.status = r.status ∧
      ((r.readConflict C).2 = none → ∃ id, (r.readConflict C).1.withdrawalId = some id) := by
  have hkept : ∀ id, r.withdrawalId = some id → False := fun id h => by rw [hid] at h; cases h
  unfold readConflict
  split
  · exact ⟨⟨rfl, rfl, rfl, rfl, fun id h => (hkept id h).elim⟩, rfl, fun h => by cases h⟩
  · split
    · exact ⟨⟨rfl, rfl, rfl, rfl, fun id h => (hkept id h).elim⟩, rfl, fun h => by cases h⟩
    · split
      · exact ⟨⟨rfl, rfl, rfl, rfl, fun id h => (hkept id h).elim⟩, rfl, fun h => by cases h⟩
      · split
        · exact ⟨⟨rfl, rfl, rfl, rfl, fun id h => (hkept id h).elim⟩, rfl, fun _ => ⟨_, rfl⟩⟩
        · exact ⟨⟨rfl, rfl, rfl, rfl, fun id h => (hkept id h).elim⟩, rfl, fun h => by cases h⟩

theorem identifies_id {C : Crates} {r : SavedSubmission} {w : WithdrawalResponse} (h : r.identifies C w = true) :
    ∀ id, r.withdrawalId = some id → w.withdrawalId = id := by
  intro id hid
  simp only [identifies, Bool.and_eq_true, hid, Option.all_some, beq_iff_eq] at h
  exact h.2.symm

theorem readStatus_spec {r : SavedSubmission} {w : WithdrawalResponse}
    (h : ∀ id, r.withdrawalId = some id → w.withdrawalId = id) :
    Reads r (r.readStatus w).1 ∧ ((r.readStatus w).1.status = .held → r.status = .held) := by
  have hkept : ∀ id, r.withdrawalId = some id → some w.withdrawalId = some id := fun id hid => by rw [h id hid]
  unfold readStatus
  simp only
  split
  · exact ⟨⟨rfl, rfl, rfl, rfl, hkept⟩, fun h => by cases h⟩
  · split
    · exact ⟨⟨rfl, rfl, rfl, rfl, hkept⟩, fun h => by cases h⟩
    · split
      · exact ⟨⟨rfl, rfl, rfl, rfl, hkept⟩, fun h => by cases h⟩
      · split
        · exact ⟨⟨rfl, rfl, rfl, rfl, hkept⟩, fun h => by cases h⟩
        · exact ⟨⟨rfl, rfl, rfl, rfl, hkept⟩, fun h => h⟩

/-- A reply puts a request on hold only while it has no ID. -/
theorem readResponse_spec (C : Crates) (r : SavedSubmission) (response : RawResponse) :
    Reads r (r.readResponse C response).1 ∧
      ((r.readResponse C response).1.status = .held →
        r.status = .held ∨ (r.readResponse C response).1.withdrawalId = none) := by
  unfold readResponse
  simp only
  split
  · split
    · rename_i hpost
      have hnone : r.withdrawalId = none := by simpa using hpost.1
      exact ⟨⟨rfl, rfl, rfl, rfl, fun _ h => h⟩, fun _ => Or.inr hnone⟩
    · exact ⟨⟨rfl, rfl, rfl, rfl, fun _ h => h⟩, fun h => Or.inl h⟩
  · split
    · exact ⟨⟨rfl, rfl, rfl, rfl, fun _ h => h⟩, fun h => Or.inl h⟩
    · exact ⟨⟨rfl, rfl, rfl, rfl, fun _ h => h⟩, fun h => Or.inl h⟩
    · split
      · rename_i w hw
        obtain ⟨hreads, hheld⟩ := readStatus_spec (identifies_id hw)
        exact ⟨hreads, fun h => Or.inl (hheld h)⟩
      · exact ⟨⟨rfl, rfl, rfl, rfl, fun _ h => h⟩, fun h => Or.inl h⟩

end SavedSubmission

end LightAttester
