import MidenUsdcx.Attester.Service
import MidenUsdcx.Lib.Trace
/-!
# What each task of the attester can call

Which calls a task can make at all, whatever it is answered, read off its text.

| here | the calls of |
| --- | --- |
| `Call.settles` | `advance_submission` and what it uses: a saved request and its outcome |
| `Call.follows` | the two passes over saved requests, with the commands between them |
| `Call.works` | all three phases of a cycle after discovery |
-/
namespace LightAttester
open Checked Interact Keyed Store

/-- Calls for blocks and scan limits. -/
def Call.isChain : Call → Bool
  | .scanLimits | .blockByNumber _ => true
  | _ => false

def Call.isCycle : Call → Bool
  | .mark (.cycle _) => true
  | _ => false

/-- Prepare, POST and GET. -/
def Call.isTraffic : Call → Bool
  | .prepare _ _ | .post _ _ | .get _ _ => true
  | _ => false

/-- What only a burn that is new to Circle needs: prepare, the signatures, the saved authorization. -/
def Call.isFresh : Call → Bool
  | .prepare _ _ | .sign _ _ | .write (.save _) => true
  | _ => false

abbrev CallEvent := Event calls World

/-- A process and the calls it made so far, newest first. -/
abbrev Watched := World × List CallEvent

variable {C : Crates} {config : Config} {ρ α β : Type}

/-- Neither a chain read nor the start of a cycle. -/
def Call.works (o : Call) : Bool := !o.isChain && !o.isCycle

/-- Besides, nothing for a burn that is new to Circle. -/
def Call.follows (o : Call) : Bool := o.works && !o.isFresh

/-- The conversation about one saved request: POST, GET, and what came of it. -/
def Call.settles : Call → Bool
  | .query | .now | .rateLimited | .setRateLimited _ | .post _ _ | .get _ _ | .write (.outcome _)
  | .write (.limit _ _ _ _) => true
  | _ => false

abbrev Works (t : Task ρ α) : Prop := Calls (S := calls) (fun o => Call.works o = true) t
abbrev FollowsUp (t : Task ρ α) : Prop := Calls (S := calls) (fun o => Call.follows o = true) t

abbrev Settles (t : Task ρ α) : Prop := Calls (S := calls) (fun o => Call.settles o = true) t

theorem Call.follows_of_settles {o : Call} (h : o.settles = true) : o.follows = true := by
  cases o with
  | write x => cases x <;> first | rfl | cases h
  | _ => first | rfl | cases h

theorem Settles.follows {t : Task ρ α} (h : Settles t) : FollowsUp t := h.mono fun _ => Call.follows_of_settles

theorem FollowsUp.works {t : Task ρ α} (h : FollowsUp t) : Works t :=
  h.mono fun _ ho => (Bool.and_eq_true_iff.1 ho).1

section
variable {ok : Call → Prop}

theorem calls_one {o : Call} (h : ok o) : Calls (S := calls) ok (call o : Task ρ o.Answer) := calls_call h

theorem calls_attempt {ε : Type} {f : ε → ρ} {x : Except ε α} : Calls (S := calls) ok (attempt f x : Task ρ α) := by
  cases x with
  | ok a => exact calls_pure
  | error e => exact calls_throw

theorem calls_query {f : StoreError → ρ} {read : Store → Except StoreError α} (h : ok .query) :
    Calls (S := calls) ok (query f read : Task ρ α) :=
  calls_bind (calls_one h) fun _ => calls_bind calls_attempt fun _ => calls_attempt

theorem calls_write {f : StoreError → ρ} {x : Write} (h : ok (.write x)) :
    Calls (S := calls) ok (write f x : Task ρ Unit) :=
  calls_bind (calls_one h) fun _ => calls_attempt

theorem calls_ite {c : Prop} [Decidable c] {t u : Task ρ α} (ht : Calls (S := calls) ok t)
    (hu : Calls (S := calls) ok u) : Calls (S := calls) ok (if c then t else u) := by
  by_cases hc : c
  · rwa [if_pos hc]
  · rwa [if_neg hc]

/-- A limit rejection reads the clock and records the wait. -/
theorem calls_waitForWithdrawalLimit {n : NoteId} {status : StatusCode} {body : Bytes}
    {sub : Option (SavedSubmission × SubmissionAttempt)} (hnow : ok .now)
    (hlimit : ∀ retryAt, ok (.write (.limit n retryAt body sub))) :
    Calls (S := calls) ok (waitForWithdrawalLimit C config n status body sub) := by
  unfold waitForWithdrawalLimit
  split
  · exact calls_pure
  · exact calls_bind (calls_one hnow) fun _ => calls_bind calls_attempt fun _ =>
      calls_bind (calls_write (hlimit _)) fun _ => calls_pure

/-- A retry reads the clock and moves the deadline first. -/
theorem calls_limitAllows {n : NoteId} (hquery : ok .query) (hnow : ok .now)
    (hadvance : ∀ retryAt, ok (.write (.advance n retryAt))) : Calls (S := calls) ok (limitAllows config n) := by
  refine calls_bind (calls_query hquery) fun wait => ?_
  cases wait with
  | none => exact calls_pure
  | some wait =>
    refine calls_ite (calls_bind (calls_query hquery) fun _ => calls_pure) ?_
    refine calls_bind (calls_one hnow) fun _ => calls_bind calls_attempt fun _ => calls_ite calls_pure ?_
    exact calls_bind calls_attempt fun _ => calls_bind calls_attempt fun _ =>
      calls_bind (calls_write (hadvance _)) fun _ => calls_pure

end

theorem meets_attempt {ε σ δ : Type} {H : Handler calls ε σ} {I : σ → Prop} {s : σ} {f : δ → ρ} {x : Except δ α}
    {Q : Except ρ α → σ → Prop} (hok : ∀ a, x = .ok a → Q (.ok a) s) (herr : ∀ e, x = .error e → Q (.error (f e)) s) :
    Meets H I (attempt f x) Q s := by
  cases x with
  | ok a => exact hok a rfl
  | error e => exact herr e rfl

theorem keepReply_settles {saved : SavedSubmission} {result : Except CircleError RawResponse} :
    Settles (keepReply C saved result) := by
  unfold keepReply
  split
  · exact calls_pure
  · exact calls_bind (calls_one rfl) fun _ => calls_pure
  · exact calls_bind (calls_one rfl) fun _ => calls_pure
  · exact calls_pure

theorem sendSavedRequest_settles {saved : SavedSubmission} : Settles (sendSavedRequest C saved) := by
  unfold sendSavedRequest
  split
  · split
    · exact keepReply_settles
    · exact calls_bind (calls_one rfl) fun _ => keepReply_settles
  · exact calls_bind (calls_one rfl) fun _ => keepReply_settles

theorem finishSubmission_settles {saved : SavedSubmission} {response : Except FailureClass RawResponse} :
    Settles (finishSubmission C saved response) := by
  cases response with
  | ok reply => exact calls_write rfl
  | error e => exact calls_write rfl

theorem waitForWithdrawalLimit_settles {n : NoteId} {status : StatusCode} {body : Bytes}
    {sub : Option (SavedSubmission × SubmissionAttempt)} :
    Settles (waitForWithdrawalLimit C config n status body sub) :=
  calls_waitForWithdrawalLimit rfl fun _ => rfl

theorem settleConflict_settles {saved : SavedSubmission} : Settles (settleConflict C saved) := by
  unfold settleConflict
  split
  · exact calls_write rfl
  · exact calls_bind (calls_write rfl) fun _ => calls_bind sendSavedRequest_settles fun _ => finishSubmission_settles

theorem settleReply_settles {attempt : SubmissionAttempt} {saved : SavedSubmission}
    {response : Except FailureClass RawResponse} : Settles (settleReply C config attempt saved response) := by
  unfold settleReply
  split
  · refine calls_bind waitForWithdrawalLimit_settles fun waits => calls_ite calls_pure ?_
    exact calls_ite settleConflict_settles finishSubmission_settles
  · exact finishSubmission_settles

theorem advanceSubmission_settles {saved : SavedSubmission} {attempt : SubmissionAttempt} :
    Settles (advanceSubmission C config saved attempt) :=
  calls_bind (calls_one rfl) fun _ => calls_ite calls_pure
    (calls_bind sendSavedRequest_settles fun _ => settleReply_settles)

theorem limitAllows_follows {n : NoteId} : FollowsUp (limitAllows config n) := calls_limitAllows rfl rfl fun _ => rfl

/-- Taking a command and carrying it out. -/
def Call.isAdmin : Call → Bool
  | .inbox | .write (.release _) => true
  | _ => false

theorem Call.follows_of_isAdmin {o : Call} (h : o.isAdmin = true) : o.follows = true := by
  cases o <;> first | rfl | cases h | skip
  case write x => cases x <;> first | rfl | cases h

theorem handleEach_admin (commands : List Command) :
    Calls (S := calls) (fun o => Call.isAdmin o = true) (handleEach commands : Task ρ Unit) := by
  induction commands with
  | nil => exact calls_pure
  | cons command rest ih =>
    refine calls_bind ?_ fun _ => ih
    unfold handleAdmin
    refine calls_ite calls_pure ?_
    cases command.operation with
    | list after => exact calls_pure
    | release selection => exact calls_bind (calls_one rfl) fun _ => calls_pure

theorem adminCheckpoint_admin : Calls (S := calls) (fun o => Call.isAdmin o = true) (adminCheckpoint : Task ρ Unit) :=
  calls_bind (calls_one rfl) fun _ => handleEach_admin _

theorem handleEach_follows (commands : List Command) : FollowsUp (handleEach commands : Task ρ Unit) :=
  (handleEach_admin commands).mono fun _ => Call.follows_of_isAdmin

theorem adminCheckpoint_follows : FollowsUp (adminCheckpoint : Task ρ Unit) :=
  adminCheckpoint_admin.mono fun _ => Call.follows_of_isAdmin

theorem advanceSubmissions_follows (list : List SavedSubmission) : FollowsUp (advanceSubmissions C config list) := by
  induction list with
  | nil => exact calls_pure
  | cons saved rest ih =>
    have hrest : ∀ admitted : Bool, FollowsUp (if admitted = true then do
          call (.mark (.withdraw saved.noteId))
          advanceSubmission C config saved .recovery
          advanceSubmissions C config rest
        else advanceSubmissions C config rest) := fun admitted =>
      calls_ite (calls_bind (calls_one rfl) fun _ => calls_bind advanceSubmission_settles.follows fun _ => ih) ih
    refine calls_bind adminCheckpoint_follows fun _ => calls_bind (calls_one rfl) fun _ => calls_ite calls_pure ?_
    exact calls_ite (calls_bind (calls_adapt limitAllows_follows) hrest) (calls_bind calls_pure hrest)

theorem withdraw_works {burn : DiscoveredBurn} : Works (withdraw C config burn) := by
  refine calls_bind calls_attempt fun fee => calls_bind ?_ fun prepared => calls_bind calls_attempt fun verified => ?_
  · refine calls_bind calls_attempt fun _ => calls_bind (calls_one rfl) fun reply => ?_
    cases reply with
    | ok prepared => exact calls_pure
    | error e => exact calls_ite (calls_bind (calls_one rfl) fun _ => calls_throw) calls_throw
  · have hsign : Works (signDigest verified.noteId verified.digest) := calls_bind (calls_one rfl) fun _ => calls_attempt
    refine calls_bind hsign fun _ => calls_bind hsign fun _ => ?_
    exact calls_bind calls_attempt fun _ => calls_bind calls_attempt fun _ => calls_bind (calls_query rfl) fun _ =>
      calls_bind (calls_write rfl) fun _ => advanceSubmission_settles.follows.works

theorem attemptWithdrawal_works {burn : DiscoveredBurn} : Works (attemptWithdrawal C config burn) := by
  have hhold : ∀ error, Works (holdAndThrow burn.noteId error) := fun error => by
    unfold holdAndThrow
    split
    · exact calls_bind (calls_write rfl) fun _ => calls_throw
    · exact calls_throw
  refine calls_bind (calls_one rfl) fun _ => calls_tryCatch withdraw_works fun error => ?_
  unfold settleFailure
  split
  · exact calls_throw
  · exact calls_bind waitForWithdrawalLimit_settles.follows.works fun _ => calls_ite calls_pure (hhold _)
  · exact hhold _

theorem submitWithdrawals_works (burns : List DiscoveredBurn) (firstError : Option SubmitError) :
    Works (submitWithdrawals C config firstError burns) := by
  induction burns generalizing firstError with
  | nil => exact calls_pure
  | cons burn rest ih =>
    refine calls_bind adminCheckpoint_follows.works fun _ => calls_bind (calls_one rfl) fun _ => calls_ite calls_pure ?_
    refine calls_bind (calls_adapt limitAllows_follows.works) fun _ => calls_ite ?_ calls_pure
    refine calls_bind (calls_lift attemptWithdrawal_works) fun outcome => ?_
    cases outcome with
    | ok _ => exact ih firstError
    | error error => exact calls_ite calls_throw (ih _)

/-! ## What a task did -/

/-- `a` is in the log since `w`. -/
def Said (w w' : World) (a : Act) : Prop := ∃ newer, w'.log = newer ++ w.log ∧ ∃ x ∈ newer, x.act = a

section
variable {w w' w'' : World}

theorem said_cons {x : Entry} (hgrew : ∃ newer, w'.log = newer ++ w.log) (hlog : w''.log = x :: w'.log) (a : Act) :
    Said w w'' a ↔ x.act = a ∨ Said w w' a := by
  obtain ⟨newer, hnewer⟩ := hgrew
  constructor
  · rintro ⟨newer', hnewer', y, hy, rfl⟩
    have hsame : newer' = x :: newer := List.append_cancel_right (by rw [← hnewer', hlog, hnewer, List.cons_append])
    rw [hsame] at hy
    rcases List.mem_cons.1 hy with rfl | hy
    · exact .inl rfl
    · exact .inr ⟨newer, hnewer, y, hy, rfl⟩
  · rintro (rfl | ⟨newer', hnewer', y, hy, rfl⟩)
    · exact ⟨x :: newer, by rw [hlog, hnewer, List.cons_append], x, List.mem_cons_self, rfl⟩
    · exact ⟨x :: newer', by rw [hlog, hnewer', List.cons_append], y, List.mem_cons_of_mem x hy, rfl⟩

end

end LightAttester
