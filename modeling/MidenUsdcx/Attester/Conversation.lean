import MidenUsdcx.Attester.Rules
/-!
# The conversation about one saved request keeps to the rules (`submission.rs:178-279`)

One lemma for each function: it only does what the rules allow (`Ensures`), and this is what is left when
it ends. The request in memory is always the row's own with what was read since (`SavedSubmission.Reads`).
-/
namespace LightAttester
open Checked Interact Keyed Store

variable {C : Crates} {config : Config} {w : World} {s : Store} {n : NoteId}

/-! ## The steps of an item meet no conflict -/

theorem outcome_no_conflict (hinv : StoreInv C s) {out r : SavedSubmission} (hr : s.row out.noteId = some r) :
    s.updateSubmissionOutcome C out ≠ .error .conflict := by
  obtain ⟨-, -, b, hb, -⟩ := (hinv.notes out.noteId).row r hr
  have hrec : ∀ cs, ∃ z, (s.putRow (withOutcome r out)).recordEvent out.noteId .outcome cs = .ok z := by
    intro cs
    unfold recordEvent
    rw [putRow_burn, hb]
    exact ⟨_, rfl⟩
  obtain ⟨z, hz⟩ := hrec (circleStatus C out.lastResponse)
  unfold updateSubmissionOutcome
  by_cases hv : outcomeOk out = true
  · simp only [ensure, hv, if_true, hr, orThrow, Bind.bind, Except.bind]
    split
    · intro h; cases h
    · rw [hz]; intro h; cases h
  · simp [ensure, hv, Bind.bind, Except.bind]

theorem save_no_conflict (hinv : StoreInv C s) {rec : SavedSubmission} {d : DiscoveredBurn}
    (hd : d.noteId = rec.noteId) (hf : FreshBurn s d) : s.saveSubmission C rec ≠ .error .conflict := by
  obtain ⟨⟨b, hb, -⟩, hrow⟩ := hf
  rw [hd] at hb hrow
  have hrep : s.replaceable rec.noteId = true := by
    unfold replaceable
    cases hr : s.row rec.noteId with
    | none => rfl
    | some r =>
      have hst := hrow r hr
      have hv := ((hinv.notes rec.noteId).row r hr).1
      simp only [submissionOk, outcomeOk, Bool.and_eq_true, hst] at hv
      simp [hst, hv.2.1.2]
  unfold saveSubmission
  by_cases hv : submissionOk C rec = true
  · simp [ensure, hv, hrep, recordEvent, hb, orThrow, Bind.bind, Except.bind, pure, Except.pure]
  · simp [ensure, hv, Bind.bind, Except.bind]

theorem hold_no_conflict {b : BurnRow} (hb : s.burn n = some b) {reason : BurnHoldReason} {resp : Option (Nat × Bytes)} :
    s.holdBurn n reason resp ≠ .error .conflict := by
  simp [holdBurn, hb, orThrow, Bind.bind, Except.bind, pure, Except.pure]

/-- The request a rejection answers is the one on the note's row. -/
def Sent (s : Store) (n : NoteId) : Option (SavedSubmission × SubmissionAttempt) → Prop
  | none => True
  | some (saved, _) => saved.noteId = n ∧ ∃ r, s.row n = some r ∧ r.status = .submitting ∧ r.withdrawalId = none ∧
      r.Reads saved

theorem limit_no_conflict {b : BurnRow} (hb : s.burn n = some b) (hc : b.consumptionBlock.isSome)
    (hh : b.holdReason = none) {t : Nat} {body : Bytes} {sub : Option (SavedSubmission × SubmissionAttempt)}
    (hsub : Sent s n sub) : s.recordLimitRejection n t body sub ≠ .error .conflict := by
  have hfilter : (s.burn n).filter (fun b => b.consumptionBlock.isSome && b.holdReason.isNone) = some b := by
    simp [hb, Option.filter, hc, hh]
  unfold recordLimitRejection
  simp only [hfilter, orThrow, Bind.bind, Except.bind]
  cases sub with
  | none => intro h; cases h
  | some p =>
    obtain ⟨saved, attempt⟩ := p
    obtain ⟨hid, r, hr, hst, hwid, hreads⟩ := hsub
    have hsame : (s.putBurn { b with limitRetryAt := some t }).sameRequest n saved = some r := by
      show (s.row n).filter _ = some r
      simp [hr, Option.filter, hst, hwid, hreads.endpoint, hreads.body, hreads.hash]
    simp only [ensure, hid, if_true, hsame]
    cases attempt <;> (intro h; cases h)

/-! ## One saved request -/

/-- What a step of the item `n` leaves: the log grew by its own acts, and a failure is the store's. -/
def Done {α : Type} (n : NoteId) (w : World) (res : Except SubmitError α) (w' : World) : Prop :=
  Steps n w w' ∧ ∀ e, res = .error e → e.isFatal = true

theorem Done.ok {α : Type} {a : α} {w' : World} (h : Steps n w w') : Done n w (.ok a) w' := ⟨h, fun _ e => by cases e⟩

theorem Done.store {α : Type} {e : StoreError} {w' : World} (h : Steps n w w') :
    Done (α := α) n w (.error (.store e)) w' := ⟨h, fun _ he => by cases he; rfl⟩

theorem Done.error {α β : Type} {e : SubmitError} {w' : World} (h : Done (α := α) n w (.error e) w') :
    Done (α := β) n w (.error e) w' := ⟨h.1, fun _ he => by cases he; exact h.2 e rfl⟩

theorem Done.after {α : Type} {res : Except SubmitError α} {w1 w2 : World} (h1 : Steps n w w1) (h2 : Done n w1 res w2) :
    Done n w res w2 := ⟨h1.trans h2.1, h2.2⟩


/-- Writing an outcome over the row it was read from. -/
theorem ensures_outcome {out r : SavedSubmission} (hw : Sound C w) (hwork : AtHand w.log n)
    (hrow : w.store.row n = some r) (hst : r.status = .submitting ∨ r.status = .submitted) (hreads : r.Reads out)
    (hheld : out.status = .held → out.withdrawalId = none) :
    Ensures C (write SubmitError.store (.outcome out)) (fun res w' => Done n w res w' ∧
      (res = .ok () → w'.store.row n = some (withOutcome r out) ∧
        w'.log = ⟨.commit (.outcome out), w'.store⟩ :: w.log)) w := by
  have hid : out.noteId = n := hreads.noteId.trans (row_noteId hrow)
  have hrow' : w.store.row out.noteId = some r := hid ▸ hrow
  refine ensures_write (x := .outcome out) hw (by simp) (fun s' hs' => ⟨hid ▸ hwork, hheld, r, hrow', hst, hreads⟩)
    (fun _ => outcome_no_conflict (legal_inv hw.1) hrow') (fun s' hs' _ => ⟨.ok ?_, fun _ => ⟨?_, rfl⟩⟩)
    (fun e => ⟨.store (Grew.record (show _ = some n by rw [← hid]; rfl)), fun h => by cases h⟩)
  · exact Grew.commit (show _ = some n by rw [← hid]; rfl) hs' (Or.inl rfl)
  · obtain ⟨r', hleaves⟩ := outcome_leaves hs'
    obtain rfl : r' = r := Option.some.inj (hleaves.stored.symm.trans hrow')
    exact hid ▸ hleaves.row

theorem ensures_finish {saved r : SavedSubmission} {response : Except FailureClass RawResponse} (hw : Sound C w)
    (hwork : AtHand w.log n) (hrow : w.store.row n = some r) (hst : r.status = .submitting ∨ r.status = .submitted)
    (hreads : r.Reads saved) (hsame : saved.status = r.status) :
    Ensures C (finishSubmission C saved response) (Done n w) w := by
  have hnot : saved.status ≠ .held := by
    rw [hsame]
    rcases hst with h | h <;> rw [h] <;> decide
  unfold finishSubmission
  split
  · rename_i reply
    obtain ⟨hr, hh⟩ := saved.readResponse_spec C reply
    exact (ensures_outcome hw hwork hrow hst (hreads.trans hr) fun h => (hh h).resolve_left hnot).mono
      fun _ _ _ h => h.1
  · exact (ensures_outcome hw hwork hrow hst hreads fun h => absurd h hnot).mono fun _ _ _ h => h.1

theorem statusRequest_endpoint {a b : SavedSubmission} (h : a.endpoint = b.endpoint) (id : String) :
    statusRequest a id = statusRequest b id := by
  unfold statusRequest
  rw [h]

/-- What an answer or the lack of one leaves of the saved request. -/
theorem ensures_keepReply {saved : SavedSubmission} {result : Except CircleError RawResponse}
    {Q : Except SubmitError (SavedSubmission × Except FailureClass RawResponse) → World → Prop} (hw : Sound C w)
    (hok : ∀ raw limited, (result = .ok raw ∨ raw.status = .tooManyRequests) →
      Q (.ok (saved.answered raw, .ok raw)) { w with rateLimited := limited })
    (herr : ∀ m f limited, Q (.ok (saved.unanswered m, .error f)) { w with rateLimited := limited }) :
    Ensures C (keepReply C saved result) Q w := by
  unfold keepReply
  split
  · exact ensures_pure hw (hok _ w.rateLimited (Or.inl rfl))
  · exact ensures_seq (ensures_setRateLimited hw (ensures_pure hw (hok _ true (Or.inr rfl))))
  · exact ensures_seq (ensures_setRateLimited hw (ensures_pure hw (herr _ _ true)))
  · exact ensures_pure hw (herr _ _ w.rateLimited)

/-- A lookup: one GET with the saved ID, or none when the URL cannot be built. -/
theorem ensures_lookup {saved r : SavedSubmission} {id : String} (hw : Sound C w) (hwork : AtHand w.log n)
    (hgets : since (Act.gets n) w.log = 0) (hrow : w.store.row n = some r)
    (hst : r.status = .submitting ∨ r.status = .submitted) (hrid : r.withdrawalId = some id) (hreads : r.Reads saved) :
    Ensures C (sendSavedRequest C saved) (fun res w' => Steps n w w' ∧ w'.store = w.store ∧
      ∃ out response, res = .ok (out, response) ∧ saved.Reads out ∧ out.status = saved.status ∧
        out.withdrawalId = some id) w := by
  have hid : saved.noteId = n := hreads.noteId.trans (row_noteId hrow)
  have hsid : saved.withdrawalId = some id := hreads.kept id hrid
  have hkeep : ∀ (result : Except CircleError RawResponse) (w1 : World), Sound C w1 → Steps n w w1 →
      w1.store = w.store → Ensures C (keepReply C saved result) (fun res w' => Steps n w w' ∧ w'.store = w.store ∧
        ∃ out response, res = .ok (out, response) ∧ saved.Reads out ∧ out.status = saved.status ∧
          out.withdrawalId = some id) w1 := by
    intro result w1 hw1 hs hstore
    refine ensures_keepReply hw1 (fun raw limited _ => ?_) (fun m f limited => ?_)
    · exact ⟨⟨hs.log, hs.state⟩, hstore, _, _, rfl, saved.reads_answered raw, rfl, hsid⟩
    · exact ⟨⟨hs.log, hs.state⟩, hstore, _, _, rfl, saved.reads_unanswered m, rfl, hsid⟩
  subst hid
  unfold sendSavedRequest
  rw [hsid]
  cases hreq : statusRequest saved id with
  | error e =>
    simp only [hreq]
    exact hkeep _ w hw (Grew.refl w) rfl
  | ok request =>
    simp only [hreq]
    have hreq' : statusRequest r id = .ok request :=
      (statusRequest_endpoint hreads.endpoint.symm id).trans hreq
    have hallow : ∀ reply, Allowed C w.log w.store (.get saved.noteId request reply) w.store :=
      fun reply => ⟨rfl, hwork, hgets, r, id, hrow, hst, hrid, hreq'⟩
    exact ensures_seq (ensures_get hw hallow fun reply hw1 => hkeep reply _ hw1 (Grew.record rfl) rfl)

/-- A POST of the request on the row. -/
theorem ensures_send {saved : SavedSubmission} {Q : Except SubmitError
      (SavedSubmission × Except FailureClass RawResponse) → World → Prop} (hw : Sound C w) (hwork : AtHand w.log n)
    (hposts : since (Act.posts n) w.log = 0) (hadm : Admitted w.log w.store n) (hrow : w.store.row n = some saved)
    (hst : saved.status = .submitting) (hnone : saved.withdrawalId = none)
    (hok : ∀ raw reply limited, (reply = .ok raw ∨ raw.status = .tooManyRequests) →
      Q (.ok (saved.answered raw, .ok raw))
        { w.record (.post n (submissionRequest saved) reply) with rateLimited := limited })
    (herr : ∀ m f reply limited, Q (.ok (saved.unanswered m, .error f))
        { w.record (.post n (submissionRequest saved) reply) with rateLimited := limited }) :
    Ensures C (sendSavedRequest C saved) Q w := by
  obtain rfl : saved.noteId = n := row_noteId hrow
  unfold sendSavedRequest
  rw [hnone]
  have hallow : ∀ reply, Allowed C w.log w.store (.post saved.noteId (submissionRequest saved) reply) w.store :=
    fun reply => ⟨rfl, hwork, hposts, hadm, saved, hrow, hst, hnone, rfl⟩
  exact ensures_seq (ensures_post hw hallow fun reply hw1 => ensures_keepReply hw1
    (fun raw limited h => hok raw reply limited h) (fun m f limited => herr m f reply limited))

/-- A limit rejection, if the reply is one; any other reply leaves the world as it was. -/
theorem ensures_wait {status : StatusCode} {body : Bytes} {sub : Option (SavedSubmission × SubmissionAttempt)}
    (hw : Sound C w) (hcfg : configOf w.log = some config) (hwork : AtHand w.log n)
    (hno : ∀ t, w.store.recordLimitRejection n t body sub ≠ .error .conflict)
    (hsrc : status = .badRequest → ∀ now, LimitSource (⟨.clock now, w.store⟩ :: w.log) w.store n body sub) :
    Ensures C (waitForWithdrawalLimit C config n status body sub)
      (fun res w' => Done n w res w' ∧ (res = .ok false → w' = w)) w := by
  unfold waitForWithdrawalLimit
  split
  · exact ensures_pure hw ⟨.ok (Grew.refl w), fun _ => rfl⟩
  · rename_i policy hpol
    obtain ⟨hpol, hlim⟩ := Option.filter_eq_some_iff.1 hpol
    have hbad : status = .badRequest := by
      simp only [isWithdrawalLimit, Bool.and_eq_true, decide_eq_true_eq] at hlim
      exact hlim.1
    refine ensures_seq (ensures_now hw fun now hw1 => ?_)
    have hclock : Steps n w (w.record (.clock now)) := Grew.record trivial
    refine ensures_seq (ensures_attempt hw1 (fun t ht => ?_) fun e => ⟨.store hclock, fun h => by cases h⟩)
    have htimed : Timed (w.record (.clock now)).log w.store t now :=
      ⟨w.log, config, policy, rfl, hcfg, hpol, ht⟩
    have hwork1 : AtHand (w.record (.clock now)).log n := hclock.atHand hwork
    refine ensures_seq (ensures_write (x := .limit n t body sub) hw1 (by simp)
      (fun s' _ => ⟨hwork1, ⟨now, htimed⟩, hsrc hbad now⟩) (fun _ => hno t) (fun s' hs' hw2 => ?_)
      (fun e => ⟨.store (hclock.trans (Grew.record rfl)), fun h => by cases h⟩))
    exact ensures_pure hw2 ⟨.ok (hclock.trans (Grew.commit rfl hs' (Or.inl rfl))), fun h => by cases h⟩

/-- A row with a request in flight belongs to a consumed burn without a hold. -/
theorem burn_of_submitting (hinv : StoreInv C s) {r : SavedSubmission} (hrow : s.row n = some r)
    (hst : r.status = .submitting) : ∃ b, s.burn n = some b ∧ b.consumptionBlock.isSome ∧ b.holdReason = none := by
  obtain ⟨-, -, b, hb, hc⟩ := (hinv.notes n).row r hrow
  refine ⟨b, hb, hc, ?_⟩
  by_contra hne
  have := ((hinv.notes n).hold b hb (Option.isSome_iff_ne_none.2 hne)).2 r hrow
  rw [hst] at this
  cases this

theorem since_skip {p : Act → Bool} {e : Entry} {L : List Entry} (hc : e.act.isCycle = false) (hp : p e.act = false) :
    since p (e :: L) = since p L := by
  simp [since_cons, hc, hp]

/-- The 409 path. The ID is on the row before it is looked up, so the lookup is the row's own. -/
theorem ensures_conflict {saved r : SavedSubmission} (hw : Sound C w) (hwork : AtHand w.log n)
    (hgets : since (Act.gets n) w.log = 0) (hrow : w.store.row n = some r) (hst : r.status = .submitting)
    (hreads : r.Reads saved) (hsame : saved.status = r.status) (hnone : saved.withdrawalId = none) :
    Ensures C (settleConflict C saved) (Done n w) w := by
  obtain ⟨hread, hstatus, hfound⟩ := saved.readConflict_spec C hnone
  have hnot : (saved.readConflict C).1.status ≠ .held := by rw [hstatus, hsame, hst]; decide
  have hout := ensures_outcome hw hwork hrow (Or.inl hst) (hreads.trans hread) fun h => absurd h hnot
  unfold settleConflict
  generalize hres : saved.readConflict C = res at *
  obtain ⟨out, failure⟩ := res
  cases failure with
  | some f => exact hout.mono fun _ _ _ h => h.1
  | none =>
    refine ensures_bind hout (fun _ w1 hw1 hR => ?_) fun _ _ _ hR => hR.1
    obtain ⟨⟨hsteps, -⟩, hR⟩ := hR
    obtain ⟨hrow1, hlog1⟩ := hR rfl
    obtain ⟨id, hid⟩ := hfound rfl
    have hwork1 : AtHand w1.log n := hsteps.atHand hwork
    have hgets1 : since (Act.gets n) w1.log = 0 := by rw [hlog1, since_skip rfl rfl, hgets]
    have hst1 : (withOutcome r out).status = .submitting := hstatus.trans (hsame.trans hst)
    have hreads1 : (withOutcome r out).Reads out :=
      ⟨hread.noteId.trans hreads.noteId, hread.endpoint.trans hreads.endpoint, hread.body.trans hreads.body,
        hread.hash.trans hreads.hash, fun _ h => h⟩
    refine ensures_bind (ensures_lookup hw1 hwork1 hgets1 hrow1 (Or.inl hst1) hid hreads1)
      (fun p w2 hw2 hR => ?_) fun _ _ _ ⟨_, _, _, _, hres, _⟩ => by cases hres
    obtain ⟨hsteps2, hstore2, out2, response, hp, hreads2, hstatus2, -⟩ := hR
    cases hp
    refine (ensures_finish hw2 (hsteps2.atHand hwork1) (hstore2 ▸ hrow1) (Or.inl hst1) (hreads1.trans hreads2)
      (hstatus2.trans rfl)).mono fun _ _ _ h => .after hsteps (.after hsteps2 h)

/-- A first send follows the commit of its authorization. -/
def FirstSend (L : List Entry) (n : NoteId) : SubmissionAttempt → Prop
  | .recovery => True
  | .first => ∃ record s older, record.noteId = n ∧ L = ⟨.commit (.save record), s⟩ :: older

/-- The answer to a POST, up to the end of the conversation. -/
theorem ensures_settlePost {saved : SavedSubmission} {raw : RawResponse} {request : Request} {L : List Entry}
    {reply : Except CircleError RawResponse} {attempt : SubmissionAttempt}
    (hfirst : FirstSend L n attempt) (hlog : w.log = ⟨.post n request reply, s⟩ :: L)
    (hw : Sound C w) (hcfg : configOf w.log = some config) (hwork : AtHand w.log n)
    (hgets : since (Act.gets n) w.log = 0) (hrow : w.store.row n = some saved) (hst : saved.status = .submitting)
    (hnone : saved.withdrawalId = none) (hreply : reply = .ok raw ∨ raw.status = .tooManyRequests) :
    Ensures C (settlePost C config (saved.answered raw) raw attempt) (Done n w) w := by
  obtain rfl : saved.noteId = n := row_noteId hrow
  obtain ⟨b, hb, hc, hh⟩ := burn_of_submitting (legal_inv hw.1) hrow hst
  have hsent : Sent w.store saved.noteId (some (saved.answered raw, attempt)) :=
    ⟨rfl, saved, hrow, hst, hnone, saved.reads_answered raw⟩
  have hsrc : raw.status = .badRequest → ∀ now, LimitSource (⟨.clock now, w.store⟩ :: w.log) w.store saved.noteId
      raw.body (some (saved.answered raw, attempt)) := by
    intro hbad now
    cases attempt with
    | recovery => trivial
    | first =>
      obtain ⟨record, s1, older, hrec, rfl⟩ := hfirst
      have hok : reply = .ok ⟨.badRequest, raw.body⟩ := by
        rcases hreply with h | h
        · rw [h, ← hbad]
        · rw [hbad] at h; cases h
      exact ⟨_, request, s, record, s1, older, rfl, hrec, by rw [hlog, hok]⟩
  unfold settlePost
  refine ensures_bind (ensures_wait (n := saved.noteId) hw hcfg hwork (fun t => limit_no_conflict hb hc hh hsent) hsrc)
    (fun waits w1 hw1 hR => ?_) fun _ _ _ hR => hR.1.error
  obtain ⟨hdone, hsame⟩ := hR
  cases waits with
  | true => exact ensures_pure hw1 (.ok hdone.1)
  | false =>
    obtain rfl := hsame rfl
    simp only [Bool.false_eq_true, if_false]
    split
    · exact ensures_conflict hw1 hwork hgets hrow hst (saved.reads_answered raw) rfl hnone
    · exact ensures_finish hw1 hwork hrow (Or.inl hst) (saved.reads_answered raw) rfl

/-- `advance_submission`: a POST of a request without an ID, or a lookup of one with it. -/
theorem ensures_advanceSubmission {saved : SavedSubmission} (attempt : SubmissionAttempt) (hw : Sound C w)
    (hcfg : configOf w.log = some config) (hwork : AtHand w.log n) (hgets : since (Act.gets n) w.log = 0)
    (hrow : w.store.row n = some saved) (hst : saved.status = .submitting ∨ saved.status = .submitted)
    (hpost : saved.withdrawalId = none → saved.status = .submitting ∧ since (Act.posts n) w.log = 0 ∧
      Admitted w.log w.store n) (hfirst : FirstSend w.log n attempt) :
    Ensures C (advanceSubmission C config saved attempt) (Done n w) w := by
  unfold advanceSubmission
  refine ensures_seq (ensures_quiet hw rfl fun limited => ?_)
  change Bool at limited
  show Ensures C (if limited = true then _ else _) _ w
  split
  · exact ensures_pure hw (.ok (Grew.refl w))
  · cases hid : saved.withdrawalId with
    | none =>
      obtain ⟨hsub, hposts, hadm⟩ := hpost hid
      refine ensures_seq ((ensures_send hw hwork hposts hadm hrow hsub hid (Q := fun res w1 =>
        ∃ reply out response, w1.log = ⟨.post n (submissionRequest saved) reply, w.store⟩ :: w.log ∧
          w1.store = w.store ∧ res = .ok (out, response) ∧
          ((∃ raw, response = .ok raw ∧ out = saved.answered raw ∧ (reply = .ok raw ∨ raw.status = .tooManyRequests)) ∨
            ∃ f m, response = .error f ∧ out = saved.unanswered m))
        (fun raw reply limited h => ⟨reply, _, _, rfl, rfl, rfl, Or.inl ⟨raw, rfl, rfl, h⟩⟩)
        fun m f reply limited => ⟨reply, _, _, rfl, rfl, rfl, Or.inr ⟨f, m, rfl, rfl⟩⟩).mono ?_)
      rintro res w1 hw1 ⟨reply, out, response, hlog, hstore, rfl, hres⟩
      have hsteps : Steps n w w1 := ⟨⟨[_], hlog, by simp [Act.about]⟩, by rw [hstore]⟩
      have hwork1 := hsteps.atHand hwork
      have hrow1 : w1.store.row n = some saved := by rw [hstore, hrow]
      rcases hres with ⟨raw, rfl, rfl, hreply⟩ | ⟨f, m, rfl, rfl⟩
      · show Ensures C (settleReply C config attempt (saved.answered raw) (.ok raw)) _ w1
        unfold settleReply
        simp only [show (saved.answered raw).withdrawalId = none from hid]
        exact (ensures_settlePost hfirst hlog hw1 (hsteps.plain.configOf.trans hcfg) hwork1
          (by rw [hlog, since_skip rfl rfl, hgets]) hrow1 hsub hid hreply).mono fun _ _ _ h => .after hsteps h
      · show Ensures C (settleReply C config attempt (saved.unanswered m) (.error f)) _ w1
        unfold settleReply
        simp only [show (saved.unanswered m).withdrawalId = none from hid]
        exact (ensures_finish hw1 hwork1 hrow1 hst (saved.reads_unanswered m) rfl).mono fun _ _ _ h => .after hsteps h
    | some id =>
      refine ensures_bind (ensures_lookup hw hwork hgets hrow hst hid (.refl saved)) (fun p w1 hw1 hR => ?_)
        fun _ _ _ ⟨_, _, _, _, hres, _⟩ => by cases hres
      obtain ⟨hsteps, hstore, out, response, hp, hreads, hstatus, hoid⟩ := hR
      cases hp
      show Ensures C (settleReply C config attempt out response) _ w1
      unfold settleReply
      simp only [hoid]
      exact (ensures_finish hw1 (hsteps.atHand hwork) (hstore ▸ hrow) hst hreads hstatus).mono
        fun _ _ _ h => .after hsteps h

end LightAttester
