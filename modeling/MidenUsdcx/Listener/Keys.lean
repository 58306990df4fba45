import MidenUsdcx.Listener.Gate
/-!
# Which burns share a key (`evidence.rs:188-313`, `record.rs:20-32`, `submit.rs:236-264`)

The ledger knows a burn by the ID of the transaction that consumed its note (`BurnKey::new` of the package's
`burnTxId`). A faucet transaction can consume several burn notes, and nothing on the way from the note to the claim
looks at how many: their packages then have one ID, so their burns have one key, and the second of them is taken for
submitted when the first is.

`keys_apart_iff` is exact: two burns are kept apart by the keys, by the runs and by the answers unless one row of the
faucet consumed both notes.
-/
namespace WithdrawalListener
open Checked Interact

/-! ## Others leave a burn alone -/

/-- A moment in which nobody else writes the row of this burn; the ledger may fail. -/
structure OutsideMoment (key : BurnKey) extends Moment where
  elsewhere : ∀ t ∈ meanwhile, key ∉ t.op.keys

def outside (key : BurnKey) : Handler calls (OutsideMoment key) Ledger where
  step o m l := handler.step o m.toMoment l

/-- The burn is claimed, or was submitted, or is blocked. -/
def Blocked (l : Ledger) (key : BurnKey) : Prop := InStatus (·.blocksResubmission = true) l key

def runIn (key : BurnKey) (ctx : RunContext) (note : DiscoveredNote) (env : List (OutsideMoment key)) (l : Ledger) :
    Option (Except RunError Outcome) × Ledger :=
  let done := Prog.run (outside key) (runOnce ctx note).run env l
  (done.1, done.2.2)

/-- The ledger after these runs for the note, each cut off where its moments end. -/
def afterRuns (key : BurnKey) (ctx : RunContext) (note : DiscoveredNote) (runs : List (List (OutsideMoment key)))
    (l : Ledger) : Ledger :=
  runs.foldl (fun l env => (runIn key ctx note env l).2) l

/-! ## Apart -/

/-- The burn of `first` is not mistaken for the burn of `second`. -/
structure Apart (ctx : RunContext) (first second : DiscoveredNote) (p₁ p₂ : EvidencePackage) : Prop where
  keys : BurnKey.new p₁.burnTxId ≠ BurnKey.new p₂.burnTxId
  /-- However often the first is submitted, the second is not called submitted for it. -/
  runs : ∀ (l : Ledger) (earlier : List (List (OutsideMoment (.new p₂.burnTxId))))
    (env : List (OutsideMoment (.new p₂.burnTxId))), ¬ Blocked l (.new p₂.burnTxId) →
    ∀ burnTxId status, (runIn (.new p₂.burnTxId) ctx second env
      (afterRuns (.new p₂.burnTxId) ctx first earlier l)).1 ≠ some (.ok (.alreadySubmitted burnTxId status))
  /-- A 201 or a 409 that echoes the first is not about the second. -/
  answers : ∀ echoed, BurnKey.new echoed = .new p₁.burnTxId →
    echoesOneOf [p₂.burnTxId] echoed = false ∧ eqIgnoreAsciiCase echoed p₂.burnTxId = false
  /-- A status that is reported for the second does not name the first. -/
  reported : ∀ (l : Ledger) (env : List (OutsideMoment (.new p₂.burnTxId))) (burnTxId id : String)
    (status : WithdrawalStatus), (runIn (.new p₂.burnTxId) ctx second env l).1 = some (.ok (.withdrawn burnTxId id status)) ∨
      (runIn (.new p₂.burnTxId) ctx second env l).1 = some (.ok (.conflictRecovered burnTxId id status)) →
    status.key ≠ .new p₁.burnTxId

/-- One row of the faucet consumed both notes. -/
def ConsumedTogether (port : BurnEvidenceReads) (faucetId : AccountId) (first second : NoteId) : Prop :=
  ∃ details₁ details₂ transactions tx, port.noteById first = .ok ⟨first, some details₁⟩ ∧
    port.noteById second = .ok ⟨second, some details₂⟩ ∧ port.faucetTransactions faucetId = .ok transactions ∧
    tx ∈ transactions ∧ tx.accountId = faucetId ∧ details₁.nullifier ∈ tx.inputNoteNullifiers ∧
    details₂.nullifier ∈ tx.inputNoteNullifiers

/-- The text of a transaction ID is its own, in any case. -/
def TextsDiffer (C : Crates) : Prop :=
  ∀ id id', BurnKey.new (C.transactionIdToHex id) = BurnKey.new (C.transactionIdToHex id') → id = id'

section
variable {key : BurnKey} {ctx : RunContext} {note : DiscoveredNote} {package : EvidencePackage} {l : Ledger}

/-! ## What a run writes -/

/-- The call writes no row but this burn's. -/
def Call.Writes (key : BurnKey) : Call → Prop
  | .claimBurns keys => keys = [key]
  | .record _ written _ => written = key
  | .postPrepare _ | .postWithdraw _ | .getWithdrawal _ => True

theorem calls_attempt_bind {ρ ε α β : Type} {ok : Call → Prop} {f : ε → ρ} {answer : Except ε α} {k : α → Task ρ β}
    (h : ∀ a, answer = .ok a → Calls (S := calls) ok (k a)) : Calls (S := calls) ok (attempt f answer >>= k) := by
  cases answer with
  | ok a => exact h a rfl
  | error e => exact calls_throw

/-- What is submitted names the transaction of the evidence. -/
theorem clear_burnTxId {burn : DiscoveredBurn} {asked : PrepareWithdrawalRequest} {response : PrepareWithdrawalResponse}
    {cleared : String × AuthorizedWithdrawal}
    (hpackage : assembleEvidence ctx.crates ctx.evidence note.noteId ctx.config.faucetId = .ok package)
    (h : clear ctx note.noteId burn asked response = .ok cleared) :
    cleared.1 = package.burnTxId ∧ cleared.2.request.burns = [package.burnTxId] := by
  simp only [clear, bind_ok, mapError_ok, pure_ok] at h
  obtain ⟨_, _, _, _, _, _, _, _, _, _, _, _, _, _, found, hfound, batch, hbatch, built, hbuilt, authorized, hauthorized,
    rfl⟩ := h
  rw [hpackage] at hfound
  cases hfound
  refine ⟨rfl, ?_⟩
  rw [WithdrawRequest.burns, (authorizeSubmission_ok hauthorized).1, new_request_ok hbuilt, List.map_singleton,
    (new_batch_ok hbatch).2.2]

theorem Call.Within.writes {request : WithdrawRequest} (hburns : request.burns = [package.burnTxId]) {o : Call}
    (h : o.Within request) : o.Writes (.new package.burnTxId) := by
  have hkeys : request.keys = [.new package.burnTxId] := by rw [WithdrawRequest.keys, hburns, List.map_singleton]
  cases o with
  | claimBurns keys => exact Eq.trans h hkeys
  | record target written id =>
    have hwritten : written ∈ request.keys := h
    rw [hkeys] at hwritten
    exact List.mem_singleton.1 hwritten
  | postPrepare asked => trivial
  | postWithdraw posted => trivial
  | getWithdrawal id => trivial

theorem Call.Settles.writes {burnTxId : String} {o : Call} (h : o.Settles burnTxId) : o.Writes (.new burnTxId) := by
  cases o with
  | record target written id => exact h
  | getWithdrawal id => trivial
  | claimBurns keys => cases h
  | postPrepare asked => trivial
  | postWithdraw posted => trivial

theorem calls_runOnce (hpackage : assembleEvidence ctx.crates ctx.evidence note.noteId ctx.config.faucetId = .ok package) :
    Calls (Call.Writes (.new package.burnTxId)) (runOnce ctx note) := by
  refine calls_attempt_bind fun burn _ => calls_attempt_bind fun asked _ => ?_
  refine calls_bind (calls_adapt (calls_bind (calls_call trivial) fun _ => calls_attempt)) fun response => ?_
  refine calls_attempt_bind fun cleared hcleared => ?_
  obtain ⟨htext, hburns⟩ := clear_burnTxId hpackage hcleared
  refine calls_bind (calls_adapt (calls_submitWithdraw.mono fun _ h => h.writes hburns)) fun outcome => ?_
  rw [htext]
  exact (calls_settle outcome).mono fun _ h => h.writes

theorem transition_other {target : SubmissionStatus} {written : BurnKey} (hkey : key ≠ written) {id : Option String}
    {now : UInt64} {fails : Bool} : (transition target l written id now fails).2.get? key.text = l.get? key.text := by
  rcases transition_cases target l written id now fails with ⟨r, r', l', heq, hmoved⟩ | ⟨e, heq⟩
  · rw [heq]
    exact hmoved.wrote.others key.text fun htext => hkey (text_injective htext)
  · rw [heq]

theorem claimBurns_other {written : BurnKey} (hkey : key ≠ written) {now : UInt64} {fails : Bool} :
    (claimBurns l [written] now fails).2.get? key.text = l.get? key.text := by
  rcases claimBurns_cases l [written] now fails with ⟨records, l', heq, htook⟩ | ⟨r, heq⟩ | ⟨e, heq⟩
  · rw [heq]
    exact htook.others key.text fun htext => hkey (text_injective (List.mem_singleton.1 htext))
  · rw [heq]
  · rw [heq]

/-- A call for another burn leaves this row as it was. -/
theorem outside_step {written : BurnKey} (hkey : key ≠ written) {o : Call} (ho : o.Writes written) (m : OutsideMoment key)
    (l : Ledger) : ((outside key).step o m l).2.get? key.text = l.get? key.text := by
  have hmeanwhile : (afterAll l m.meanwhile).get? key.text = l.get? key.text := afterAll_other m.elsewhere
  cases o with
  | claimBurns keys =>
    obtain rfl : keys = [written] := ho
    exact (claimBurns_other hkey).trans hmeanwhile
  | record target key' id =>
    obtain rfl : key' = written := ho
    exact (transition_other hkey).trans hmeanwhile
  | postPrepare asked => exact hmeanwhile
  | postWithdraw posted => exact hmeanwhile
  | getWithdrawal id => exact hmeanwhile

/-- A run for another burn leaves this row as it was. -/
theorem runIn_other (hpackage : assembleEvidence ctx.crates ctx.evidence note.noteId ctx.config.faucetId = .ok package)
    (hkey : key ≠ .new package.burnTxId) (env : List (OutsideMoment key)) :
    (runIn key ctx note env l).2.get? key.text = l.get? key.text := by
  have hmeets := (calls_runOnce hpackage).meets (H := outside key) (I := fun l' => l'.get? key.text = l.get? key.text)
    (s := l) (fun o m l' ho hl' => (outside_step hkey ho m l').trans hl') rfl
  exact hmeets.always (fun _ h => h) (fun _ _ h => h) env

theorem afterRuns_other (hpackage : assembleEvidence ctx.crates ctx.evidence note.noteId ctx.config.faucetId = .ok package)
    (hkey : key ≠ .new package.burnTxId) (runs : List (List (OutsideMoment key))) :
    (afterRuns key ctx note runs l).get? key.text = l.get? key.text := by
  induction runs generalizing l with
  | nil => rfl
  | cons env runs ih => exact (ih (l := (runIn key ctx note env l).2)).trans (runIn_other hpackage hkey env)

/-! ## What a run answers -/

/-- What a submission of this burn alone may answer, started in this ledger. -/
def SubmitOutcome.Answers (key : BurnKey) (l : Ledger) : SubmitOutcome → Prop
  | .conflictRecovered _ status => status.key = key
  | .alreadySubmitted _ _ => Blocked l key
  | .submitted _ | .reconciliationRequired _ | .conflictEchoMismatch _ _ => True

theorem SubmitOutcome.Answers.congr {outcome : SubmitOutcome} {l' : Ledger} (h : outcome.Answers key l')
    (hread : readRecord l' key = readRecord l key) : outcome.Answers key l := by
  cases outcome with
  | alreadySubmitted burn status =>
    obtain ⟨r, hr, hblocks⟩ := h
    exact ⟨r, hread.symm.trans hr, hblocks⟩
  | submitted statuses => exact h
  | conflictRecovered id status => exact h
  | reconciliationRequired burn => exact h
  | conflictEchoMismatch burns echoed => exact h

/-- What a run for this burn alone may answer, started in this ledger. -/
def Outcome.Answers (key : BurnKey) (l : Ledger) : Outcome → Prop
  | .withdrawn _ _ status | .conflictRecovered _ _ status => status.key = key
  | .alreadySubmitted _ _ => Blocked l key
  | .reconciliationRequired _ _ => True

theorem mapError_ne {ε α : Type} {f : ε → ClaimAborted} {x : Except ε α} {r : SubmissionRecord}
    (hf : ∀ e, f e ≠ .alreadySeen r) : x.mapError f ≠ .error (.alreadySeen r) := by
  cases x with
  | ok a => exact fun h => by cases h
  | error e => exact fun h => hf e (Except.error.inj h)

theorem claimOne_seen {now : UInt64} {r : SubmissionRecord} (h : claimOne now l key = .error (.alreadySeen r)) :
    readRecord l key = .ok (some r) ∧ r.status.blocksResubmission = true := by
  have hledger : ∀ e : LedgerError, ClaimAborted.ledger e ≠ .alreadySeen r := fun _ heq => by cases heq
  unfold claimOne at h
  cases hread : readRecord l key with
  | error e =>
    rw [hread] at h
    cases h
  | ok found =>
    rw [hread] at h
    cases found with
    | none => exact absurd h (mapError_ne hledger)
    | some existing =>
      change (if existing.status.blocksResubmission then throw (ClaimAborted.alreadySeen existing)
        else (applyTransition l existing .pending none now).mapError ClaimAborted.ledger) = _ at h
      split at h
      · rename_i hblocks
        cases h
        exact ⟨rfl, hblocks⟩
      · exact absurd h (mapError_ne hledger)

theorem claimBurns_seen {now : UInt64} {fails : Bool} {r : SubmissionRecord}
    (h : (claimBurns l [key] now fails).1 = .ok (.alreadySeen r)) :
    readRecord l key = .ok (some r) ∧ r.status.blocksResubmission = true := by
  unfold claimBurns commit at h
  split at h
  · cases h
  · cases hone : claimOne now l key with
    | ok done => simp [claimEach, hone, claimAnswer, Bind.bind, Except.bind, pure, Except.pure] at h
    | error e =>
      simp only [claimEach, hone, Bind.bind, Except.bind] at h
      cases e with
      | ledger e => cases h
      | alreadySeen seen =>
        cases h
        exact claimOne_seen hone

section
variable {circle : CircleClient} {request : WithdrawRequest} {burnTxId : String} {s : Ledger}

/-- The outcome, if there is one, is about the burn. -/
def About (burnTxId : String) (l : Ledger) (r : Except SubmitError SubmitOutcome) : Prop :=
  ∀ outcome, r = .ok outcome → outcome.Answers (.new burnTxId) l

theorem about_error {e : SubmitError} : About burnTxId l (.error e) := fun _ h => by cases h

theorem about_ok {outcome : SubmitOutcome} (h : outcome.Answers (.new burnTxId) l) : About burnTxId l (.ok outcome) :=
  fun _ heq => by
    cases heq
    exact h

theorem meets_settleAttempt {keys : List BurnKey} (done : Except ListenerError Attempt) :
    Meets (outside key) (fun _ => True) (settleAttempt circle keys [burnTxId] done) (fun r _ => About burnTxId l r) s := by
  have hblocked : ∀ {t : Task SubmitError Unit} {outcome : SubmitOutcome} {s : Ledger},
      outcome.Answers (.new burnTxId) l → Meets (outside key) (fun _ => True)
        (t >>= fun _ => (pure outcome : Task SubmitError SubmitOutcome)) (fun r _ => About burnTxId l r) s :=
    fun h => meets_after (fun _ _ => meets_pure (about_ok h)) fun _ _ => about_error
  cases done with
  | error e => exact meets_after (fun _ _ => meets_throw about_error) fun _ _ => about_error
  | ok done =>
    cases done with
    | created statuses =>
      rw [settleAttempt, settleCreated]
      split
      · exact hblocked trivial
      · split
        · exact hblocked trivial
        · exact hblocked trivial
    | conflict conflict =>
      rw [settleAttempt, recoverConflict]
      split
      · exact hblocked trivial
      · rename_i index hindex
        split
        · exact hblocked trivial
        · refine meets_after (fun polled s1 => ?_) fun _ _ => about_error
          cases polled with
          | error e => exact meets_after (fun _ _ => meets_throw about_error) fun _ _ => about_error
          | ok status =>
            rw [settleRecovered]
            split
            · rename_i hecho
              refine hblocked ?_
              -- The position is one of a list of one burn.
              obtain rfl : index = 0 := by
                obtain ⟨hlt, -⟩ := List.findIdx?_eq_some_iff_getElem.1 hindex
                exact Nat.lt_one_iff.1 hlt
              exact eqIgnoreAsciiCase_iff.1 hecho
            · exact hblocked trivial

theorem meets_submitWithdraw (hburns : request.burns = [burnTxId]) (hkey : key = .new burnTxId) :
    Meets (outside key) (fun _ => True) (submitWithdraw circle request) (fun r _ => About burnTxId l r) l := by
  have hkeys : request.keys = [key] := by rw [WithdrawRequest.keys, hburns, List.map_singleton, hkey]
  rw [submitWithdraw, hkeys, hburns]
  split
  · exact meets_throw about_error
  · refine (meets_call trivial fun m => ?_).seq (R := fun r _ => ∀ record, r = .ok (.ok (.alreadySeen record)) →
      Blocked l key) ?_ fun _ _ _ => about_error
    · intro record hseen
      have hread : readRecord (afterAll l m.meanwhile) key = readRecord l key :=
        readRecord_congr (afterAll_other m.elsewhere)
      obtain ⟨hr, hblocks⟩ := claimBurns_seen (Except.ok.inj hseen)
      exact ⟨record, hread.symm.trans hr, hblocks⟩
    · intro answer s1 hanswer
      refine meets_attempt_bind (fun _ _ => about_error) fun outcome houtcome => ?_
      cases outcome with
      | alreadySeen record =>
        refine meets_pure (about_ok ?_)
        show Blocked l (.new burnTxId)
        rw [← hkey]
        exact hanswer record (congrArg Except.ok houtcome)
      | claimed records => exact meets_after (fun done _ => meets_settleAttempt done) fun _ _ => about_error

/-- The outcome, if there is one, is about the burn. -/
def Reports (burnTxId : String) (l : Ledger) (r : Except RunError Outcome) : Prop :=
  ∀ outcome, r = .ok outcome → outcome.Answers (.new burnTxId) l

theorem reports_error {e : RunError} : Reports burnTxId l (.error e) := fun _ h => by cases h

theorem reports_ok {outcome : Outcome} (h : outcome.Answers (.new burnTxId) l) : Reports burnTxId l (.ok outcome) :=
  fun _ heq => by
    cases heq
    exact h

theorem meets_settle {outcome : SubmitOutcome} (h : outcome.Answers (.new burnTxId) l) :
    Meets (outside key) (fun _ => True) (settle ctx burnTxId outcome) (fun r _ => Reports burnTxId l r) s := by
  cases outcome with
  | submitted statuses =>
    refine meets_after (fun created _ => meets_after (fun status _ => ?_) fun _ _ => reports_error)
      fun _ _ => reports_error
    split
    · rename_i hecho
      have hown : Reports burnTxId l (.ok (.withdrawn burnTxId created.withdrawalId.asStr status)) :=
        reports_ok (eqIgnoreAsciiCase_iff.1 hecho)
      split
      · exact meets_after (fun _ _ => meets_pure hown) fun _ _ => reports_error
      · exact meets_pure hown
    · exact meets_pure (reports_ok trivial)
  | conflictRecovered id status => exact meets_pure (reports_ok h)
  | reconciliationRequired burn => exact meets_pure (reports_ok trivial)
  | conflictEchoMismatch burns echoed => exact meets_pure (reports_ok trivial)
  | alreadySubmitted burn status => exact meets_pure (reports_ok h)

end

/-- What a run answers, if anything, is about its own burn. -/
theorem meets_runOnce (hpackage : assembleEvidence ctx.crates ctx.evidence note.noteId ctx.config.faucetId = .ok package)
    (hkey : key = .new package.burnTxId) :
    Meets (outside key) (fun _ => True) (runOnce ctx note) (fun r _ => Reports package.burnTxId l r) l := by
  refine meets_attempt_bind (fun _ _ => reports_error) fun burn _ => ?_
  refine meets_attempt_bind (fun _ _ => reports_error) fun asked _ => ?_
  -- Preparing leaves the row to the others, who leave it alone.
  have hprepare : Meets (outside key) (fun _ => True) ((prepare ctx.circle asked).adapt RunError.circle)
      (fun _ l' => readRecord l' key = readRecord l key) l := by
    refine meets_adapt ((meets_call trivial fun m => ?_).seq (R := fun _ l' => readRecord l' key = readRecord l key)
      (fun answer l' h => ?_) fun _ _ h => h)
    · exact readRecord_congr (afterAll_other m.elsewhere)
    · cases hprepared : preparedOf ctx.circle answer with
      | error e => exact h
      | ok response => exact h
  refine hprepare.seq (fun response l' hread => ?_) fun _ _ _ => reports_error
  refine meets_attempt_bind (fun _ _ => reports_error) fun cleared hcleared => ?_
  obtain ⟨htext, hburns⟩ := clear_burnTxId hpackage hcleared
  have hsubmit : Meets (outside key) (fun _ => True) ((submitWithdraw ctx.circle cleared.2.request).adapt RunError.submit)
      (fun r _ => ∀ outcome, r = .ok outcome → outcome.Answers (.new package.burnTxId) l) l' := by
    refine meets_adapt ((meets_submitWithdraw (l := l') hburns hkey).mono fun r _ habout => ?_)
    intro outcome houtcome
    cases r with
    | error e => cases houtcome
    | ok found =>
      cases houtcome
      exact (habout _ rfl).congr (hkey ▸ hread)
  refine hsubmit.seq (fun outcome s houtcome => ?_) fun _ _ _ => reports_error
  rw [htext]
  exact meets_settle (houtcome outcome rfl)

theorem runIn_reports (hpackage : assembleEvidence ctx.crates ctx.evidence note.noteId ctx.config.faucetId = .ok package)
    {env : List (OutsideMoment (.new package.burnTxId))} {outcome : Outcome}
    (h : (runIn (.new package.burnTxId) ctx note env l).1 = some (.ok outcome)) :
    outcome.Answers (.new package.burnTxId) l := by
  obtain ⟨-, hdone⟩ := Prog.Guards.run env (meets_runOnce (l := l) hpackage rfl)
  exact hdone _ h outcome rfl

end

/-! ## The same transaction -/

section
variable {ctx : RunContext} {first second : DiscoveredNote} {p₁ p₂ : EvidencePackage}

/-- Packages with one key name one transaction, which consumed both notes; and the other way round. -/
theorem key_eq_iff (hhex : TextsDiffer ctx.crates)
    (h₁ : assembleEvidence ctx.crates ctx.evidence first.noteId ctx.config.faucetId = .ok p₁)
    (h₂ : assembleEvidence ctx.crates ctx.evidence second.noteId ctx.config.faucetId = .ok p₂) :
    BurnKey.new p₁.burnTxId = .new p₂.burnTxId ↔
      ConsumedTogether ctx.evidence ctx.config.faucetId first.noteId second.noteId := by
  obtain ⟨details₁, -, transactions, tx₁, hnote₁, -, hread, hby₁, -, -, rfl⟩ := (assembleEvidence_ok h₁).burned
  obtain ⟨details₂, -, transactions', tx₂, hnote₂, -, hread', hby₂, -, -, rfl⟩ := (assembleEvidence_ok h₂).burned
  obtain rfl : transactions = transactions' := Except.ok.inj (hread.symm.trans hread')
  constructor
  · intro hkey
    have hid : tx₁.transactionId = tx₂.transactionId := hhex _ _ hkey
    obtain rfl : tx₁ = tx₂ := hby₂.consistent tx₁ hby₁.reported hid
    exact ⟨details₁, details₂, transactions, tx₁, hnote₁, hnote₂, hread, hby₁.reported, hby₁.faucet, hby₁.consumed,
      hby₂.consumed⟩
  · rintro ⟨d₁, d₂, rows, tx, hd₁, hd₂, hrows, htx, hfaucet, hin₁, hin₂⟩
    obtain rfl : rows = transactions := Except.ok.inj (hrows.symm.trans hread)
    cases hd₁.symm.trans hnote₁
    cases hd₂.symm.trans hnote₂
    obtain rfl : tx = tx₁ := hby₁.only tx htx hfaucet hin₁
    obtain rfl : tx = tx₂ := hby₂.only tx htx hfaucet hin₂
    rfl

/-- The burns of two notes are kept apart exactly when no row of the faucet consumed both. -/
theorem keys_apart_iff (hhex : TextsDiffer ctx.crates)
    (h₁ : assembleEvidence ctx.crates ctx.evidence first.noteId ctx.config.faucetId = .ok p₁)
    (h₂ : assembleEvidence ctx.crates ctx.evidence second.noteId ctx.config.faucetId = .ok p₂) :
    Apart ctx first second p₁ p₂ ↔
      ¬ ConsumedTogether ctx.evidence ctx.config.faucetId first.noteId second.noteId := by
  rw [← key_eq_iff hhex h₁ h₂]
  constructor
  · exact fun happart => happart.keys
  · intro hkeys
    refine ⟨hkeys, ?_, ?_, ?_⟩
    · intro l earlier env hfree burnTxId status hanswer
      obtain ⟨r, hr, hblocks⟩ := runIn_reports h₂ hanswer
      have hread : readRecord (afterRuns (.new p₂.burnTxId) ctx first earlier l) (.new p₂.burnTxId) =
          readRecord l (.new p₂.burnTxId) := readRecord_congr (afterRuns_other h₁ (Ne.symm hkeys) earlier)
      exact hfree ⟨r, hread.symm.trans hr, hblocks⟩
    · intro echoed hechoed
      constructor
      · rw [Bool.eq_false_iff]
        intro hecho
        have hmem := echoesOneOf_iff.1 hecho
        rw [List.map_singleton, List.mem_singleton, hechoed] at hmem
        exact hkeys hmem
      · rw [Bool.eq_false_iff]
        intro hecho
        exact hkeys (hechoed.symm.trans (eqIgnoreAsciiCase_iff.1 hecho))
    · rintro l env burnTxId id status (hanswer | hanswer) hstatus
      · have hown : status.key = .new p₂.burnTxId := runIn_reports h₂ hanswer
        exact hkeys (hstatus.symm.trans hown)
      · have hown : status.key = .new p₂.burnTxId := runIn_reports h₂ hanswer
        exact hkeys (hstatus.symm.trans hown)

end

/-! ## Two burns -/

/-- What the node reports about the faucet agrees with itself. -/
structure Consistent (port : BurnEvidenceReads) (faucetId : AccountId) (transactions : List TransactionRecord) : Prop where
  read : port.faucetTransactions faucetId = .ok transactions
  rows : (transactions.map (·.transactionId)).Nodup
  spentOnce : (transactions.flatMap (·.inputNoteNullifiers)).Nodup
  blocks : ∀ tx ∈ transactions, ∀ nullifier ∈ tx.inputNoteNullifiers,
    port.nullifierStatus nullifier = .ok ⟨nullifier, some tx.blockNum⟩

def sampleBytes (n : UInt8) : Bytes32 := Vector.replicate 32 n

/-- Crates whose transaction IDs are written as Miden's are. -/
def sampleCrates : Crates :=
  ⟨fun _ => none, fun _ _ => none, fun _ => sampleBytes 0, fun _ => "", fun id => toHex id.bytes.toList,
    fun _ _ _ => none⟩

def sampleFaucet : AccountId := ⟨1⟩

/-- Notes 1 and 2 with nullifiers 11 and 12, created in block 5 and consumed in block 7 by the rows. -/
def sampleReads (rows : List TransactionRecord) : BurnEvidenceReads where
  noteById noteId := .ok ⟨noteId, some ⟨⟨sampleBytes (noteId.bytes[0] + 10)⟩, ⟨5, []⟩⟩⟩
  faucetTransactions _ := .ok rows
  nullifierStatus nullifier := .ok ⟨nullifier, some 7⟩

def sampleContext (rows : List TransactionRecord) : RunContext where
  crates := sampleCrates
  config := ⟨sampleFaucet, 0, 0, 0, []⟩
  circle := ⟨0, .new 1, .new 1, ⟨fun _ => none, fun _ => none, fun _ => none, fun _ => none⟩⟩
  signer _ := .error .ecdsa
  evidence := sampleReads rows

def sampleNote (n : UInt8) : DiscoveredNote := ⟨⟨sampleBytes n⟩, ⟨0, none⟩⟩

def sampleBurn : DiscoveredBurn := ⟨⟨0, sampleBytes 0⟩, 10, ⟨3⟩⟩

def sampleRow (id : UInt8) (nullifiers : List UInt8) : TransactionRecord :=
  ⟨⟨sampleBytes id⟩, sampleFaucet, 7, nullifiers.map fun n => ⟨sampleBytes n⟩, []⟩

def samplePackage (id note : UInt8) : EvidencePackage :=
  ⟨toHex (sampleBytes id).toList, sampleBytes note, sampleBytes (note + 10), 5⟩

theorem toHex_toLower (bytes : List UInt8) : (toHex bytes).toLower = toHex bytes := by
  show (toHex bytes).map Char.toLower = toHex bytes
  rw [String.map_eq_internal, toHex, String.toList_ofList, List.map_cons, List.map_cons, Hex.encode_toLower]
  rfl

theorem textsDiffer_sample : TextsDiffer sampleCrates := by
  intro id id' hkey
  have htext : toHex id.bytes.toList = toHex id'.bytes.toList := by
    have hlower := congrArg BurnKey.text hkey
    rwa [show (BurnKey.new (sampleCrates.transactionIdToHex id)).text = _ from toHex_toLower id.bytes.toList,
      show (BurnKey.new (sampleCrates.transactionIdToHex id')).text = _ from toHex_toLower id'.bytes.toList] at hlower
  have hdigits : Hex.encode id.bytes.toList = Hex.encode id'.bytes.toList := by
    have hlist := congrArg String.toList htext
    rw [toHex, toHex, String.toList_ofList, String.toList_ofList] at hlist
    exact (List.cons.inj (List.cons.inj hlist).2).2
  have hbytes : id.bytes.toList = id'.bytes.toList := by
    have hdecoded := congrArg Hex.decode hdigits
    rwa [Hex.decode_encode, Hex.decode_encode, Option.some.injEq] at hdecoded
  cases id with
  | mk bytes => exact congrArg TransactionId.mk (Vector.toList_inj.1 hbytes)

/-- Two transactions, one for each note. -/
theorem keys_apart_two :
    Apart (sampleContext [sampleRow 21 [11], sampleRow 22 [12]]) (sampleNote 1) (sampleNote 2) (samplePackage 21 1)
      (samplePackage 22 2) := by
  have h₁ : assembleEvidence sampleCrates (sampleReads [sampleRow 21 [11], sampleRow 22 [12]]) (sampleNote 1).noteId
      sampleFaucet = .ok (samplePackage 21 1) := by decide
  have h₂ : assembleEvidence sampleCrates (sampleReads [sampleRow 21 [11], sampleRow 22 [12]]) (sampleNote 2).noteId
      sampleFaucet = .ok (samplePackage 22 2) := by decide
  refine (keys_apart_iff textsDiffer_sample h₁ h₂).2 fun htogether => ?_
  have hkey : BurnKey.new (samplePackage 21 1).burnTxId = .new (samplePackage 22 2).burnTxId :=
    (key_eq_iff textsDiffer_sample h₁ h₂).2 htogether
  have hid : (⟨sampleBytes 21⟩ : TransactionId) = ⟨sampleBytes 22⟩ := textsDiffer_sample _ _ hkey
  exact absurd hid (by decide)

/-- One transaction that consumed both notes: the reads are consistent, both packages are assembled, and the burns
share a key. -/
theorem keys_shared :
    Consistent (sampleReads [sampleRow 21 [11, 12]]) sampleFaucet [sampleRow 21 [11, 12]] ∧
      (sampleNote 1).noteId ≠ (sampleNote 2).noteId ∧
      (samplePackage 21 1).nullifier ≠ (samplePackage 21 2).nullifier ∧
      assembleEvidence sampleCrates (sampleReads [sampleRow 21 [11, 12]]) (sampleNote 1).noteId sampleFaucet =
        .ok (samplePackage 21 1) ∧
      assembleEvidence sampleCrates (sampleReads [sampleRow 21 [11, 12]]) (sampleNote 2).noteId sampleFaucet =
        .ok (samplePackage 21 2) ∧
      BurnKey.new (samplePackage 21 1).burnTxId = .new (samplePackage 21 2).burnTxId ∧
      ¬ Apart (sampleContext [sampleRow 21 [11, 12]]) (sampleNote 1) (sampleNote 2) (samplePackage 21 1)
        (samplePackage 21 2) := by
  refine ⟨⟨rfl, by decide, by decide, ?_⟩, by decide, by decide, by decide, by decide, rfl, fun h => h.keys rfl⟩
  intro tx htx nullifier _
  obtain rfl := List.mem_singleton.1 htx
  rfl

end WithdrawalListener
