import MidenUsdcx.Attester.Service
import MidenUsdcx.Attester.StoreSpec
/-!
# The rules of a run

The attester's history as a transition system of its own: `Allowed C L s a s'` says when the act `a`
may follow the log `L` in the committed store `s`, and which store it leaves. `Legal` logs are the ones
where every act was allowed. Two things are proved about this: every run of the program keeps to the
rules (`Refinement.lean`), and the rules give the guarantees (`Invariant.lean` and the modules after
it).

An item of the work lists is taken up by opening its span, once in a cycle (`Worked`), and its steps
follow one another with nothing else between them (`AtHand`). What may be done for it follows from the
store and from what the log holds since the cycle began.
-/
namespace LightAttester

/-! ## Reading the log -/

namespace Act

def isCycle : Act → Bool
  | .cycle _ => true
  | _ => false

def opens (n : NoteId) : Act → Bool
  | .withdraw m => m == n
  | _ => false

def prepares (n : NoteId) : Act → Bool
  | .prepare burn _ _ => burn.noteId == n
  | _ => false

def signs (n : NoteId) : Act → Bool
  | .sign m _ => m == n
  | _ => false

def posts (n : NoteId) : Act → Bool
  | .post m _ _ => m == n
  | _ => false

def gets (n : NoteId) : Act → Bool
  | .get m _ _ => m == n
  | _ => false

end Act

/-- The four transactions of an item's own steps. -/
def Write.isStep : Write → Bool
  | .save _ | .outcome _ | .hold _ _ _ | .limit _ _ _ _ => true
  | _ => false

/-- The steps of the item `n`. The clock is read for whichever item is at hand. -/
def Act.about (n : NoteId) : Act → Prop
  | .withdraw m | .sign m _ | .post m _ _ | .get m _ _ => m = n
  | .prepare burn _ _ => burn.noteId = n
  | .clock _ => True
  | .commit w | .refused w _ => w.note = some n
  | .cycle _ | .discovered _ | .snapshot _ => False

/-- How many acts of a kind there were since the cycle began. -/
def since (p : Act → Bool) : List Entry → Nat
  | [] => 0
  | e :: L => if e.act.isCycle then 0 else (if p e.act then 1 else 0) + since p L

/-- The item's span was opened in this cycle. -/
def Worked (L : List Entry) (n : NoteId) : Prop := since (Act.opens n) L ≠ 0

/-- `n` is the item at hand: since its span was opened there were only its own steps. -/
def AtHand (L : List Entry) (n : NoteId) : Prop :=
  ∃ newer s older, L = newer ++ ⟨.withdraw n, s⟩ :: older ∧ ∀ e ∈ newer, e.act.about n

/-- The configuration of the latest cycle. -/
def configOf : List Entry → Option Config
  | [] => none
  | e :: L => match e.act with
    | .cycle config => some config
    | _ => configOf L

/-- The proof lag discovery returned in this cycle. -/
def lagOf : List Entry → Option BlockNumber
  | [] => none
  | e :: L => match e.act with
    | .cycle _ => none
    | .discovered lag => some lag
    | _ => lagOf L

/-- The work lists of this cycle. -/
def workOf : List Entry → Option Work
  | [] => none
  | e :: L => match e.act with
    | .cycle _ => none
    | .snapshot work => some work
    | _ => workOf L

def Work.notes (work : Work) : List NoteId :=
  work.recover.map (·.noteId) ++ work.ready.map (·.noteId) ++ work.poll.map (·.noteId)

/-! ## The rules -/

/-- The store belongs to this configuration and has its first checkpoint. -/
def Attached (config : Config) (s : Store) : Prop :=
  ∃ st, s.state = some st ∧ st.faucetAccountId = config.faucetAccountId ∧ st.anchor = config.trustedAnchor ∧
    st.checkpoint.isSome

/-- `SignedBlock::validate` against the saved chain: the child of the checkpoint, or the pinned anchor
when there is none yet. -/
def Authenticated (C : Crates) (st : AttesterState) (block : SignedBlock) : Prop :=
  match st.checkpoint with
  | some checkpoint => block.header.blockNum = checkpoint.blockNum + 1 ∧ C.validate block (some checkpoint) = true
  | none => block.header.blockNum = st.anchor.blockNum ∧ block.header.commitment = st.anchor.commitment ∧
      C.validate block none = true

/-- The burn is recorded as it was read, consumed and free of a hold, and has no submission but an
expired one. -/
def FreshBurn (s : Store) (d : DiscoveredBurn) : Prop :=
  (∃ b, s.burn d.noteId = some b ∧ b.note = d.note ∧ b.creationBlock = d.creationBlock ∧
    b.consumptionBlock = some d.consumptionBlock ∧ b.holdReason = none) ∧
  ∀ r, s.row d.noteId = some r → r.status = .expired

/-- No burn waits for the limit ahead of `n`. -/
def Barrier (s : Store) (n : NoteId) : Prop :=
  ∃ b, s.burn n = some b ∧ ∀ w m, s.burn m = some w → w.limitRetryAt.isSome → b.place ≤ w.place

/-- The item at hand began with a new deadline for `n`. -/
def Advanced (L : List Entry) (n : NoteId) : Prop :=
  ∃ newer older s r, L = newer ++ ⟨.commit (.advance n r), s⟩ :: older ∧ ∀ e ∈ newer, e.act.about n

/-- What `limit_allows` establishes. -/
def Admitted (L : List Entry) (s : Store) (n : NoteId) : Prop :=
  Barrier s n ∧ ((∃ b, s.burn n = some b ∧ b.limitRetryAt.isSome) → Advanced L n)

/-- `d` is the fresh burn at hand. -/
def FreshItem (L : List Entry) (s : Store) (d : DiscoveredBurn) : Prop :=
  AtHand L d.noteId ∧ (∃ work, workOf L = some work ∧ d ∈ work.ready) ∧ FreshBurn s d

/-- A deadline computed from the clock reading just before. -/
def Timed (L : List Entry) (s : Store) (t : Nat) (now : Int) : Prop :=
  ∃ older config policy, L = ⟨.clock now, s⟩ :: older ∧ configOf L = some config ∧
    config.withdrawalLimit = some policy ∧ policy.retryAt now = .ok t

/-- The lists hold what the store held, and fresh burns only after discovery. -/
def Snapshot (C : Crates) (L : List Entry) (s : Store) (work : Work) : Prop :=
  s.submissionsToRecover C = .ok work.recover ∧ s.submissionsToPoll C = .ok work.poll ∧
    (work.ready = [] ∨ ∃ config lag, configOf L = some config ∧ lagOf L = some lag ∧
      s.burnsReadyForWithdrawal C config.faucetAccountId lag config.minimumFinalityDepthBlocks = .ok work.ready) ∧
    ∃ config, configOf L = some config ∧ Attached config s

/-- The rejected request: a preparation of a fresh burn, the first send of the authorization committed
just before it, or a resend. -/
def LimitSource (L : List Entry) (s : Store) (n : NoteId) (body : Bytes) :
    Option (SavedSubmission × SubmissionAttempt) → Prop
  | none => ∀ r, s.row n = some r → r.status = .expired
  | some (_, .recovery) => True
  | some (saved, .first) => ∃ clock request s1 record s2 older, saved.noteId = n ∧ record.noteId = n ∧
      L = clock :: ⟨.post n request (.ok ⟨.badRequest, body⟩), s1⟩ :: ⟨.commit (.save record), s2⟩ :: older

/-- When a transaction may be committed. -/
def WriteOk (C : Crates) (L : List Entry) (s : Store) : Write → Prop
  | .create _ _ => s = .blank
  | .scan candidates burns header => ∃ block st, block.header = header ∧ s.state = some st ∧
      Authenticated C st block ∧ findBurnsInBlock C st.faucetAccountId s block = .ok (candidates, burns)
  | .save record => ∃ d, d.noteId = record.noteId ∧ FreshItem L s d
  | .outcome out => AtHand L out.noteId ∧ (out.status = .held → out.withdrawalId = none) ∧
      ∃ r, s.row out.noteId = some r ∧ (r.status = .submitting ∨ r.status = .submitted) ∧ r.Reads out
  | .hold n _ _ => ∃ d, d.noteId = n ∧ FreshItem L s d
  | .advance n t => ∃ now d b old, Timed L s t now ∧ sinceEpoch now = some d ∧ s.burn n = some b ∧
      b.limitRetryAt = some old ∧ old ≤ asSecs d
  | .limit n t body sub => AtHand L n ∧ (∃ now, Timed L s t now) ∧ LimitSource L s n body sub
  | .release _ | .releaseAll _ => True

/-- When an act may follow, and the store it leaves. -/
def Allowed (C : Crates) (L : List Entry) (s : Store) : Act → Store → Prop
  | .cycle config, s' => s' = s ∧ Attached config s
  | .discovered _, s' => s' = s ∧ workOf L = none
  | .snapshot work, s' => s' = s ∧ workOf L = none ∧ Snapshot C L s work
  | .withdraw n, s' => s' = s ∧ ¬ Worked L n ∧ ∃ work, workOf L = some work ∧ n ∈ work.notes
  | .prepare burn _ _, s' => s' = s ∧ FreshItem L s burn ∧ since (Act.prepares burn.noteId) L = 0 ∧
      Admitted L s burn.noteId
  | .sign n _, s' => s' = s ∧ ∃ d, d.noteId = n ∧ FreshItem L s d
  | .post n request _, s' => s' = s ∧ AtHand L n ∧ since (Act.posts n) L = 0 ∧ Admitted L s n ∧
      ∃ r, s.row n = some r ∧ r.status = .submitting ∧ r.withdrawalId = none ∧ request = submissionRequest r
  | .get n request _, s' => s' = s ∧ AtHand L n ∧ since (Act.gets n) L = 0 ∧
      ∃ r id, s.row n = some r ∧ (r.status = .submitting ∨ r.status = .submitted) ∧ r.withdrawalId = some id ∧
        statusRequest r id = .ok request
  | .clock _, s' => s' = s
  | .commit w, s' => w.apply C s = .ok s' ∧ WriteOk C L s w
  | .refused w e, s' => s' = s ∧ (w.isStep = true → e ≠ .conflict)

/-- The logs whose every act was allowed, with the store they end in. -/
inductive Legal (C : Crates) : List Entry → Store → Prop where
  | nil : Legal C [] .blank
  | step {L : List Entry} {s s' : Store} {a : Act} : Legal C L s → Allowed C L s a s' → Legal C (⟨a, s'⟩ :: L) s'

/-- A property of a log and its store that every allowed act keeps holds of every legal log. -/
theorem Legal.induct {C : Crates} {P : List Entry → Store → Prop} (nil : P [] .blank)
    (step : ∀ {L : List Entry} {s s' : Store} {a : Act}, Legal C L s → P L s → Allowed C L s a s' →
      P (⟨a, s'⟩ :: L) s') :
    ∀ {L : List Entry} {s : Store}, Legal C L s → P L s
  | _, _, .nil => nil
  | _, _, .step hL ha => step hL (hL.induct nil step) ha

/-- Only a commit changes the store. -/
theorem Allowed.store {C : Crates} {L : List Entry} {s s' : Store} {a : Act} (h : Allowed C L s a s') :
    s' = s ∨ ∃ w, a = .commit w ∧ w.apply C s = .ok s' ∧ WriteOk C L s w := by
  cases a with
  | commit w => exact Or.inr ⟨w, rfl, h⟩
  | clock now => exact Or.inl h
  | cycle config => exact Or.inl h.1
  | discovered lag => exact Or.inl h.1
  | snapshot work => exact Or.inl h.1
  | withdraw n => exact Or.inl h.1
  | prepare burn fee reply => exact Or.inl h.1
  | sign n digest => exact Or.inl h.1
  | post n request reply => exact Or.inl h.1
  | get n request reply => exact Or.inl h.1
  | refused w e => exact Or.inl h.1

/-- A property of the store alone needs only the commits. -/
theorem Legal.store_induct {C : Crates} {P : Store → Prop} (nil : P .blank)
    (commit : ∀ {L : List Entry} {s s' : Store} {w : Write}, Legal C L s → P s → w.apply C s = .ok s' →
      WriteOk C L s w → P s') {L : List Entry} {s : Store} (h : Legal C L s) : P s := by
  refine h.induct nil (P := fun _ s => P s) fun hL hP ha => ?_
  rcases ha.store with rfl | ⟨w, rfl, hw, hok⟩
  · exact hP
  · exact commit hL hP hw hok

/-! ## Points of a log -/

/-- The committed store at the end of a log. -/
def storeOf : List Entry → Store
  | [] => .blank
  | e :: _ => e.store

namespace Legal
variable {C : Crates} {L newer : List Entry} {s : Store}

theorem storeOf_eq (h : Legal C L s) : storeOf L = s := by
  cases h <;> rfl

/-- Each entry was allowed where it stands. -/
theorem tail {e : Entry} (h : Legal C (e :: L) s) : Legal C L (storeOf L) ∧ Allowed C L (storeOf L) e.act e.store := by
  cases h with
  | step hL ha => exact ⟨hL.storeOf_eq.symm ▸ hL, hL.storeOf_eq.symm ▸ ha⟩

/-- A log that is legal was legal at every point. -/
theorem suffix (h : Legal C (newer ++ L) s) : Legal C L (storeOf L) := by
  induction newer generalizing s with
  | nil => exact h.storeOf_eq.symm ▸ h
  | cons e newer ih => exact ih h.tail.1

theorem entry {e : Entry} (h : Legal C (newer ++ e :: L) s) :
    Legal C L (storeOf L) ∧ Allowed C L (storeOf L) e.act e.store := h.suffix.tail

/-- What holds at one point and is kept by every later act holds from there on. -/
theorem forward {P : List Entry → Store → Prop} (h : Legal C (newer ++ L) s) (hP : P L (storeOf L))
    (step : ∀ {l : List Entry} {s s' : Store} {a : Act}, Legal C (l ++ L) s → (∃ l', newer = l' ++ ⟨a, s'⟩ :: l) →
      P (l ++ L) s → Allowed C (l ++ L) s a s' → P (⟨a, s'⟩ :: l ++ L) s') : P (newer ++ L) s := by
  induction newer generalizing s with
  | nil => exact h.storeOf_eq ▸ hP
  | cons e newer ih =>
    have hkeep := ih h.tail.1 fun hL ⟨l', hl'⟩ hP ha => step hL ⟨e :: l', by rw [hl']; rfl⟩ hP ha
    have hstep := step h.tail.1 ⟨[], rfl⟩ hkeep h.tail.2
    rw [← h.storeOf_eq]
    exact hstep

end Legal

end LightAttester
