import MidenUsdcx.Attester.Admin
/-!
# What an admin answer means (`admin.rs:383-456`, `attester.rs:194-328`)

`copies` counts where a request's command is: in the inbox, with the attester or run. It grows only when the command is
admitted and is never more than one, so a command whose sender was dropped has not been run and will not be, and one
that was answered was run.
-/
namespace LightAttester.Admin
open Checked Keyed Store

variable {C : Crates} {config : Config} {tryFromHex : String → Option NoteId} {s s' : State}

/-! ## Where a command is -/

/-- Whether the attester is about to run the request's command. -/
def Serving.holds (i : Nat) : Serving → Nat
  | .taken c | .unstopped c | .inTime c | .started c => if c.request = i then 1 else 0
  | .idle | .done _ _ => 0

/-- The copies of a request's command that are queued, with the attester, or run. -/
def State.copies (s : State) (i : Nat) : Nat :=
  s.inbox.countP (fun c => c.request == i) + s.serving.holds i + s.log.countP (fun e => e.request == i)

/-- Before the command is admitted. -/
def Phase.unsent : Phase → Bool
  | .absent | .reading | .handling _ | .cleared _ _ => true
  | .waiting _ | .answered _ | .gone => false

/-- The client has its answer, or none will come. -/
def Phase.over : Phase → Bool
  | .answered _ | .gone => true
  | .absent | .reading | .handling _ | .cleared _ _ | .waiting _ => false

/-- The command was run once, with this result. -/
def State.Ran (s : State) (i : Nat) (result : Except StoreError Answer) : Prop :=
  ∃ e ∈ s.log, e.request = i ∧ e.result = result

/-- What a reply rests on. -/
def State.Explains (s : State) (i : Nat) : Except AdminError Answer → Prop
  | .ok answer => s.Ran i (.ok answer)
  | .error (.release e) => s.Ran i (.error e)
  | .error .replyTimeout => True
  | .error _ => s.copies i = 0

/-- A run that succeeds commits its release; any other leaves the store. -/
structure Execution.Right (e : Execution) : Prop where
  released : ∀ selection answer, e.operation = .release selection → e.result = .ok answer →
    ∃ burns withdrawals, answer = .released burns withdrawals ∧
      e.before.releaseChecked selection = .ok (e.after, burns, withdrawals)
  refused : ∀ error, e.result = .error error → e.after = e.before
  listed : ∀ after, e.operation = .list after → e.after = e.before

/-! ## Steps -/

theorem holds_pass {command : Queued} {next : Serving} (h : Passes s command next) (i : Nat) :
    next.holds i = s.serving.holds i := by
  cases h with
  | unstopped h => rw [h]; rfl
  | inTime h => rw [h]; rfl
  | started h => rw [h]; rfl

theorem holds_fails {command : Queued} (h : Fails s command) (i : Nat) :
    s.serving.holds i = if command.request = i then 1 else 0 := by
  cases h with
  | stopped h => rw [h]; rfl
  | late h => rw [h]; rfl
  | closed h => rw [h]; rfl

/-- Sending touches the connection and the inbox only. -/
theorem trySend_eq (s : State) (i : Nat) (operation : Operation) (deadline : Nat) :
    ∃ connection inbox, s.trySend i operation deadline = { s with connection := connection, inbox := inbox } := by
  unfold State.trySend
  split
  · exact ⟨_, s.inbox, rfl⟩
  · split
    · exact ⟨_, s.inbox, rfl⟩
    · exact ⟨_, _, rfl⟩

/-- Only a command that is admitted adds a copy. -/
theorem copies_step (h : Step C config tryFromHex s s') (i : Nat) :
    s'.copies i ≤ s.copies i ∨ ∃ operation deadline, s.connection i = .cleared operation deadline ∧
      s' = { s.setConnection i (.waiting deadline) with inbox := s.inbox ++ [⟨i, operation, deadline⟩] } := by
  cases h with
  | dial | read | work | tick | cancel | stop => exact .inl (Nat.le_refl _)
  | send j operation deadline h =>
    unfold State.trySend
    split
    · exact .inl (Nat.le_refl _)
    · split
      · exact .inl (Nat.le_refl _)
      · by_cases hij : j = i
        · subst hij
          exact .inr ⟨operation, deadline, h, rfl⟩
        · refine .inl (Nat.le_of_eq ?_)
          have hcount : (s.inbox ++ [Queued.mk j operation deadline]).countP (fun c => c.request == i) =
              s.inbox.countP fun c => c.request == i := by
            rw [List.countP_append, List.countP_singleton, if_neg (by simpa using hij), Nat.add_zero]
          show (s.inbox ++ [Queued.mk j operation deadline]).countP (fun c => c.request == i) + _ + _ = _
          rw [hcount]
          rfl
  | take command rest h hinbox =>
    refine .inl (Nat.le_of_eq ?_)
    show rest.countP _ + (if command.request = i then 1 else 0) + _ = s.inbox.countP _ + s.serving.holds i + _
    rw [hinbox, h, List.countP_cons]
    simp [Serving.holds]
  | pass command next h =>
    refine .inl (Nat.le_of_eq ?_)
    show _ + next.holds i + _ = _
    rw [holds_pass h]
    rfl
  | skip command h =>
    refine .inl ?_
    show s.inbox.countP _ + 0 + s.log.countP _ ≤ s.inbox.countP _ + _ + s.log.countP _
    omega
  | execute command fails h =>
    refine .inl (Nat.le_of_eq ?_)
    show s.inbox.countP _ + 0 + (_ :: s.log).countP _ = s.inbox.countP _ + s.serving.holds i + s.log.countP _
    rw [h, List.countP_cons]
    simp only [Serving.holds, beq_iff_eq]
    omega
  | answer command result h =>
    refine .inl (Nat.le_of_eq ?_)
    show _ + 0 + _ = _ + s.serving.holds i + _
    rw [h]
    rfl
  | close h =>
    refine .inl ?_
    show 0 + s.serving.holds i + s.log.countP _ ≤ s.inbox.countP _ + s.serving.holds i + s.log.countP _
    omega

theorem log_step (h : Step C config tryFromHex s s') : ∃ added, s'.log = added ++ s.log := by
  cases h with
  | execute command fails h => exact ⟨[_], rfl⟩
  | send i operation deadline h =>
    obtain ⟨_, _, hsend⟩ := trySend_eq s i operation deadline
    rw [hsend]
    exact ⟨[], rfl⟩
  | dial | read | take | pass | skip | answer | close | work | tick | cancel | stop => exact ⟨[], rfl⟩

/-- A connection that is over stays so. -/
theorem over_step (h : Step C config tryFromHex s s') {i : Nat} (hover : (s.connection i).over = true) :
    s'.connection i = s.connection i := by
  have hset : ∀ j p, (j = i → p = s.connection i) → (s.setConnection j p).connection i = s.connection i := by
    intro j p hsame
    show (if i = j then p else s.connection i) = _
    by_cases hij : i = j
    · rw [if_pos hij, hsame hij.symm]
    · rw [if_neg hij]
  cases h with
  | dial j p h =>
    refine hset j p fun hij => ?_
    subst hij
    cases h with
    | connect h | unread _ h | refuse _ _ h | stopping _ h | clear _ h | receive _ _ h | lose _ h | expire _ h =>
      rw [h] at hover
      cases hover
    | abort h =>
      cases hphase : s.connection j with
      | gone => rfl
      | answered reply => exact absurd hphase (h reply)
      | absent | reading | handling | cleared | waiting =>
        rw [hphase] at hover
        cases hover
  | read j request operation h =>
    refine hset j _ fun hij => ?_
    rw [← hij, h] at hover
    cases hover
  | send j operation deadline h =>
    have hne : ∀ p, j = i → p = s.connection i := by
      intro p hij
      rw [← hij, h] at hover
      cases hover
    unfold State.trySend
    split
    · exact hset j _ (hne _)
    · split
      · exact hset j _ (hne _)
      · exact hset j _ (hne _)
  | take | pass | skip | execute | answer | close | work | tick | cancel | stop => rfl

/-- An answer is final. -/
theorem answered_step (h : Step C config tryFromHex s s') {i : Nat} {reply : Except AdminError Answer}
    (hreply : s.connection i = .answered reply) : s'.connection i = .answered reply := by
  rw [over_step h (by rw [hreply]; rfl), hreply]

theorem Ran.step {i : Nat} {result : Except StoreError Answer} (h : Step C config tryFromHex s s')
    (hran : s.Ran i result) : s'.Ran i result := by
  obtain ⟨added, hlog⟩ := log_step h
  obtain ⟨e, he, hrequest, hresult⟩ := hran
  exact ⟨e, hlog ▸ List.mem_append_right added he, hrequest, hresult⟩

theorem copies_zero_step (h : Step C config tryFromHex s s') {i : Nat} (hzero : s.copies i = 0)
    (hsent : ∀ operation deadline, s.connection i ≠ .cleared operation deadline) : s'.copies i = 0 := by
  rcases copies_step h i with hle | ⟨operation, deadline, hcleared, -⟩
  · omega
  · exact absurd hcleared (hsent operation deadline)

theorem Explains.step {i : Nat} {reply : Except AdminError Answer} (h : Step C config tryFromHex s s')
    (hreply : s.connection i = .answered reply) (hexplains : s.Explains i reply) : s'.Explains i reply := by
  have hzero : s.copies i = 0 → s'.copies i = 0 := fun hzero =>
    copies_zero_step h hzero fun operation deadline hcleared => by
      rw [hreply] at hcleared
      cases hcleared
  cases reply with
  | ok answer => exact Ran.step h hexplains
  | error e =>
    cases e with
    | release error => exact Ran.step h hexplains
    | replyTimeout => trivial
    | invalidInput message => exact hzero hexplains
    | requestTooLarge => exact hzero hexplains
    | stopping => exact hzero hexplains
    | queueFull => exact hzero hexplains
    | unavailable => exact hzero hexplains

/-- A connection does not go back. -/
theorem unsent_step (h : Step C config tryFromHex s s') {i : Nat} (hunsent : (s'.connection i).unsent = true) :
    (s.connection i).unsent = true := by
  have hset : ∀ j p, ((s.setConnection j p).connection i).unsent = true →
      (p.unsent = true → (s.connection j).unsent = true) → (s.connection i).unsent = true := by
    intro j p hnow hback
    by_cases hij : i = j
    · subst hij
      exact hback (by rwa [show (s.setConnection i p).connection i = p from if_pos rfl] at hnow)
    · rwa [show (s.setConnection j p).connection i = s.connection i from if_neg hij] at hnow
  cases h with
  | dial j p h =>
    refine hset j p hunsent fun hp => ?_
    cases h with
    | connect h => rw [h]; rfl
    | clear operation h => rw [h]; rfl
    | unread | refuse | stopping | receive | lose | expire | abort => cases hp
  | read j request operation h =>
    refine hset j (.handling operation) hunsent fun _ => ?_
    rw [h]
    rfl
  | send j operation deadline h =>
    have hcleared : (s.connection j).unsent = true := by
      rw [h]
      rfl
    unfold State.trySend at hunsent
    split at hunsent
    · exact hset j _ hunsent fun _ => hcleared
    · split at hunsent
      · exact hset j _ hunsent fun _ => hcleared
      · exact hset j _ hunsent fun _ => hcleared
  | take | pass | skip | execute | answer | close | work | tick | cancel | stop => exact hunsent

theorem Ran.copies_pos {i : Nat} {result : Except StoreError Answer} (h : s.Ran i result) : 0 < s.copies i := by
  obtain ⟨e, he, hrequest, -⟩ := h
  have hcount : 0 < s.log.countP fun e => e.request == i := List.countP_pos_iff.2 ⟨e, he, beq_iff_eq.2 hrequest⟩
  unfold State.copies
  omega

/-- A request that is not valid is answered as such. -/
theorem handle_error {request : AdminRequest} {e : AdminError} (h : handle tryFromHex request = .error e) :
    ∃ message, e = .invalidInput message := by
  cases request with
  | holds after =>
    cases after with
    | none => cases h
    | some text =>
      simp only [handle] at h
      cases hparse : parseNoteId tryFromHex text with
      | none =>
        rw [hparse] at h
        exact ⟨_, (Except.error.inj h).symm⟩
      | some n =>
        rw [hparse] at h
        cases h
  | release text expected accepted =>
    simp only [handle] at h
    cases hparse : parseNoteId tryFromHex text with
    | none =>
      rw [hparse] at h
      exact ⟨_, (Except.error.inj h).symm⟩
    | some n =>
      rw [hparse] at h
      by_cases hpos : 0 < expected
      · simp only [orThrow, ensure, if_pos hpos] at h
        cases h
      · simp only [orThrow, ensure, if_neg hpos] at h
        exact ⟨_, (Except.error.inj h).symm⟩

/-- The run that a command adds to the log is right. -/
theorem right_perform (store : Store) (i : Nat) (operation : Operation) :
    Execution.Right ⟨i, operation, store, (perform C config store operation).1, (perform C config store operation).2⟩ := by
  cases operation with
  | list after =>
    refine ⟨fun _ _ h => ?_, fun _ _ => rfl, fun _ _ => rfl⟩
    cases h
  | release selection =>
    cases hrun : store.releaseChecked selection with
    | error e =>
      have hperform : perform C config store (.release selection) = (store, .error e) := by simp only [perform, hrun]
      rw [hperform]
      refine ⟨fun _ _ _ h => ?_, fun _ _ => rfl, fun _ h => ?_⟩
      · cases h
      · cases h
    | ok run =>
      obtain ⟨store', burns, withdrawals⟩ := run
      have hperform : perform C config store (.release selection) = (store', .ok (.released burns withdrawals)) := by
        simp only [perform, hrun]
      rw [hperform]
      refine ⟨fun chosen answer hchosen hresult => ?_, fun _ h => ?_, fun _ h => ?_⟩
      · cases hchosen
        cases hresult
        exact ⟨burns, withdrawals, rfl, hrun⟩
      · cases h
      · cases h

theorem right_io (store : Store) (i : Nat) (operation : Operation) :
    Execution.Right ⟨i, operation, store, store, .error .io⟩ := by
  refine ⟨fun _ _ _ h => ?_, fun _ _ => rfl, fun _ _ => rfl⟩
  cases h

/-- Who writes to a channel: the attester when it drops the command or answers it, and a closing inbox. -/
theorem channel_step (h : Step C config tryFromHex s s') (i : Nat) : s'.channel i = s.channel i ∨
    (∃ command, Fails s command ∧ command.request = i ∧ s' = s.drop command) ∨
    (∃ command result, s.serving = .done command result ∧ command.request = i ∧ s'.channel i = .sent result) ∨
    ((s.inbox.any fun c => c.request == i) = true ∧ s' = s.closeInbox) := by
  cases h with
  | skip command h =>
    by_cases hi : i = command.request
    · exact .inr (.inl ⟨command, h, hi.symm, rfl⟩)
    · exact .inl (if_neg hi)
  | answer command result h =>
    by_cases hi : i = command.request
    · exact .inr (.inr (.inl ⟨command, result, h, hi.symm, if_pos hi⟩))
    · exact .inl (if_neg hi)
  | close h =>
    by_cases hi : (s.inbox.any fun c => c.request == i) = true
    · exact .inr (.inr (.inr ⟨hi, rfl⟩))
    · exact .inl (if_neg hi)
  | send j operation deadline h =>
    obtain ⟨_, _, hsend⟩ := trySend_eq s j operation deadline
    rw [hsend]
    exact .inl rfl
  | dial | read | take | pass | execute | work | tick | cancel | stop => exact .inl rfl

theorem queued_copies {i : Nat} (h : (s.inbox.any fun c => c.request == i) = true) :
    0 < s.inbox.countP fun c => c.request == i := by
  obtain ⟨c, hc, hrequest⟩ := List.any_eq_true.1 h
  exact List.countP_pos_iff.2 ⟨c, hc, hrequest⟩

/-! ## What every run keeps -/

structure Inv (s : State) : Prop where
  once : ∀ i, s.copies i ≤ 1
  unsent : ∀ i, (s.connection i).unsent = true → s.copies i = 0
  empty : ∀ i, (s.connection i).unsent = true → s.channel i = .empty
  dropped : ∀ i, s.channel i = .dropped → s.copies i = 0
  sent : ∀ i result, s.channel i = .sent result → s.Ran i result
  done : ∀ command result, s.serving = .done command result → s.Ran command.request result
  right : ∀ e ∈ s.log, e.Right
  replies : ∀ i reply, s.connection i = .answered reply → s.Explains i reply

theorem inv_first (store : Store) (now : Nat) : Inv (.first store now) where
  once _ := Nat.zero_le 1
  unsent _ _ := rfl
  empty _ _ := rfl
  dropped _ _ := rfl
  sent _ _ h := by cases h
  done _ _ h := by cases h
  right _ h := by cases h
  replies _ _ h := by cases h

section
variable (hinv : Inv s) (h : Step C config tryFromHex s s')
include hinv h

theorem once_step (i : Nat) : s'.copies i ≤ 1 := by
  rcases copies_step h i with hle | ⟨operation, deadline, hcleared, rfl⟩
  · exact Nat.le_trans hle (hinv.once i)
  · have hzero : s.copies i = 0 := hinv.unsent i (by rw [hcleared]; rfl)
    show (s.inbox ++ [Queued.mk i operation deadline]).countP (fun c => c.request == i) + _ + _ ≤ 1
    rw [List.countP_append, List.countP_singleton, if_pos (beq_self_eq_true i)]
    unfold State.copies at hzero
    show _ + 1 + s.serving.holds i + s.log.countP _ ≤ 1
    omega

theorem unsent_copies_step (i : Nat) (hunsent : (s'.connection i).unsent = true) : s'.copies i = 0 := by
  have hzero := hinv.unsent i (unsent_step h hunsent)
  rcases copies_step h i with hle | ⟨operation, deadline, -, rfl⟩
  · omega
  · rw [show (_ : State).connection i = Phase.waiting deadline from if_pos rfl] at hunsent
    cases hunsent

theorem empty_step (i : Nat) (hunsent : (s'.connection i).unsent = true) : s'.channel i = .empty := by
  have hzero := hinv.unsent i (unsent_step h hunsent)
  rcases channel_step h i with hsame | ⟨command, hfails, hi, -⟩ | ⟨command, result, hdone, hi, -⟩ | ⟨hqueued, -⟩
  · rw [hsame]
    exact hinv.empty i (unsent_step h hunsent)
  · have hholds := holds_fails hfails i
    rw [if_pos hi] at hholds
    unfold State.copies at hzero
    omega
  · have hpos := Ran.copies_pos (hinv.done command result hdone)
    rw [hi] at hpos
    omega
  · have hpos := queued_copies hqueued
    unfold State.copies at hzero
    omega

theorem dropped_step (i : Nat) (hdropped : s'.channel i = .dropped) : s'.copies i = 0 := by
  have honce := hinv.once i
  rcases channel_step h i with hsame | ⟨command, hfails, hi, rfl⟩ | ⟨command, result, -, -, hsent⟩ | ⟨hqueued, rfl⟩
  · rw [hsame] at hdropped
    refine copies_zero_step h (hinv.dropped i hdropped) fun operation deadline hcleared => ?_
    rw [hinv.empty i (by rw [hcleared]; rfl)] at hdropped
    cases hdropped
  · have hholds := holds_fails hfails i
    rw [if_pos hi] at hholds
    unfold State.copies at honce
    show s.inbox.countP _ + 0 + s.log.countP _ = 0
    omega
  · rw [hsent] at hdropped
    cases hdropped
  · have hpos := queued_copies hqueued
    unfold State.copies at honce
    show 0 + s.serving.holds i + s.log.countP _ = 0
    omega

theorem sent_step (i : Nat) (result : Except StoreError Answer) (hsent : s'.channel i = .sent result) :
    s'.Ran i result := by
  rcases channel_step h i with hsame | ⟨command, -, hi, rfl⟩ | ⟨command, result', hdone, rfl, hanswer⟩ | ⟨hqueued, rfl⟩
  · rw [hsame] at hsent
    exact Ran.step h (hinv.sent i result hsent)
  · rw [show (s.drop command).channel i = .dropped from if_pos hi.symm] at hsent
    cases hsent
  · rw [hanswer] at hsent
    cases hsent
    exact Ran.step h (hinv.done command result hdone)
  · rw [show s.closeInbox.channel i = .dropped from if_pos hqueued] at hsent
    cases hsent

theorem done_step (command : Queued) (result : Except StoreError Answer) (hdone : s'.serving = .done command result) :
    s'.Ran command.request result := by
  have hsame : s'.serving = s.serving → s'.Ran command.request result := fun hserving =>
    Ran.step h (hinv.done command result (hserving ▸ hdone))
  cases h with
  | execute c fails hstarted =>
    cases hdone
    exact ⟨_, List.mem_cons_self, rfl, rfl⟩
  | pass c next hpass =>
    cases hpass with
    | unstopped | inTime | started => cases hdone
  | send i operation deadline hcleared =>
    refine hsame ?_
    obtain ⟨_, _, hsend⟩ := trySend_eq s i operation deadline
    rw [hsend]
  | take | skip | answer => cases hdone
  | dial | read | close | work | tick | cancel | stop => exact hsame rfl

theorem right_step : ∀ e ∈ s'.log, e.Right := by
  intro e he
  cases h with
  | execute command fails hstarted =>
    rcases List.mem_cons.1 he with rfl | he
    · cases fails with
      | true => exact right_io s.store command.request command.operation
      | false => exact right_perform s.store command.request command.operation
    · exact hinv.right e he
  | send i operation deadline hcleared =>
    obtain ⟨_, _, hsend⟩ := trySend_eq s i operation deadline
    rw [hsend] at he
    exact hinv.right e he
  | dial | read | take | pass | skip | answer | close | work | tick | cancel | stop => exact hinv.right e he

omit h in
/-- A reply that a connection gives, while the attester does nothing. -/
theorem replies_dial {i : Nat} {reply : Except AdminError Answer} (hdial : Dials tryFromHex s i (.answered reply)) :
    s.Explains i reply := by
  cases hdial with
  | unread e hreading hunread =>
    have hzero : s.copies i = 0 := hinv.unsent i (by rw [hreading]; rfl)
    cases e with
    | release | queueFull | unavailable | replyTimeout => cases hunread
    | invalidInput | requestTooLarge | stopping => exact hzero
  | refuse request e hreading hhandle =>
    obtain ⟨message, rfl⟩ := handle_error hhandle
    exact hinv.unsent i (by rw [hreading]; rfl)
  | stopping operation hhandling => exact hinv.unsent i (by rw [hhandling]; rfl)
  | receive deadline result hwaiting hsent =>
    cases result with
    | ok answer => exact hinv.sent i _ hsent
    | error e => exact hinv.sent i _ hsent
  | lose deadline hwaiting hdropped => exact hinv.dropped i hdropped
  | expire => trivial

theorem replies_step (i : Nat) (reply : Except AdminError Answer) (hreply : s'.connection i = .answered reply) :
    s'.Explains i reply := by
  -- The connection had this answer before, or gets it now.
  by_cases hbefore : s.connection i = .answered reply
  · exact Explains.step h hbefore (hinv.replies i reply hbefore)
  · have hset : ∀ j p, (s.setConnection j p).connection i = .answered reply → j = i ∧ p = .answered reply := by
      intro j p hnow
      by_cases hij : i = j
      · exact ⟨hij.symm, (if_pos hij).symm.trans hnow⟩
      · exact absurd ((if_neg hij).symm.trans hnow) hbefore
    cases h with
    | dial j p hdial =>
      obtain ⟨rfl, rfl⟩ := hset j p hreply
      exact replies_dial hinv hdial
    | read j request operation hreading =>
      cases (hset j _ hreply).2
    | send j operation deadline hcleared =>
      -- A refused command was never admitted.
      have hzero : s.copies j = 0 := hinv.unsent j (by rw [hcleared]; rfl)
      unfold State.trySend at hreply ⊢
      split at hreply
      · rename_i hclosed
        obtain ⟨rfl, hp⟩ := hset j _ hreply
        cases hp
        rw [if_pos hclosed]
        exact hzero
      · split at hreply
        · rename_i hclosed hfull
          obtain ⟨rfl, hp⟩ := hset j _ hreply
          cases hp
          rw [if_neg hclosed, if_pos hfull]
          exact hzero
        · cases (hset j _ hreply).2
    | take | pass | skip | execute | answer | close | work | tick | cancel | stop => exact absurd hreply hbefore

theorem Inv.step : Inv s' where
  once := once_step hinv h
  unsent := unsent_copies_step hinv h
  empty := empty_step hinv h
  dropped := dropped_step hinv h
  sent := sent_step hinv h
  done := done_step hinv h
  right := right_step hinv h
  replies := replies_step hinv h

end

theorem Inv.steps (hinv : Inv s) (hsteps : Steps C config tryFromHex s s') : Inv s' := by
  induction hsteps with
  | refl => exact hinv
  | tail _ h ih => exact Inv.step ih h

/-! ## What a run was asked for -/

/-- The command the attester is working on. -/
def Serving.command : Serving → Option Queued
  | .taken c | .unstopped c | .inTime c | .started c | .done c _ => some c
  | .idle => none

/-- The operation a connection is about to send. -/
def Phase.operation : Phase → Option Operation
  | .handling operation | .cleared operation _ => some operation
  | .absent | .reading | .waiting _ | .answered _ | .gone => none

/-- Every command carries the operation its request asked for. -/
structure Asked (s : State) : Prop where
  unread : ∀ i, s.connection i = .absent ∨ s.connection i = .reading → s.asked i = none
  phase : ∀ i operation, (s.connection i).operation = some operation → s.asked i = some operation
  queued : ∀ c ∈ s.inbox, s.asked c.request = some c.operation
  serving : ∀ c, s.serving.command = some c → s.asked c.request = some c.operation
  logged : ∀ e ∈ s.log, s.asked e.request = some e.operation

theorem asked_first (store : Store) (now : Nat) : Asked (.first store now) where
  unread _ _ := rfl
  phase _ _ h := by cases h
  queued _ h := by cases h
  serving _ h := by cases h
  logged _ h := by cases h

theorem connection_setConnection (i j : Nat) (p : Phase) :
    (s.setConnection i p).connection j = if j = i then p else s.connection j := rfl

/-- What a connection's own step keeps. -/
theorem Asked.setConnection (hasked : Asked s) (j : Nat) (p : Phase)
    (hunread : p = .absent ∨ p = .reading → s.connection j = .absent ∨ s.connection j = .reading)
    (hphase : ∀ operation, p.operation = some operation → (s.connection j).operation = some operation) :
    Asked (s.setConnection j p) where
  unread i hi := by
    rw [connection_setConnection] at hi
    by_cases hij : i = j
    · subst hij
      rw [if_pos rfl] at hi
      exact hasked.unread i (hunread hi)
    · rw [if_neg hij] at hi
      exact hasked.unread i hi
  phase i operation hi := by
    rw [connection_setConnection] at hi
    by_cases hij : i = j
    · subst hij
      rw [if_pos rfl] at hi
      exact hasked.phase i operation (hphase operation hi)
    · rw [if_neg hij] at hi
      exact hasked.phase i operation hi
  queued := hasked.queued
  serving := hasked.serving
  logged := hasked.logged

theorem Asked.dial (hasked : Asked s) {j : Nat} {p : Phase} (h : Dials tryFromHex s j p) :
    Asked (s.setConnection j p) := by
  cases h with
  | connect h => exact hasked.setConnection j _ (fun _ => .inl h) (fun _ hp => by cases hp)
  | clear operation h =>
    refine hasked.setConnection j _ (fun hp => ?_) (fun _ hp => ?_)
    · rcases hp with hp | hp
      · cases hp
      · cases hp
    · rw [h]
      exact hp
  | unread | refuse | stopping | receive | lose | expire | abort =>
    refine hasked.setConnection j _ (fun hp => ?_) (fun _ hp => by cases hp)
    rcases hp with hp | hp
    · cases hp
    · cases hp

theorem Asked.read (hasked : Asked s) {j : Nat} {operation : Operation} (h : s.connection j = .reading) :
    Asked { s.setConnection j (.handling operation) with
      asked := fun i => if i = j then some operation else s.asked i } := by
  -- The request asked for nothing before, so it is not the one of any command.
  have hother : ∀ i o, s.asked i = some o → (if i = j then some operation else s.asked i) = some o := by
    intro i o hi
    by_cases hij : i = j
    · rw [hij, hasked.unread j (.inr h)] at hi
      cases hi
    · rw [if_neg hij]
      exact hi
  refine ⟨fun i hi => ?_, fun i o hi => ?_, fun c hc => hother _ _ (hasked.queued c hc),
    fun c hc => hother _ _ (hasked.serving c hc), fun e he => hother _ _ (hasked.logged e he)⟩
  · by_cases hij : i = j
    · rw [show (_ : State).connection i = Phase.handling operation from if_pos hij] at hi
      rcases hi with hi | hi
      · cases hi
      · cases hi
    · rw [show (_ : State).connection i = s.connection i from if_neg hij] at hi
      exact (if_neg hij).trans (hasked.unread i hi)
  · by_cases hij : i = j
    · rw [show (_ : State).connection i = Phase.handling operation from if_pos hij] at hi
      exact (if_pos hij).trans hi
    · rw [show (_ : State).connection i = s.connection i from if_neg hij] at hi
      exact hother i o (hasked.phase i o hi)

theorem Asked.send (hasked : Asked s) {j : Nat} {operation : Operation} {deadline : Nat}
    (h : s.connection j = .cleared operation deadline) : Asked (s.trySend j operation deadline) := by
  have hset : ∀ p : Phase, p ≠ .absent → p ≠ .reading → p.operation = none → Asked (s.setConnection j p) := by
    intro p habsent hreading hnone
    refine hasked.setConnection j p (fun hp => ?_) (fun _ hp => ?_)
    · rcases hp with hp | hp
      · exact absurd hp habsent
      · exact absurd hp hreading
    · rw [hnone] at hp
      cases hp
  unfold State.trySend
  split
  · exact hset _ (by simp) (by simp) rfl
  · split
    · exact hset _ (by simp) (by simp) rfl
    · have hwaiting := hset (.waiting deadline) (by simp) (by simp) rfl
      refine ⟨hwaiting.unread, hwaiting.phase, fun c hc => ?_, hasked.serving, hasked.logged⟩
      rcases List.mem_append.1 hc with hc | hc
      · exact hasked.queued c hc
      · cases List.mem_singleton.1 hc
        exact hasked.phase j operation (by rw [h]; rfl)

theorem Asked.step (hasked : Asked s) (h : Step C config tryFromHex s s') : Asked s' := by
  have hidle : ∀ c, Serving.idle.command = some c → s.asked c.request = some c.operation := fun c hc => by cases hc
  cases h with
  | dial j p h => exact hasked.dial h
  | read j request operation h hhandle => exact hasked.read h
  | send j operation deadline h => exact hasked.send h
  | take command rest h hinbox =>
    refine ⟨hasked.unread, hasked.phase, fun c hc => ?_, fun c hc => ?_, hasked.logged⟩
    · exact hasked.queued c (hinbox ▸ List.mem_cons_of_mem command hc)
    · cases hc
      exact hasked.queued command (hinbox ▸ List.mem_cons_self)
  | pass command next h =>
    refine ⟨hasked.unread, hasked.phase, hasked.queued, fun c hc => hasked.serving c ?_, hasked.logged⟩
    cases h with
    | unstopped h => rw [h]; exact hc
    | inTime h => rw [h]; exact hc
    | started h => rw [h]; exact hc
  | skip command h => exact ⟨hasked.unread, hasked.phase, hasked.queued, hidle, hasked.logged⟩
  | execute command fails h =>
    have hcommand : s.asked command.request = some command.operation := hasked.serving command (by rw [h]; rfl)
    refine ⟨hasked.unread, hasked.phase, hasked.queued, fun c hc => ?_, fun e he => ?_⟩
    · cases hc
      exact hcommand
    · rcases List.mem_cons.1 he with rfl | he
      · exact hcommand
      · exact hasked.logged e he
  | answer command result h => exact ⟨hasked.unread, hasked.phase, hasked.queued, hidle, hasked.logged⟩
  | close h =>
    refine ⟨hasked.unread, hasked.phase, fun c hc => ?_, hasked.serving, hasked.logged⟩
    cases hc
  | work w store' h hw => exact ⟨hasked.unread, hasked.phase, hasked.queued, hasked.serving, hasked.logged⟩
  | tick now h => exact ⟨hasked.unread, hasked.phase, hasked.queued, hasked.serving, hasked.logged⟩
  | cancel => exact ⟨hasked.unread, hasked.phase, hasked.queued, hasked.serving, hasked.logged⟩
  | stop h => exact ⟨hasked.unread, hasked.phase, hasked.queued, hasked.serving, hasked.logged⟩

theorem Reachable.asked (h : Reachable C config tryFromHex s) : Asked s := by
  obtain ⟨store, now, hsteps⟩ := h
  induction hsteps with
  | refl => exact asked_first store now
  | tail _ h ih => exact ih.step h

theorem Reachable.inv (h : Reachable C config tryFromHex s) : Inv s := by
  obtain ⟨store, now, hsteps⟩ := h
  exact Inv.steps (inv_first store now) hsteps

/-! ## Commands that are given up -/

/-- The command has not passed the check for a shutdown; nor the one for the deadline; nor the one for the channel. -/
def State.Unstopped (s : State) (c : Queued) : Prop := c ∈ s.inbox ∨ s.serving = .taken c

def State.Untimed (s : State) (c : Queued) : Prop := s.Unstopped c ∨ s.serving = .unstopped c

def State.Unchecked (s : State) (c : Queued) : Prop := s.Untimed c ∨ s.serving = .inTime c

/-- A check that the command has still to pass already fails. -/
inductive Doomed (s : State) (c : Queued) : Prop where
  | stopped (hstop : s.shutdown = true) (h : s.Unstopped c)
  | late (hlate : c.deadline ≤ s.now) (h : s.Untimed c)
  | closed (hclosed : s.closed c.request = true) (h : s.Unchecked c)

theorem Doomed.unchecked {c : Queued} (h : Doomed s c) : s.Unchecked c := by
  cases h with
  | stopped _ h => exact .inl (.inl h)
  | late _ h => exact .inl h
  | closed _ h => exact h

/-- Such a command is in the inbox or with the attester, and so not in the log. -/
theorem unchecked_copies {c : Queued} (h : s.Unchecked c) :
    0 < s.inbox.countP (fun d => d.request == c.request) + s.serving.holds c.request := by
  have hholds : ∀ serving : Serving, serving.holds c.request = 1 → s.serving = serving →
      0 < s.inbox.countP (fun d => d.request == c.request) + s.serving.holds c.request := by
    intro serving hone hserving
    rw [hserving, hone]
    omega
  rcases h with ((hmem | htaken) | hunstopped) | hinTime
  · have hpos : 0 < s.inbox.countP fun d => d.request == c.request :=
      List.countP_pos_iff.2 ⟨c, hmem, beq_self_eq_true c.request⟩
    omega
  · exact hholds (.taken c) (if_pos rfl) htaken
  · exact hholds (.unstopped c) (if_pos rfl) hunstopped
  · exact hholds (.inTime c) (if_pos rfl) hinTime

/-- A receiver that is gone does not come back. -/
theorem closed_step (h : Step C config tryFromHex s s') {i : Nat} (hsent : (s.connection i).unsent = false)
    (hclosed : s.closed i = true) : s'.closed i = true := by
  have hover : (s.connection i).over = true := by
    unfold State.closed at hclosed
    cases hphase : s.connection i with
    | answered | gone => rfl
    | absent | reading | handling | cleared =>
      rw [hphase] at hsent
      cases hsent
    | waiting =>
      rw [hphase] at hclosed
      cases hclosed
  unfold State.closed
  rw [over_step h hover]
  exact hclosed

theorem shutdown_step (h : Step C config tryFromHex s s') (hstop : s.shutdown = true) : s'.shutdown = true := by
  cases h with
  | cancel => rfl
  | send i operation deadline h =>
    obtain ⟨_, _, hsend⟩ := trySend_eq s i operation deadline
    rw [hsend]
    exact hstop
  | dial | read | take | pass | skip | execute | answer | close | work | tick | stop => exact hstop

theorem now_step (h : Step C config tryFromHex s s') : s.now ≤ s'.now := by
  cases h with
  | tick now h => exact h
  | send i operation deadline h =>
    obtain ⟨_, _, hsend⟩ := trySend_eq s i operation deadline
    rw [hsend]
  | dial | read | take | pass | skip | execute | answer | close | work | cancel | stop => exact Nat.le_refl _

/-- A queued command stays so until it is taken, or dropped with the inbox. -/
theorem queued_step (h : Step C config tryFromHex s s') {c : Queued} (hmem : c ∈ s.inbox) :
    s'.Unstopped c ∨ s'.channel c.request = .dropped := by
  cases h with
  | send i operation deadline h =>
    unfold State.trySend
    split
    · exact .inl (.inl hmem)
    · split
      · exact .inl (.inl hmem)
      · exact .inl (.inl (List.mem_append_left _ hmem))
  | take command rest h hinbox =>
    rw [hinbox] at hmem
    rcases List.mem_cons.1 hmem with rfl | hmem
    · exact .inl (.inr rfl)
    · exact .inl (.inl hmem)
  | close h => exact .inr (if_pos (List.any_eq_true.2 ⟨c, hmem, beq_self_eq_true c.request⟩))
  | dial | read | pass | skip | execute | answer | work | tick | cancel | stop => exact .inl (.inl hmem)

/-- The command the attester is still checking. -/
def Serving.checking : Serving → Option Queued
  | .taken c | .unstopped c | .inTime c => some c
  | .idle | .started _ | .done _ _ => none

theorem checking_fails {c command : Queued} (hchecking : s.serving.checking = some c) (h : Fails s command) :
    command = c := by
  cases h with
  | stopped h => simpa [h, Serving.checking] using hchecking
  | late h => simpa [h, Serving.checking] using hchecking
  | closed h => simpa [h, Serving.checking] using hchecking

theorem checking_passes {c command : Queued} {next : Serving} (hchecking : s.serving.checking = some c)
    (h : Passes s command next) : command = c := by
  cases h with
  | unstopped h => simpa [h, Serving.checking] using hchecking
  | inTime h => simpa [h, Serving.checking] using hchecking
  | started h => simpa [h, Serving.checking] using hchecking

/-- A command that is being checked passes, or is dropped. -/
theorem checking_step (h : Step C config tryFromHex s s') {c : Queued} (hchecking : s.serving.checking = some c) :
    s'.serving = s.serving ∨ Passes s c s'.serving ∨ s'.channel c.request = .dropped := by
  cases h with
  | send i operation deadline h =>
    obtain ⟨_, _, hsend⟩ := trySend_eq s i operation deadline
    rw [hsend]
    exact .inl rfl
  | take _ _ h | close h | work _ _ h | execute _ _ h | answer _ _ h =>
    rw [h] at hchecking
    cases hchecking
  | pass command next h =>
    cases checking_passes hchecking h
    exact .inr (.inl h)
  | skip command h =>
    cases checking_fails hchecking h
    exact .inr (.inr (if_pos rfl))
  | dial | read | tick | cancel | stop => exact .inl rfl

/-! A command leaves each stage by passing its check or by being dropped. -/

section
variable (h : Step C config tryFromHex s s') {c : Queued}
include h

theorem Unstopped.step (hwhere : s.Unstopped c) : s'.Unstopped c ∨
    (s.shutdown = false ∧ s'.serving = .unstopped c) ∨ s'.channel c.request = .dropped := by
  rcases hwhere with hmem | htaken
  · rcases queued_step h hmem with hwhere | hdropped
    · exact .inl hwhere
    · exact .inr (.inr hdropped)
  · rcases checking_step h (c := c) (by rw [htaken]; rfl) with hsame | hpass | hdropped
    · exact .inl (.inr (hsame.trans htaken))
    · generalize s'.serving = next at hpass ⊢
      cases hpass with
      | unstopped _ hstop => exact .inr (.inl ⟨hstop, rfl⟩)
      | inTime hother => cases htaken.symm.trans hother
      | started hother => cases htaken.symm.trans hother
    · exact .inr (.inr hdropped)

theorem Untimed.step (hwhere : s.Untimed c) : s'.Untimed c ∨
    (s.now < c.deadline ∧ s'.serving = .inTime c) ∨ s'.channel c.request = .dropped := by
  rcases hwhere with hwhere | hunstopped
  · rcases Unstopped.step h hwhere with hwhere | ⟨-, hserving⟩ | hdropped
    · exact .inl (.inl hwhere)
    · exact .inl (.inr hserving)
    · exact .inr (.inr hdropped)
  · rcases checking_step h (c := c) (by rw [hunstopped]; rfl) with hsame | hpass | hdropped
    · exact .inl (.inr (hsame.trans hunstopped))
    · generalize s'.serving = next at hpass ⊢
      cases hpass with
      | unstopped hother => cases hunstopped.symm.trans hother
      | inTime _ hlate => exact .inr (.inl ⟨hlate, rfl⟩)
      | started hother => cases hunstopped.symm.trans hother
    · exact .inr (.inr hdropped)

theorem Unchecked.step (hwhere : s.Unchecked c) : s'.Unchecked c ∨
    s.closed c.request = false ∨ s'.channel c.request = .dropped := by
  rcases hwhere with hwhere | hinTime
  · rcases Untimed.step h hwhere with hwhere | ⟨-, hserving⟩ | hdropped
    · exact .inl (.inl hwhere)
    · exact .inl (.inr hserving)
    · exact .inr (.inr hdropped)
  · rcases checking_step h (c := c) (by rw [hinTime]; rfl) with hsame | hpass | hdropped
    · exact .inl (.inr (hsame.trans hinTime))
    · generalize s'.serving = next at hpass
      cases hpass with
      | unstopped hother => cases hinTime.symm.trans hother
      | inTime hother => cases hinTime.symm.trans hother
      | started _ hclosed => exact .inr (.inl hclosed)
    · exact .inr (.inr hdropped)

end

/-- The command was dropped: it is nowhere, and its connection will not send another. -/
structure Out (s : State) (i : Nat) : Prop where
  nowhere : s.copies i = 0
  sent : (s.connection i).unsent = false

theorem sent_stays (h : Step C config tryFromHex s s') {i : Nat} (hsent : (s.connection i).unsent = false) :
    (s'.connection i).unsent = false := by
  by_contra hunsent
  have hback := unsent_step h (Bool.eq_true_of_not_eq_false hunsent)
  rw [hsent] at hback
  cases hback

theorem Out.step {i : Nat} (hout : Out s i) (h : Step C config tryFromHex s s') : Out s' i := by
  refine ⟨copies_zero_step h hout.nowhere fun operation deadline hcleared => ?_, sent_stays h hout.sent⟩
  have hsent := hout.sent
  rw [hcleared] at hsent
  cases hsent

theorem Doomed.step {c : Queued} (hdoomed : Doomed s c) (hinv : Inv s) (h : Step C config tryFromHex s s') :
    Doomed s' c ∨ Out s' c.request := by
  have hsent : (s.connection c.request).unsent = false := by
    by_contra hunsent
    have hzero := hinv.unsent c.request (Bool.eq_true_of_not_eq_false hunsent)
    have hpos := unchecked_copies hdoomed.unchecked
    unfold State.copies at hzero
    omega
  have hout : s'.channel c.request = .dropped → Out s' c.request := fun hdropped =>
    ⟨(hinv.step h).dropped c.request hdropped, sent_stays h hsent⟩
  cases hdoomed with
  | stopped hstop hwhere =>
    rcases Unstopped.step h hwhere with hwhere | ⟨hpass, -⟩ | hdropped
    · exact .inl (.stopped (shutdown_step h hstop) hwhere)
    · rw [hstop] at hpass
      cases hpass
    · exact .inr (hout hdropped)
  | late hlate hwhere =>
    rcases Untimed.step h hwhere with hwhere | ⟨hpass, -⟩ | hdropped
    · exact .inl (.late (Nat.le_trans hlate (now_step h)) hwhere)
    · omega
    · exact .inr (hout hdropped)
  | closed hclosed hwhere =>
    rcases Unchecked.step h hwhere with hwhere | hpass | hdropped
    · exact .inl (.closed (closed_step h hsent hclosed) hwhere)
    · rw [hclosed] at hpass
      cases hpass
    · exact .inr (hout hdropped)

theorem Doomed.steps {c : Queued} (hdoomed : Doomed s c) (hinv : Inv s) (hsteps : Steps C config tryFromHex s s') :
    Doomed s' c ∨ Out s' c.request := by
  induction hsteps with
  | refl => exact .inl hdoomed
  | tail hsteps h ih =>
    rcases ih with hdoomed | hout
    · exact hdoomed.step (hinv.steps hsteps) h
    · exact .inr (hout.step h)

theorem copies_zero_log {i : Nat} (hzero : s.copies i = 0) {e : Execution} (he : e ∈ s.log) : e.request ≠ i := by
  intro hrequest
  have hpos := Ran.copies_pos ⟨e, he, hrequest, rfl⟩
  omega

theorem Doomed.not_run {c : Queued} (hdoomed : Doomed s c) (hinv : Inv s) (hsteps : Steps C config tryFromHex s s')
    {e : Execution} (he : e ∈ s'.log) : e.request ≠ c.request := by
  rcases hdoomed.steps hinv hsteps with hdoomed | hout
  · intro hrequest
    have honce := (hinv.steps hsteps).once c.request
    have hpos := unchecked_copies hdoomed.unchecked
    have hlog : 0 < s'.log.countP fun e => e.request == c.request :=
      List.countP_pos_iff.2 ⟨e, he, beq_iff_eq.2 hrequest⟩
    unfold State.copies at honce
    omega
  · exact copies_zero_log hout.nowhere he

/-! ## What an answer means -/

theorem Explains.steps {i : Nat} {reply : Except AdminError Answer} (hsteps : Steps C config tryFromHex s s')
    (hreply : s.connection i = .answered reply) (hexplains : s.Explains i reply) :
    s'.connection i = .answered reply ∧ s'.Explains i reply := by
  induction hsteps with
  | refl => exact ⟨hreply, hexplains⟩
  | tail _ h ih => exact ⟨answered_step h ih.1, Explains.step h ih.1 ih.2⟩

/-- A request's runs are all one. -/
theorem Inv.run_unique (hinv : Inv s) {e e' : Execution} (he : e ∈ s.log) (he' : e' ∈ s.log)
    (hrequest : e'.request = e.request) : e' = e := by
  have hone : (s.log.filter fun d => d.request == e.request).length ≤ 1 := by
    have honce := hinv.once e.request
    unfold State.copies at honce
    rw [← List.countP_eq_length_filter]
    omega
  have hmem : e ∈ s.log.filter fun d => d.request == e.request := List.mem_filter.2 ⟨he, beq_self_eq_true _⟩
  have hmem' : e' ∈ s.log.filter fun d => d.request == e.request := List.mem_filter.2 ⟨he', beq_iff_eq.2 hrequest⟩
  obtain ⟨d, hd⟩ := List.length_eq_one_iff.1 (Nat.le_antisymm hone (List.length_pos_of_mem hmem))
  rw [hd, List.mem_singleton] at hmem hmem'
  rw [hmem, hmem']

/-- A step that runs a command. -/
structure Runs (C : Crates) (config : Config) (tryFromHex : String → Option NoteId) (s s' : State) (e : Execution) :
    Prop where
  step : Step C config tryFromHex s s'
  log : s'.log = e :: s.log
  before : e.before = s.store
  after : e.after = s'.store

/-- What the log holds has happened. -/
theorem logged_runs {s₀ : State} (hsteps : Steps C config tryFromHex s₀ s) {e : Execution} (he : e ∈ s.log) :
    e ∈ s₀.log ∨ ∃ t t', Steps C config tryFromHex s₀ t ∧ Runs C config tryFromHex t t' e ∧
      Steps C config tryFromHex t' s := by
  induction hsteps with
  | refl => exact .inl he
  | @tail t t' hsteps h ih =>
    have hold : e ∈ t.log → e ∈ s₀.log ∨ ∃ u u', Steps C config tryFromHex s₀ u ∧ Runs C config tryFromHex u u' e ∧
        Steps C config tryFromHex u' t' := by
      intro he
      rcases ih he with he | ⟨u, u', hu, hruns, hu'⟩
      · exact .inl he
      · exact .inr ⟨u, u', hu, hruns, hu'.tail h⟩
    cases h with
    | execute command fails hstarted =>
      rcases List.mem_cons.1 he with rfl | he
      · exact .inr ⟨t, _, hsteps, ⟨.execute t command fails hstarted, rfl, rfl, rfl⟩, .refl⟩
      · exact hold he
    | send i operation deadline hcleared =>
      obtain ⟨_, _, hsend⟩ := trySend_eq t i operation deadline
      rw [hsend] at he
      exact hold he
    | dial | read | take | pass | skip | answer | close | work | tick | cancel | stop => exact hold he

section
variable (C : Crates) (config : Config) (tryFromHex : String → Option NoteId)

/-- What the answers given so far mean, now and in every later state. -/
structure Truthful (s : State) : Prop where
  once : ∀ i, s.log.countP (fun e => e.request == i) ≤ 1
  committed : ∀ i selection answer, s.asked i = some (.release selection) → s.connection i = .answered (.ok answer) →
    ∃ t t' e burns withdrawals, Reachable C config tryFromHex t ∧ Runs C config tryFromHex t t' e ∧
      Steps C config tryFromHex t' s ∧ e.request = i ∧ answer = .released burns withdrawals ∧
      t.store.releaseChecked selection = .ok (t'.store, burns, withdrawals)
  unchanged : ∀ i error, s.connection i = .answered (.error error) → error.body.code ≠ "reply_timeout" →
    ∀ s', Steps C config tryFromHex s s' → ∀ e ∈ s'.log, e.request = i → e.after = e.before
  /-- A command is not run once a check it has still to pass fails. -/
  givenUp : ∀ c, Doomed s c → ∀ s', Steps C config tryFromHex s s' → ∀ e ∈ s'.log, e.request ≠ c.request

end

theorem Inv.unchanged (hinv : Inv s) {i : Nat} {error : AdminError} (hreply : s.connection i = .answered (.error error))
    (hcode : error.body.code ≠ "reply_timeout") (hsteps : Steps C config tryFromHex s s') {e : Execution}
    (he : e ∈ s'.log) (hrequest : e.request = i) : e.after = e.before := by
  have hexplains := (Explains.steps hsteps hreply (hinv.replies i _ hreply)).2
  have hinv' := hinv.steps hsteps
  have hnone : s'.copies i = 0 → e.after = e.before := fun hzero => absurd hrequest (copies_zero_log hzero he)
  cases error with
  | release refusal =>
    -- The run it reports is the only one, and it was refused.
    obtain ⟨ran, hran, hi, hresult⟩ := hexplains
    rw [hinv'.run_unique hran he (hrequest.trans hi.symm)]
    exact (hinv'.right ran hran).refused refusal hresult
  | replyTimeout => exact absurd rfl hcode
  | invalidInput message => exact hnone hexplains
  | requestTooLarge => exact hnone hexplains
  | stopping => exact hnone hexplains
  | queueFull => exact hnone hexplains
  | unavailable => exact hnone hexplains

theorem Reachable.committed (h : Reachable C config tryFromHex s) {i : Nat} {selection : ReleaseSelection}
    {answer : Answer} (hasked : s.asked i = some (.release selection)) (hreply : s.connection i = .answered (.ok answer)) :
    ∃ t t' e burns withdrawals, Reachable C config tryFromHex t ∧ Runs C config tryFromHex t t' e ∧
      Steps C config tryFromHex t' s ∧ e.request = i ∧ answer = .released burns withdrawals ∧
      t.store.releaseChecked selection = .ok (t'.store, burns, withdrawals) := by
  obtain ⟨e, he, hrequest, hresult⟩ := h.inv.replies i _ hreply
  have hoperation : e.operation = .release selection := by
    have hlogged := h.asked.logged e he
    rw [hrequest, hasked] at hlogged
    exact (Option.some.inj hlogged).symm
  obtain ⟨burns, withdrawals, hanswer, hrun⟩ := (h.inv.right e he).released selection answer hoperation hresult
  obtain ⟨store, now, hsteps⟩ := h
  rcases logged_runs hsteps he with hnone | ⟨t, t', ht, hruns, ht'⟩
  · cases hnone
  · rw [hruns.before, hruns.after] at hrun
    exact ⟨t, t', e, burns, withdrawals, ⟨store, now, ht⟩, hruns, ht', hrequest, hanswer, hrun⟩

/-- **Admin answers are truthful**, in whatever order the connections, the attester, the clock and the shutdown go on.
-/
theorem answers_truthful (h : Reachable C config tryFromHex s) : Truthful C config tryFromHex s where
  once i := by
    have honce := h.inv.once i
    unfold State.copies at honce
    omega
  committed _ _ _ hasked hreply := h.committed hasked hreply
  unchanged _ _ hreply hcode _ hsteps _ he hrequest := h.inv.unchanged hreply hcode hsteps he hrequest
  givenUp _ hdoomed _ hsteps _ he := hdoomed.not_run h.inv hsteps he

/-! ## A release that a shutdown comes too late for -/

namespace Sample
open LightAttester.Sample

def held : BurnRow :=
  { note := note, creationBlock := 100, consumptionBlock := some 101, holdReason := some .prepareRejected,
    limitRetryAt := none }

/-- A store with one held burn. -/
def store : Store :=
  { Store.created faucet LightAttester.Sample.config.trustedAnchor with
    burns := .put .empty held, events := [.bare note.id .burnHeld (some 400) (some []) (some .prepareRejected)] }

def selection : ReleaseSelection := ⟨note.id, 1, false⟩

/-- The store once the burn is released. -/
def released : Store :=
  { store with
    burns := store.burns.put { held with holdReason := none },
    events := store.events ++ [eventOf held none .burnReleased none] }

def parse (text : String) : Option NoteId := if text = note.id.toHex then some note.id else none

end Sample

/-- From the first connection to the end of the attester's checks. -/
theorem started_steps (store : Store) {request : AdminRequest} {operation : Operation}
    (hhandle : handle tryFromHex request = .ok operation) :
    ∃ s, Steps C config tryFromHex (.first store 0) s ∧ s.serving = .started ⟨0, operation, COMMAND_WAIT⟩ ∧
      s.store = store ∧ s.log = [] ∧ s.connection 0 = .waiting COMMAND_WAIT ∧ s.asked 0 = some operation := by
  have hread : Steps C config tryFromHex (.first store 0) _ :=
    .tail (.single (.dial _ 0 .reading (.connect rfl))) (.read _ 0 request operation rfl hhandle)
  have hcleared := hread.tail (.dial _ 0 _ (.clear operation rfl rfl))
  have htaken := (hcleared.tail (.send _ 0 operation COMMAND_WAIT rfl)).tail (.take _ _ [] rfl rfl)
  have hinTime := (htaken.tail (.pass _ _ _ (.unstopped rfl rfl))).tail
    (.pass _ _ _ (.inTime rfl (show 0 < COMMAND_WAIT by decide)))
  exact ⟨_, hinTime.tail (.pass _ _ _ (.started rfl rfl)), rfl, rfl, rfl, rfl, rfl⟩

theorem Sample.handle_release :
    handle Sample.parse (.release Sample.note.id.toHex 1 false) = .ok (.release Sample.selection) := by
  have hparse : parseNoteId Sample.parse Sample.note.id.toHex = some Sample.note.id := by
    simp [parseNoteId, Sample.parse, Option.filter]
  simp only [handle, hparse]
  rfl

theorem Sample.release_ok : Sample.store.releaseChecked Sample.selection = .ok (Sample.released, 1, 0) := rfl

theorem Sample.execute_release (C : Crates) (config : Config) (hstore : s.store = Sample.store) (i deadline : Nat) :
    s.execute C config ⟨i, .release Sample.selection, deadline⟩ false =
      { s with store := Sample.released,
               serving := .done ⟨i, .release Sample.selection, deadline⟩ (.ok (.released 1 0)),
               log := ⟨i, .release Sample.selection, s.store, Sample.released, .ok (.released 1 0)⟩ :: s.log } := by
  have hperform : perform C config s.store (.release Sample.selection) = (Sample.released, .ok (.released 1 0)) := by
    simp only [perform, hstore, Sample.release_ok]
  simp only [State.execute, hperform, Bool.false_eq_true, if_false]

/-- The service stops and the connection is gone, but the attester is past its checks. -/
theorem started_release_outlives_shutdown : ∃ s s' e, Reachable Sample.crates Sample.config Sample.parse s ∧
    Runs Sample.crates Sample.config Sample.parse s s' e ∧ s.shutdown = true ∧ s.closed e.request = true ∧
    s.store.releaseChecked Sample.selection = .ok (s'.store, 1, 0) := by
  obtain ⟨s, hsteps, hserving, hstore, -, hwaiting, -⟩ : ∃ s, Steps Sample.crates Sample.config Sample.parse
      (.first Sample.store 0) s ∧ _ := started_steps Sample.store Sample.handle_release
  have hgone := (hsteps.tail (.cancel s)).tail (.dial _ 0 .gone (.abort fun reply hreply => by
    cases hwaiting.symm.trans hreply))
  have hrun := Sample.execute_release (s := State.setConnection { s with shutdown := true } 0 .gone) Sample.crates
    Sample.config hstore 0 COMMAND_WAIT
  refine ⟨_, _, _, ⟨_, _, hgone⟩, ⟨.execute _ _ false hserving, rfl, rfl, rfl⟩, rfl, rfl, ?_⟩
  rw [hrun]
  show s.store.releaseChecked Sample.selection = _
  rw [hstore]
  exact Sample.release_ok

/-- The same release, answered. -/
theorem answers_truthful_released : ∃ s, s.store.events.length = 2 ∧ s.connection 0 = .answered (.ok (.released 1 0)) ∧
    Truthful Sample.crates Sample.config Sample.parse s := by
  obtain ⟨s, hsteps, hserving, hstore, -, hwaiting, -⟩ : ∃ s, Steps Sample.crates Sample.config Sample.parse
      (.first Sample.store 0) s ∧ _ := started_steps Sample.store Sample.handle_release
  have hdone := hsteps.tail (.execute _ _ false hserving)
  rw [Sample.execute_release _ _ hstore] at hdone
  have hanswered := hdone.tail (.answer _ _ _ rfl)
  have hreceived := hanswered.tail (.dial _ 0 _ (.receive COMMAND_WAIT (.ok (.released 1 0)) hwaiting rfl))
  exact ⟨_, rfl, rfl, answers_truthful ⟨_, _, hreceived⟩⟩

end LightAttester.Admin
