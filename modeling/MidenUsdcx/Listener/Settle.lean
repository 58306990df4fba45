import MidenUsdcx.Listener.Claims
import MidenUsdcx.Listener.Submit
import Mathlib.Data.List.Perm.Basic
/-!
# What a submission does to its burns

A call of `submit_withdraw` while the ledger works and nobody else writes the rows of its burns
(`QuietMoment`). It runs to its end (`submission`), and its result, the final ledger and the requests it
sent are read off the run.

`Brings` is what a settling step is for: it takes burns that are `Pending` to the statuses of a plan and
leaves the others alone. Each way a submission can end is one plan (`Ended`).
-/
namespace WithdrawalListener
open Checked Interact Keyed

/-! ## A working ledger -/

/-- The clock shows a time the ledger can store. -/
def Fits (now : UInt64) : Prop := now.toNat ≤ Int64.maxValue.toNatClampNeg

/-- A moment in which the ledger works and the others leave these burns alone. -/
structure QuietMoment (keys : List BurnKey) extends Moment where
  works : fails = false
  fits : Fits now
  elsewhere : ∀ t ∈ meanwhile, ∀ key ∈ keys, key ∉ t.op.keys

def quiet (keys : List BurnKey) : Handler calls (QuietMoment keys) Ledger where
  step o m l := handler.step o m.toMoment l

section
variable {l l' : Ledger} {key k : BurnKey} {keys : List BurnKey} {now : UInt64}

theorem toSqlSeconds_fits (h : Fits now) : toSqlSeconds now = .ok now.toInt64 := if_pos h

theorem step_other (t : Transaction) (h : k ∉ t.op.keys) : (l.step t).2.get? k.text = l.get? k.text := by
  have hdid : Did l t.op (l.step t).1 (l.step t).2 := happening_did l t
  generalize (l.step t).1 = answer at hdid
  generalize (l.step t).2 = after at hdid ⊢
  generalize t.op = op at hdid h
  cases hdid with
  | seen r => rfl
  | noClaim e => rfl
  | noRecord e => rfl
  | claimed took =>
    refine took.others k.text fun hmem => h ?_
    obtain ⟨k', hk', heq⟩ := List.mem_map.1 hmem
    exact text_injective heq ▸ hk'
  | @moved _ target key id r r' l' asked moved =>
    refine moved.wrote.others k.text fun heq => h ?_
    rw [text_injective heq]
    cases op <;> cases asked <;> exact List.mem_singleton_self _

theorem afterAll_other {ts : List Transaction} (h : ∀ t ∈ ts, k ∉ t.op.keys) :
    (afterAll l ts).get? k.text = l.get? k.text := by
  induction ts generalizing l with
  | nil => rfl
  | cons t ts ih =>
    show (afterAll (l.step t).2 ts).get? k.text = _
    rw [ih fun u hu => h u (List.mem_cons_of_mem _ hu), step_other t (h t List.mem_cons_self)]

theorem QuietMoment.read (m : QuietMoment keys) (hk : k ∈ keys) :
    readRecord (afterAll l m.meanwhile) k = readRecord l k :=
  readRecord_congr (afterAll_other fun t ht => m.elsewhere t ht k hk)

/-- A step along an edge of the machine goes through. -/
theorem transition_granted (target : SubmissionStatus) (id : Option String) {r : SubmissionRecord}
    (hread : readRecord l key = .ok (some r)) (hedge : r.status.canTransitionTo target = true) (hfits : Fits now) :
    ∃ r' l', transition target l key id now false = (.ok r', l') ∧ MovedTo target id l l' key r r' := by
  rcases transition_cases target l key id now false with ⟨r0, r', l', heq, hmoved⟩ | ⟨e, heq⟩
  · have hr : r0 = r := by
      have := hmoved.read.symm.trans hread
      cases this
      rfl
    exact ⟨r', l', heq, hr ▸ hmoved⟩
  · exfalso
    simp [transition, commit, hread, orThrow, applyTransition, ensure, hedge, toSqlSeconds_fits hfits, Bind.bind,
      Except.bind, pure, Except.pure] at heq

/-! ## Claiming -/

/-- What a claim asks of each burn: unseen, under a name the table takes, or given up. -/
def Free (l : Ledger) (key : BurnKey) : Prop :=
  readRecord l key = .ok none ∧ 0 < sqlLength key.text ∨ InStatus (· = .failed) l key

theorem claimOne_granted (h : Free l key) (hfits : Fits now) : ∃ done, claimOne now l key = .ok done := by
  rcases h with ⟨hnone, hlen⟩ | ⟨r, hread, hfailed⟩
  · simp [claimOne, hnone, insertPending, toSqlSeconds_fits hfits, ensure, hlen, Except.mapError, Bind.bind,
      Except.bind, pure, Except.pure]
  · simp [claimOne, hread, hfailed, SubmissionStatus.blocksResubmission, applyTransition, ensure,
      SubmissionStatus.canTransitionTo, toSqlSeconds_fits hfits, Except.mapError, Bind.bind, Except.bind, pure,
      Except.pure]

theorem Free.same (h : Free l key) (hread : readRecord l' key = readRecord l key) : Free l' key := by
  rw [Free, InStatus, hread]
  exact h

theorem claimEach_granted (hnodup : keys.Nodup) (hfree : ∀ key ∈ keys, Free l key) (hfits : Fits now) :
    ∃ done, claimEach now keys l = .ok done := by
  induction keys generalizing l with
  | nil => exact ⟨_, rfl⟩
  | cons key rest ih =>
    obtain ⟨hnot, hnodup⟩ := List.nodup_cons.1 hnodup
    obtain ⟨⟨r, l1⟩, hone⟩ := claimOne_granted (hfree key List.mem_cons_self) hfits
    have hrest : ∀ k ∈ rest, Free l1 k := fun k hk =>
      (hfree k (List.mem_cons_of_mem _ hk)).same ((claimOne_ok hone).2.read_other fun heq => hnot (heq ▸ hk))
    obtain ⟨⟨rs, l2⟩, hdone⟩ := ih hnodup hrest
    exact ⟨_, bind_ok.2 ⟨_, hone, bind_ok.2 ⟨_, hdone, rfl⟩⟩⟩

theorem claimBurns_granted (hnodup : keys.Nodup) (hfree : ∀ key ∈ keys, Free l key) (hfits : Fits now) :
    ∃ records, (claimBurns l keys now false).1 = .ok (.claimed records) := by
  obtain ⟨⟨records, l1⟩, hdone⟩ := claimEach_granted hnodup hfree hfits
  exact ⟨records, by simp [claimBurns, commit, hdone, claimAnswer]⟩

theorem claimOne_free {r : SubmissionRecord} (h : claimOne now l key = .ok (r, l')) : Free l key := by
  rcases (claimOne_ok h).1.claimable with hnone | hfailed
  · refine .inl ⟨hnone, ?_⟩
    by_contra hlen
    obtain ⟨found, hfound, h⟩ := bind_ok.1 h
    rw [hnone] at hfound
    cases hfound
    cases hs : toSqlSeconds now <;>
      simp [insertPending, hs, ensure, hlen, Except.mapError, Bind.bind, Except.bind] at h
  · exact .inr hfailed

theorem claimEach_free {records : List SubmissionRecord} (h : claimEach now keys l = .ok (records, l')) :
    ∀ key ∈ keys, Free l key := by
  induction keys generalizing l records with
  | nil => exact fun _ hk => by cases hk
  | cons key rest ih =>
    have hnot := (List.nodup_cons.1 (claimEach_ok h).nodup).1
    obtain ⟨⟨r, l1⟩, hone, h⟩ := bind_ok.1 h
    obtain ⟨⟨rs, l2⟩, hrest, h⟩ := bind_ok.1 h
    cases h
    intro k hk
    rcases List.mem_cons.1 hk with rfl | hk
    · exact claimOne_free hone
    · exact (ih hrest k hk).same ((claimOne_ok hone).2.read_other fun heq => hnot (heq ▸ hk)).symm

end

/-! ## Requests sent -/

abbrev CallEvent := Event calls Ledger

/-- A request to Circle and what came back. -/
inductive Exchange where
  | prepare (request : PrepareWithdrawalRequest) (reply : Reply)
  | withdraw (request : WithdrawRequest) (reply : Reply)
  | status (id : Uuid) (reply : Reply)

def exchange? : CallEvent → Option Exchange
  | ⟨.postPrepare request, reply, _⟩ => some (.prepare request reply)
  | ⟨.postWithdraw request, reply, _⟩ => some (.withdraw request reply)
  | ⟨.getWithdrawal id, reply, _⟩ => some (.status id reply)
  | _ => none

/-- The requests of a run, oldest first. -/
def sent (T : List CallEvent) : List Exchange := T.reverse.filterMap exchange?

theorem sent_cons (e : CallEvent) (T : List CallEvent) : sent (e :: T) = sent T ++ (exchange? e).toList := by
  rw [sent, List.reverse_cons, List.filterMap_append]
  cases h : exchange? e <;> simp [sent, h]

def Exchange.post? : Exchange → Option (WithdrawRequest × Reply)
  | .withdraw request reply => some (request, reply)
  | _ => none

/-! ## Settling -/

abbrev RunState := Ledger × List CallEvent

/-- The burn's row is readable, with this status and this ID. -/
def InRow (l : Ledger) (key : BurnKey) (status : SubmissionStatus) (id : Option String) : Prop :=
  ∃ r, readRecord l key = .ok (some r) ∧ r.status = status ∧ r.withdrawalId = id

abbrev Plan := BurnKey → SubmissionStatus × Option String

/-- The burns `ks` went from `Pending` to what the plan says; an ID they had before stays unless the plan has one. -/
structure Settled (K ks : List BurnKey) (plan : Plan) (old : BurnKey → Option String) (s s' : RunState) : Prop where
  rows : ∀ k ∈ ks, InRow s'.1 k (plan k).1 ((plan k).2 <|> old k)
  others : ∀ k ∈ K, k ∉ ks → readRecord s'.1 k = readRecord s.1 k
  sent : sent s'.2 = sent s.2

def Brings (K ks : List BurnKey) (plan : Plan) (t : Task SubmitError Unit) : Prop :=
  ∀ (old : BurnKey → Option String) (s : RunState), (∀ k ∈ ks, InRow s.1 k .pending (old k)) →
    Meets (quiet K).traced (fun _ => True) t (fun res s' => res = .ok () ∧ Settled K ks plan old s s') s

section
variable {K ks ks' : List BurnKey} {plan : Plan}

theorem InRow.same {l l' : Ledger} {k : BurnKey} {status : SubmissionStatus} {id : Option String}
    (h : InRow l k status id) (hread : readRecord l' k = readRecord l k) : InRow l' k status id := by
  rw [InRow, hread]
  exact h

theorem brings_pure : Brings K [] plan (pure ()) :=
  fun _ _ _ => meets_pure ⟨rfl, (fun _ hk => (by cases hk)), fun _ _ _ => rfl, rfl⟩

/-- Two settling steps on different burns. -/
theorem Brings.append {t u : Task SubmitError Unit} (ht : Brings K ks plan t) (hu : Brings K ks' plan u)
    (hK : ks ++ ks' ⊆ K) (hdisj : ∀ k ∈ ks', k ∉ ks) : Brings K (ks ++ ks') plan (t >>= fun _ => u) := by
  intro old s hpending
  refine (ht old s fun k hk => hpending k (List.mem_append_left _ hk)).seq ?_ (fun e s' h => by cases h.1)
  rintro - s1 ⟨-, h1⟩
  have hstill : ∀ k ∈ ks', InRow s1.1 k .pending (old k) := fun k hk =>
    (hpending k (List.mem_append_right _ hk)).same (h1.others k (hK (List.mem_append_right _ hk)) (hdisj k hk))
  refine (hu old s1 hstill).mono ?_
  rintro res s2 ⟨hres, h2⟩
  refine ⟨hres, fun k hk => ?_, fun k hk hnot => ?_, h2.sent.trans h1.sent⟩
  · by_cases hk' : k ∈ ks'
    · exact h2.rows k hk'
    · have hks := (List.mem_append.1 hk).resolve_right hk'
      exact (h1.rows k hks).same (h2.others k (hK hk) hk')
  · rw [List.mem_append, not_or] at hnot
    rw [h2.others k hk hnot.2, h1.others k hk hnot.1]

theorem brings_recordAs {target : SubmissionStatus} {key : BurnKey} {id : Option String} (hkey : key ∈ K)
    (hedge : SubmissionStatus.canTransitionTo .pending target = true) (hplan : plan key = (target, id)) :
    Brings K [key] plan (recordAs target key id) := by
  rintro old ⟨l, T⟩ hpending
  obtain ⟨r, hread, hstatus, hid⟩ := hpending key (List.mem_singleton_self _)
  have hstep : Meets (quiet K).traced (fun _ => True) (call (.record target key id) : Task SubmitError _)
      (fun res s' => ∃ r', res = .ok (.ok r') ∧ Settled K [key] plan old (l, T) s') (l, T) := by
    refine meets_call trivial fun m => ?_
    obtain ⟨r', l', heq, hmoved⟩ := transition_granted target id ((m.read hkey).trans hread)
      (by rw [hstatus]; exact hedge) m.fits
    have hstep : (quiet K).step (.record target key id) m l = (.ok r', l') := by
      show transition target (afterAll l m.meanwhile) key id m.now m.fails = _
      rw [m.works]
      exact heq
    have hsettled : Settled K [key] plan old (l, T) (l', ⟨.record target key id, .ok r', l⟩ :: T) := by
      refine ⟨fun k hk => ?_, fun k hk hnot => ?_, ?_⟩
      · rw [List.mem_singleton.1 hk, hplan]
        exact ⟨r', hmoved.wrote.read, hmoved.record.1, by rw [hmoved.record.2, hid]⟩
      · rw [hmoved.wrote.read_other fun h => hnot (List.mem_singleton.2 h)]
        exact m.read hk
      · rw [sent_cons]
        exact List.append_nil _
    simp only [Handler.traced, hstep]
    exact ⟨r', rfl, hsettled⟩
  refine hstep.seq ?_ (fun e s' h => by obtain ⟨_, h, _⟩ := h; cases h)
  rintro answer s' ⟨r', h, hsettled⟩
  cases h
  exact meets_pure ⟨rfl, hsettled⟩

/-- A loop of settling steps, one for each burn. -/
theorem brings_forM {α : Type} {xs : List α} (key : α → BurnKey) {f : α → Task SubmitError Unit}
    (hf : ∀ x ∈ xs, Brings K [key x] plan (f x)) (hK : xs.map key ⊆ K) (hnodup : (xs.map key).Nodup) :
    Brings K (xs.map key) plan (xs.forM f) := by
  induction xs with
  | nil => exact brings_pure
  | cons x xs ih =>
    rw [List.map_cons, List.nodup_cons] at hnodup
    rw [List.map_cons] at hK ⊢
    have hrest := ih (fun y hy => hf y (List.mem_cons_of_mem _ hy)) (fun k hk => hK (List.mem_cons_of_mem _ hk)) hnodup.2
    show Brings K ([key x] ++ xs.map key) plan (f x >>= fun _ => xs.forM f)
    refine (hf x List.mem_cons_self).append hrest hK fun k hk hmem => hnodup.1 ?_
    rw [← List.mem_singleton.1 hmem]
    exact hk

/-- Every burn to one status, with no ID. -/
theorem brings_all {target : SubmissionStatus} (hedge : SubmissionStatus.canTransitionTo .pending target = true)
    (hks : ks ⊆ K) (hnodup : ks.Nodup) (hplan : ∀ k ∈ ks, plan k = (target, none)) :
    Brings K ks plan (ks.forM fun key => recordAs target key none) := by
  have h : Brings K (ks.map id) plan (ks.forM fun key => recordAs target key none) := by
    refine brings_forM id (fun k hk => ?_) ?_ ?_
    · exact brings_recordAs (hks hk) hedge (hplan k hk)
    · rwa [List.map_id]
    · rwa [List.map_id]
  rwa [List.map_id] at h

theorem forM_zipIdx_past (f : BurnKey → Task SubmitError Unit) (index : Nat) :
    ∀ (ks : List BurnKey) (n : Nat), index < n →
      ((ks.zipIdx n).forM fun (key, i) => if i = index then pure () else f key) = ks.forM f
  | [], _, _ => rfl
  | k :: ks, n, h => by
    show ((if n = index then pure () else f k) >>= fun _ =>
      (ks.zipIdx (n + 1)).forM fun (key, i) => if i = index then pure () else f key) = f k >>= fun _ => ks.forM f
    rw [if_neg (by omega), forM_zipIdx_past f index ks (n + 1) (by omega)]

theorem forM_zipIdx_eraseIdx (f : BurnKey → Task SubmitError Unit) :
    ∀ (ks : List BurnKey) (n index : Nat),
      ((ks.zipIdx n).forM fun (key, i) => if i = n + index then pure () else f key) = (ks.eraseIdx index).forM f
  | [], _, _ => rfl
  | k :: ks, n, 0 => by
    show ((if n = n + 0 then pure () else f k) >>= fun _ =>
      (ks.zipIdx (n + 1)).forM fun (key, i) => if i = n + 0 then pure () else f key) = ks.forM f
    rw [if_pos (by omega)]
    exact forM_zipIdx_past f (n + 0) ks (n + 1) (by omega)
  | k :: ks, n, index + 1 => by
    show ((if n = n + (index + 1) then pure () else f k) >>= fun _ =>
      (ks.zipIdx (n + 1)).forM fun (key, i) => if i = n + (index + 1) then pure () else f key) =
        f k >>= fun _ => (ks.eraseIdx index).forM f
    rw [if_neg (by omega), ← forM_zipIdx_eraseIdx f ks (n + 1) index]
    simp only [show n + 1 + index = n + (index + 1) by omega]

theorem blockOthers_eq (keys : List BurnKey) (index : Nat) :
    blockOthers keys index = (keys.eraseIdx index).forM fun key => recordAs .reconciliationRequired key none := by
  have h := forM_zipIdx_eraseIdx (fun key => recordAs .reconciliationRequired key none) keys 0 index
  simp only [Nat.zero_add] at h
  exact h

/-- The named burn with its ID, every other without one. -/
theorem brings_settleNamed {target : SubmissionStatus} {index : Nat} {key : BurnKey} {id : Uuid}
    (hedge : SubmissionStatus.canTransitionTo .pending target = true) (hks : ks ⊆ K) (hnodup : ks.Nodup)
    (hindex : ks[index]? = some key) (hplan : plan key = (target, some id.asStr))
    (hothers : ∀ k ∈ ks, k ≠ key → plan k = (.reconciliationRequired, none)) :
    Brings K (key :: ks.eraseIdx index) plan (settleNamed target ks index id) := by
  obtain ⟨hlt, hget⟩ := List.getElem?_eq_some_iff.1 hindex
  have hmem : key ∈ ks := List.mem_of_getElem? hindex
  have hnot : key ∉ ks.eraseIdx index := by
    intro h
    have hperm := List.getElem_cons_eraseIdx_perm hlt
    rw [hget] at hperm
    exact (List.nodup_cons.1 (hperm.nodup_iff.2 hnodup)).1 h
  have hsub : ks.eraseIdx index ⊆ ks := (List.eraseIdx_sublist _ _).subset
  have hne : ∀ k ∈ ks.eraseIdx index, k ≠ key := fun k hk heq => hnot (heq ▸ hk)
  rw [settleNamed, hindex, blockOthers_eq]
  have hnamed : Brings K [key] plan (recordAs target key (some id.asStr)) := brings_recordAs (hks hmem) hedge hplan
  refine hnamed.append ?_ ?_ ?_
  · exact brings_all rfl (fun k hk => hks (hsub hk)) (hnodup.sublist (List.eraseIdx_sublist _ _))
      fun k hk => hothers k (hsub hk) (hne k hk)
  · intro k hk
    rcases List.mem_cons.1 hk with rfl | hk
    · exact hks hmem
    · exact hks (hsub hk)
  · exact fun k hk hk' => hne k hk (List.mem_singleton.1 hk')

/-! ## Names -/

/-- The burn a text names. Equality up to ASCII case is equality of keys. -/
theorem eqIgnoreAsciiCase_iff {a b : String} : eqIgnoreAsciiCase a b = true ↔ BurnKey.new a = BurnKey.new b := by
  simp [eqIgnoreAsciiCase, BurnKey.new]

theorem positionOf_some {burns : List String} {echoed : String} {index : Nat} (h : positionOf burns echoed = some index) :
    (burns.map BurnKey.new)[index]? = some (.new echoed) ∧ BurnKey.new (burns.getD index "") = .new echoed := by
  obtain ⟨hlt, heq, -⟩ := List.findIdx?_eq_some_iff_getElem.1 h
  have hkey := eqIgnoreAsciiCase_iff.1 heq
  constructor
  · rw [List.getElem?_map, List.getElem?_eq_getElem hlt]
    exact congrArg some hkey
  · rw [List.getD_eq_getElem?_getD, List.getElem?_eq_getElem hlt]
    exact hkey

theorem echoesOneOf_iff {burns : List String} {echoed : String} :
    echoesOneOf burns echoed = true ↔ BurnKey.new echoed ∈ burns.map BurnKey.new := by
  rw [echoesOneOf, positionOf, List.findIdx?_isSome, List.any_eq_true, List.mem_map]
  exact exists_congr fun burn => and_congr_right fun _ => eqIgnoreAsciiCase_iff

/-- The burn a status is about. -/
def WithdrawalStatus.key (status : WithdrawalStatus) : BurnKey := .new status.burnTxId.asStr

/-- Each burn's own status. -/
theorem pairUp_ok {burns : List String} {statuses paired : List WithdrawalStatus} (h : pairUp burns statuses = .ok paired) :
    paired.map (·.key) = burns.map BurnKey.new ∧
      ∀ status ∈ paired, statuses.find? (fun s => s.key == status.key) = some status := by
  have hfind : ∀ burn status, orThrow (statuses.find? fun s => eqIgnoreAsciiCase s.burnTxId.asStr burn) burn =
      .ok status → status.key = .new burn ∧ statuses.find? (fun s => s.key == status.key) = some status := by
    intro burn status h
    have hsome := orThrow_ok.1 h
    have hecho := List.find?_some hsome
    have hkey : status.key = .new burn := eqIgnoreAsciiCase_iff.1 hecho
    refine ⟨hkey, ?_⟩
    rw [← hsome]
    congr 1
    funext s
    rw [Bool.eq_iff_iff, beq_iff_eq, hkey, eqIgnoreAsciiCase_iff]
    exact Iff.rfl
  refine ⟨map_of_mapM_ok h fun burn status hb => (hfind burn status hb).1, fun status hs => ?_⟩
  obtain ⟨burn, -, hb⟩ := mem_of_mapM_ok h hs
  exact (hfind burn status hb).2

end

/-! ## Polling -/

/-- The burns' rows are as they were, and these requests were sent. -/
structure Asked (K : List BurnKey) (requests : List Exchange) (s s' : RunState) : Prop where
  rows : ∀ k ∈ K, readRecord s'.1 k = readRecord s.1 k
  sent : sent s'.2 = sent s.2 ++ requests

theorem Asked.trans {K : List BurnKey} {xs ys : List Exchange} {s s1 s2 : RunState} (h : Asked K xs s s1)
    (h' : Asked K ys s1 s2) : Asked K (xs ++ ys) s s2 :=
  ⟨fun k hk => (h'.rows k hk).trans (h.rows k hk), by rw [h'.sent, h.sent, List.append_assoc]⟩

section
variable {circle : CircleClient} {K : List BurnKey}

theorem pollStatusOnce_meets (id : Uuid) (s : RunState) :
    Meets (quiet K).traced (fun _ => True) (pollStatusOnce circle id)
      (fun res s' => ∃ reply, Asked K [.status id reply] s s' ∧ statusOf circle id reply = res) s := by
  have hcall : Meets (quiet K).traced (fun _ => True) (call (.getWithdrawal id) : Task ListenerError Reply)
      (fun res s' => ∃ reply, res = .ok reply ∧ Asked K [.status id reply] s s') s := by
    refine meets_call trivial fun m => ⟨m.reply, rfl, fun k hk => m.read hk, ?_⟩
    exact sent_cons _ _
  refine hcall.seq ?_ (fun e s' h => by obtain ⟨_, h, _⟩ := h; cases h)
  rintro reply s' ⟨reply', h, hasked⟩
  cases h
  cases hres : statusOf circle id reply with
  | ok status => exact meets_pure ⟨reply, hasked, hres⟩
  | error e => exact meets_throw ⟨reply, hasked, hres⟩

/-- A poll asks for the one withdrawal only, and what it returns is its last answer. -/
def Polled (circle : CircleClient) (id : Uuid) (polls : List Exchange) (res : Except ListenerError WithdrawalStatus) :
    Prop :=
  (∀ x ∈ polls, ∃ reply, x = .status id reply) ∧
    ∀ status, res = .ok status → ∃ reply, polls.getLast? = some (.status id reply) ∧ statusOf circle id reply = .ok status

theorem pollStatusFrom_meets (id : Uuid) (left : Nat) (s : RunState) :
    Meets (quiet K).traced (fun _ => True) (pollStatusFrom circle id left)
      (fun res s' => ∃ polls, Asked K polls s s' ∧ Polled circle id polls res) s := by
  induction left generalizing s with
  | zero =>
    refine meets_throw ⟨[], ⟨fun _ _ => rfl, (List.append_nil _).symm⟩, (fun x hx => (by cases hx)), fun status h => ?_⟩
    cases h
  | succ left ih =>
    refine (pollStatusOnce_meets id s).seq ?_ ?_
    · rintro status s1 ⟨reply, hasked, hstatus⟩
      split
      · refine meets_pure ⟨_, hasked, fun x hx => ⟨reply, List.mem_singleton.1 hx⟩, fun status' h => ?_⟩
        cases h
        exact ⟨reply, rfl, hstatus⟩
      · refine (ih s1).mono ?_
        rintro res s2 ⟨polls, hmore, hpolls, hlast⟩
        refine ⟨.status id reply :: polls, hasked.trans hmore, fun x hx => ?_, fun status' h => ?_⟩
        · rcases List.mem_cons.1 hx with rfl | hx
          · exact ⟨reply, rfl⟩
          · exact hpolls x hx
        · obtain ⟨reply', hget, hok⟩ := hlast status' h
          exact ⟨reply', by rw [List.getLast?_cons, hget]; rfl, hok⟩
    · rintro e s1 ⟨reply, hasked, hstatus⟩
      refine ⟨_, hasked, fun x hx => ⟨reply, List.mem_singleton.1 hx⟩, fun status' h => ?_⟩
      cases h

end

/-! ## The ends of a submission -/

/-- One status for all burns, and no ID. -/
def allAt (status : SubmissionStatus) : Plan := fun _ => (status, none)

/-- Each burn with the ID of its own status. -/
def createdPlan (statuses : List WithdrawalStatus) : Plan := fun k =>
  (.submitted, (statuses.find? fun s => s.key == k).map (·.withdrawalId.asStr))

/-- One burn with an ID, the others blocked without. -/
def namedPlan (key : BurnKey) (target : SubmissionStatus) (id : Uuid) : Plan := fun k =>
  if k = key then (target, some id.asStr) else (.reconciliationRequired, none)

def WithdrawConflict.key (conflict : WithdrawConflict) : BurnKey := .new conflict.burnTxId.asStr

/-- A GET answered that the withdrawal of this ID is of this burn and final. -/
def PolledFinal (circle : CircleClient) (key : BurnKey) (id : Uuid) (polls : List Exchange) : Prop :=
  ∃ reply status, polls.getLast? = some (.status id reply) ∧ statusOf circle id reply = .ok status ∧
    status.key = key ∧ status.status = .finalized

/-- What the last POST came to, the GETs after it, the result and the plan its burns were settled by. -/
inductive Ended (circle : CircleClient) (keys : List BurnKey) :
    Except ListenerError Attempt → List Exchange → Except SubmitError SubmitOutcome → Plan → Prop where
  | failed (e : ListenerError) (other : e ≠ .http 400) :
    Ended circle keys (.error e) [] (.error (.circle e)) (allAt .reconciliationRequired)
  | freed : Ended circle keys (.error (.http 400)) [] (.error (.circle (.http 400))) (allAt .failed)
  | mismatched (statuses : List WithdrawalStatus) (burns : List String) (echoed : String) :
    Ended circle keys (.ok (.created statuses)) [] (.ok (.conflictEchoMismatch burns echoed))
      (allAt .reconciliationRequired)
  | submitted (statuses : List WithdrawalStatus) (perm : (statuses.map (·.key)).Perm keys) :
    Ended circle keys (.ok (.created statuses)) [] (.ok (.submitted statuses)) (createdPlan statuses)
  | blocked (conflict : WithdrawConflict) (result : SubmitOutcome) (not : ∀ statuses, result ≠ .submitted statuses) :
    Ended circle keys (.ok (.conflict conflict)) [] (.ok result) (allAt .reconciliationRequired)
  | recovered (conflict : WithdrawConflict) (id : Uuid) (polls : List Exchange)
    (result : Except SubmitError SubmitOutcome) (target : SubmissionStatus) (hasId : conflict.withdrawalId = some id)
    (polled : ∀ x ∈ polls, ∃ reply, x = .status id reply) (not : ∀ statuses, result ≠ .ok (.submitted statuses))
    (final : target = .reconciliationRequired ∨
      target = .finalized ∧ (∃ outcome, result = .ok outcome) ∧ PolledFinal circle conflict.key id polls) :
    Ended circle keys (.ok (.conflict conflict)) polls result (namedPlan conflict.key target id)

section
variable {circle : CircleClient} {K ks : List BurnKey} {done : Except ListenerError Attempt} {old : BurnKey → Option String}
  {s0 s : RunState}

/-- From `s0`, the submission ended in one of these ways. -/
def EndedFrom (circle : CircleClient) (K : List BurnKey) (done : Except ListenerError Attempt)
    (old : BurnKey → Option String) (s0 : RunState) (res : Except SubmitError SubmitOutcome) (s : RunState) : Prop :=
  ∃ polls plan, Ended circle K done polls res plan ∧ (∀ k ∈ K, InRow s.1 k (plan k).1 ((plan k).2 <|> old k)) ∧
    sent s.2 = sent s0.2 ++ polls

/-- The last settling step, and what is returned after it. -/
theorem Brings.ends {t : Task SubmitError Unit} {plan : Plan} {polls : List Exchange}
    {u : Task SubmitError SubmitOutcome} {res : Except SubmitError SubmitOutcome} (ht : Brings K ks plan t)
    (hperm : ks.Perm K) (hpending : ∀ k ∈ K, InRow s.1 k .pending (old k)) (hsent : sent s.2 = sent s0.2 ++ polls)
    (hended : Ended circle K done polls res plan) (hu : u.run = .ret res) :
    Meets (quiet K).traced (fun _ => True) (t >>= fun _ => u) (EndedFrom circle K done old s0) s := by
  refine (ht old s fun k hk => hpending k (hperm.subset hk)).seq ?_ (fun e s' h => by cases h.1)
  rintro - s1 ⟨-, h1⟩
  show Prog.Guards _ _ u.run _ s1
  rw [hu]
  exact ⟨polls, plan, hended, fun k hk => h1.rows k (hperm.symm.subset hk), h1.sent.trans hsent⟩

theorem settleCreated_ends {burns : List String} {statuses : List WithdrawalStatus} (hK : burns.map BurnKey.new = K)
    (hnodup : K.Nodup) (hcount : statuses.length = K.length) (hpending : ∀ k ∈ K, InRow s.1 k .pending (old k)) :
    Meets (quiet K).traced (fun _ => True) (settleCreated K burns statuses)
      (EndedFrom circle K (.ok (.created statuses)) old s) s := by
  have hblocked : ∀ echoed, Meets (quiet K).traced (fun _ => True)
      (markAllReconciliation K >>= fun _ => pure (.conflictEchoMismatch burns echoed))
      (EndedFrom circle K (.ok (.created statuses)) old s) s := fun echoed =>
    (brings_all rfl (List.Subset.refl K) hnodup fun k _ => rfl).ends (List.Perm.refl K) hpending (List.append_nil _).symm
      (.mismatched statuses burns echoed) rfl
  rw [settleCreated]
  split
  · exact hblocked _
  · rename_i hechoes
    split
    · exact hblocked _
    · rename_i paired hpaired
      obtain ⟨hkeys, hown⟩ := pairUp_ok hpaired
      rw [hK] at hkeys
      -- Every burn has a status, and there are as many statuses as burns.
      have hsub : K ⊆ statuses.map (·.key) := by
        intro k hk
        rw [← hkeys] at hk
        obtain ⟨status, hstatus, rfl⟩ := List.mem_map.1 hk
        exact List.mem_map_of_mem (List.mem_of_find?_eq_some (hown status hstatus))
      have hperm : (statuses.map (·.key)).Perm K :=
        ((List.subperm_of_subset hnodup hsub).perm_of_length_le (by rw [List.length_map, hcount])).symm
      have hlen : K.length = paired.length := by rw [← hkeys, List.length_map]
      have hfst : (K.zip paired).map Prod.fst = K := List.map_fst_zip (le_of_eq hlen)
      have hbrings : Brings K ((K.zip paired).map Prod.fst) (createdPlan statuses) ((K.zip paired).forM
          fun pair => recordAs .submitted pair.1 (some pair.2.withdrawalId.asStr)) := by
        refine brings_forM Prod.fst ?_ (by rw [hfst]; exact List.Subset.refl K) (by rwa [hfst])
        rintro ⟨key, status⟩ hmem
        have hkey : status.key = key := by
          rw [← hkeys, ← List.map_prod_right_eq_zip] at hmem
          obtain ⟨x, -, hx⟩ := List.mem_map.1 hmem
          cases hx
          rfl
        refine brings_recordAs (hfst ▸ List.mem_map_of_mem hmem) rfl ?_
        rw [createdPlan, ← hkey, hown status (List.of_mem_zip hmem).2]
        rfl
      rw [hfst] at hbrings
      exact hbrings.ends (List.Perm.refl K) hpending (List.append_nil _).symm (.submitted statuses hperm) rfl

theorem settleRecovered_ends {burns : List String} {conflict : WithdrawConflict} {index : Nat} {burn : String} {id : Uuid}
    {polls : List Exchange} {polled : Except ListenerError WithdrawalStatus} (hnodup : K.Nodup)
    (hindex : K[index]? = some conflict.key) (hburn : BurnKey.new burn = conflict.key)
    (hid : conflict.withdrawalId = some id) (hpolled : Polled circle id polls polled)
    (hsent : sent s.2 = sent s0.2 ++ polls) (hpending : ∀ k ∈ K, InRow s.1 k .pending (old k)) :
    Meets (quiet K).traced (fun _ => True) (settleRecovered K burns index burn id polled)
      (EndedFrom circle K (.ok (.conflict conflict)) old s0) s := by
  obtain ⟨hlt, hget⟩ := List.getElem?_eq_some_iff.1 hindex
  have hperm : (conflict.key :: K.eraseIdx index).Perm K := by
    have h := List.getElem_cons_eraseIdx_perm hlt
    rwa [hget] at h
  have hbrings : ∀ target, SubmissionStatus.canTransitionTo .pending target = true →
      Brings K (conflict.key :: K.eraseIdx index) (namedPlan conflict.key target id) (settleNamed target K index id) :=
    fun target hedge => brings_settleNamed hedge (List.Subset.refl K) hnodup hindex (if_pos rfl)
      fun k _ hne => if_neg hne
  cases polled with
  | error e =>
    exact (hbrings .reconciliationRequired rfl).ends hperm hpending hsent
      (.recovered conflict id polls _ _ hid hpolled.1 (fun _ h => by cases h) (.inl rfl)) rfl
  | ok status =>
    rw [settleRecovered]
    split
    · rename_i hecho
      have hkey : status.key = conflict.key := (eqIgnoreAsciiCase_iff.1 hecho).trans hburn
      obtain ⟨reply, hlast, hstatus⟩ := hpolled.2 status rfl
      refine (hbrings _ ?_).ends hperm hpending hsent
        (.recovered conflict id polls (.ok (.conflictRecovered id status)) _ hid hpolled.1 (fun _ h => by cases h) ?_) rfl
      · split <;> rfl
      · split
        · rename_i hfinal
          exact .inr ⟨rfl, ⟨_, rfl⟩, reply, status, hlast, hstatus, hkey, hfinal⟩
        · exact .inl rfl
    · exact (hbrings .reconciliationRequired rfl).ends hperm hpending hsent
        (.recovered conflict id polls _ _ hid hpolled.1 (fun _ h => by cases h) (.inl rfl)) rfl

theorem recoverConflict_ends {burns : List String} {conflict : WithdrawConflict} (hK : burns.map BurnKey.new = K)
    (hnodup : K.Nodup) (hpending : ∀ k ∈ K, InRow s.1 k .pending (old k)) :
    Meets (quiet K).traced (fun _ => True) (recoverConflict circle K burns conflict)
      (EndedFrom circle K (.ok (.conflict conflict)) old s) s := by
  have hblocked : ∀ outcome, (∀ statuses, outcome ≠ .submitted statuses) → Meets (quiet K).traced (fun _ => True)
      (markAllReconciliation K >>= fun _ => pure outcome) (EndedFrom circle K (.ok (.conflict conflict)) old s) s :=
    fun outcome hnot => (brings_all rfl (List.Subset.refl K) hnodup fun k _ => rfl).ends (List.Perm.refl K) hpending
      (List.append_nil _).symm (.blocked conflict outcome hnot) rfl
  rw [recoverConflict]
  split
  · exact hblocked _ fun _ h => by cases h
  · rename_i index hindex
    obtain ⟨hget, hburn⟩ := positionOf_some hindex
    rw [hK] at hget
    split
    · exact hblocked _ fun _ h => by cases h
    · rename_i id hid
      have hpoll : Meets (quiet K).traced (fun _ => True)
          (ExceptT.lift (pollStatus circle id).run : Task SubmitError (Except ListenerError WithdrawalStatus))
          (fun res s' => ∃ polled polls, res = .ok polled ∧ Asked K polls s s' ∧ Polled circle id polls polled) s :=
        meets_lift ((pollStatusFrom_meets id _ s).mono (by
          rintro polled s' ⟨polls, h⟩
          exact ⟨polled, polls, rfl, h⟩))
      refine hpoll.seq ?_ (fun e s' h => by obtain ⟨_, _, h, _⟩ := h; cases h)
      rintro _ s1 ⟨polled, polls, ⟨⟩, hasked, hpolled⟩
      exact settleRecovered_ends hnodup hget hburn hid hpolled hasked.sent fun k hk =>
        (hpending k hk).same (hasked.rows k hk)

theorem settleAttempt_ends {burns : List String} (hK : burns.map BurnKey.new = K) (hnodup : K.Nodup)
    (hcount : ∀ statuses, done = .ok (.created statuses) → statuses.length = K.length)
    (hpending : ∀ k ∈ K, InRow s.1 k .pending (old k)) :
    Meets (quiet K).traced (fun _ => True) (settleAttempt circle K burns done) (EndedFrom circle K done old s) s := by
  cases done with
  | ok done =>
    cases done with
    | created statuses => exact settleCreated_ends hK hnodup (hcount statuses rfl) hpending
    | conflict conflict => exact recoverConflict_ends hK hnodup hpending
  | error e =>
    rw [settleAttempt, settleFailure]
    split
    · rename_i h400
      subst h400
      exact (brings_all rfl (List.Subset.refl K) hnodup fun k _ => rfl).ends (List.Perm.refl K) hpending
        (List.append_nil _).symm .freed rfl
    · rename_i h400
      exact (brings_all rfl (List.Subset.refl K) hnodup fun k _ => rfl).ends (List.Perm.refl K) hpending
        (List.append_nil _).symm (.failed e h400) rfl

end

end WithdrawalListener
