import MidenUsdcx.Listener.Ledger
/-!
# Claim safety

What any number of tasks and processes can do to one ledger file, in any order of their transactions:
a burn is claimed again only after its claim was given up by `record_failure`, a burn whose submission
may exist is never claimed again, a claim takes all its burns or none, and no row that cannot be read
is taken for an absent one.

`KeyStep` says once what one transaction can do to one burn's row, and every result is a run of it.
-/
namespace WithdrawalListener
open Checked Keyed

/-! ## What is said of a history -/

namespace Happened

/-- A `Claimed` answer that contains the burn. -/
def Claims (e : Happened) (key : BurnKey) : Prop :=
  ∃ records, e.answer = .claim (.ok (.claimed records)) ∧ key ∈ records.map (·.burnKey)

/-- The call did what it was asked to; an already-seen burn is a refusal. -/
def Granted (e : Happened) : Prop :=
  (∃ records, e.answer = .claim (.ok (.claimed records))) ∨ ∃ record, e.answer = .record (.ok record)

end Happened

/-- The burn has a readable row with a status of `p`. -/
def InStatus (p : SubmissionStatus → Prop) (l : Ledger) (key : BurnKey) : Prop :=
  ∃ r, readRecord l key = .ok (some r) ∧ p r.status

/-- The committed step from `Pending` to `Failed` by `record_failure`. -/
def Happened.Frees (e : Happened) (key : BurnKey) : Prop :=
  e.op = .recordFailure key ∧ e.Granted ∧ InStatus (· = .pending) e.before key ∧ InStatus (· = .failed) e.after key

def SubmissionStatus.isSettled : SubmissionStatus → Prop
  | .submitted | .finalized | .reconciliationRequired => True
  | _ => False

def SubmissionStatus.isTerminal : SubmissionStatus → Prop
  | .finalized | .reconciliationRequired => True
  | _ => False

/-- The burn's row, readable or not, holds a withdrawal ID. -/
def HoldsId (l : Ledger) (key : BurnKey) : Prop :=
  ∃ row, l.get? key.text = some row ∧ row.withdrawalId.isSome = true

/-- No `Pending` or `Failed` row holds a withdrawal ID. -/
def OpenWithoutId (l : Ledger) : Prop :=
  ∀ key r, readRecord l key = .ok (some r) → r.status = .pending ∨ r.status = .failed → r.withdrawalId = none

/-- What holds of every order of transactions from any ledger. -/
structure ClaimSafe (start : Ledger) (ts : List Transaction) : Prop where
  /-- Between two claims of one burn, the first was given up. -/
  once : ∀ earlier a between b later key, history start ts = earlier ++ a :: between ++ b :: later →
    a.Claims key → b.Claims key → ∃ f ∈ between, f.Frees key
  /-- A burn whose submission may exist is never claimed again. -/
  settled : ∀ earlier later key, ts = earlier ++ later →
    InStatus SubmissionStatus.isSettled (afterAll start earlier) key →
    ∀ e ∈ history (afterAll start earlier) later, ¬ e.Claims key
  /-- A settled row never changes again, its timestamp included. -/
  terminal : ∀ earlier later key, ts = earlier ++ later →
    InStatus SubmissionStatus.isTerminal (afterAll start earlier) key →
    (afterAll start ts).get? key.text = (afterAll start earlier).get? key.text
  /-- A refused call leaves the whole ledger as it was. -/
  unchanged : ∀ e ∈ history start ts, ¬ e.Granted → e.after = e.before
  /-- A claim takes every listed burn, each once and each unseen or given up before, and nothing else. -/
  whole : ∀ e ∈ history start ts, ∀ keys records, e.op = .claimBurns keys →
    e.answer = .claim (.ok (.claimed records)) →
    keys.Nodup ∧ records.map (·.burnKey) = keys ∧
      (∀ key ∈ keys, (readRecord e.before key = .ok none ∨ InStatus (· = .failed) e.before key) ∧
        InStatus (· = .pending) e.after key) ∧
      ∀ text, text ∉ keys.map (·.text) → e.after.get? text = e.before.get? text
  /-- An ID once stored is never cleared. -/
  kept : ∀ earlier later key, ts = earlier ++ later → HoldsId (afterAll start earlier) key →
    HoldsId (afterAll start ts) key
  /-- Open rows hold none. -/
  openRows : OpenWithoutId start → OpenWithoutId (afterAll start ts)
  /-- A row that cannot be read is no absent row: no call that names it is granted, a read reports it,
  and it stays. -/
  unreadable : ∀ earlier later key err, ts = earlier ++ later → readRecord (afterAll start earlier) key = .error err →
    record (afterAll start earlier) key = .error err ∧
      (afterAll start ts).get? key.text = (afterAll start earlier).get? key.text ∧
      ∀ e ∈ history (afterAll start earlier) later, key ∈ e.op.keys → ¬ e.Granted

/-! ## Reading what was written -/

theorem fromSqlSeconds_toSqlSeconds {now : UInt64} {seconds : Int64} (h : toSqlSeconds now = .ok seconds) :
    fromSqlSeconds seconds = .ok now := by
  unfold toSqlSeconds at h
  split at h
  · rename_i hle
    cases h
    have hmax : Int64.maxValue.toNatClampNeg = 9223372036854775807 := by decide
    rw [hmax] at hle
    have hint : now.toInt64.toInt = now.toNat := BitVec.toInt_eq_toNat_of_lt
      (show 2 * now.toNat < 18446744073709551616 by omega)
    have hneg : ¬ now.toInt64 < 0 := by
      rw [Int64.lt_iff_toInt_lt, hint]
      exact not_lt.2 (Int.natCast_nonneg _)
    rw [fromSqlSeconds, if_neg hneg, UInt64.toUInt64_toInt64]
  · cases h

theorem mapM_get_utf8 (id : Option String) : (id.map Text.utf8).mapM Text.get = .ok id := by
  cases id <;> rfl

/-- What the ledger writes for a record reads back as the record. -/
theorem rowToRecord_written {r : SubmissionRecord} {seconds : Int64} (h : toSqlSeconds r.timestamp = .ok seconds) :
    rowToRecord { burnKey := r.burnKey.text, withdrawalId := r.withdrawalId.map .utf8,
                  status := .utf8 r.status.asToken, timestamp := seconds } = .ok r := by
  refine bind_ok.2 ⟨_, mapM_get_utf8 r.withdrawalId, bind_ok.2 ⟨r.status.asToken, rfl, bind_ok.2 ⟨r.status, ?_,
    bind_ok.2 ⟨r.timestamp, fromSqlSeconds_toSqlSeconds h, ?_⟩⟩⟩⟩
  · rw [orThrow_ok, SubmissionStatus.parse_asToken]
  · rw [pure_ok, BurnKey.new_text]

theorem rowToRecord_ok {row : Row} {r : SubmissionRecord} (h : rowToRecord row = .ok r) :
    r.burnKey = .new row.burnKey ∧ row.withdrawalId.mapM Text.get = .ok r.withdrawalId := by
  obtain ⟨id, hid, h⟩ := bind_ok.1 h
  obtain ⟨token, htoken, h⟩ := bind_ok.1 h
  obtain ⟨status, hstatus, h⟩ := bind_ok.1 h
  obtain ⟨timestamp, htimestamp, h⟩ := bind_ok.1 h
  cases h
  exact ⟨rfl, hid⟩

theorem readRecord_none {l : Ledger} {key : BurnKey} : readRecord l key = .ok none ↔ l.get? key.text = none := by
  unfold readRecord
  split
  · rename_i h
    simp [h]
  · rename_i row h
    rw [h]
    cases rowToRecord row <;> simp [Except.map]

theorem readRecord_some {l : Ledger} {key : BurnKey} {r : SubmissionRecord} (h : readRecord l key = .ok (some r)) :
    ∃ row, l.get? key.text = some row ∧ rowToRecord row = .ok r ∧ r.burnKey = key := by
  unfold readRecord at h
  split at h
  · cases h
  · rename_i row hrow
    cases hr : rowToRecord row with
    | error e =>
      rw [hr] at h
      cases h
    | ok r' =>
      rw [hr] at h
      cases h
      refine ⟨row, hrow, hr, ?_⟩
      rw [(rowToRecord_ok hr).1, Table.key_of_get? hrow, BurnKey.new_text]

theorem readRecord_congr {l l' : Ledger} {key : BurnKey} (h : l'.get? key.text = l.get? key.text) :
    readRecord l' key = readRecord l key := by
  rw [readRecord, readRecord, h]

/-! ## What one transaction does -/

section
variable {l l' : Ledger} {key k : BurnKey} {r r' : SubmissionRecord} {now : UInt64}

/-- Only the burn's own row changed, to this record. -/
structure Wrote (l l' : Ledger) (key : BurnKey) (r : SubmissionRecord) : Prop where
  read : readRecord l' key = .ok (some r)
  others : ∀ text, text ≠ key.text → l'.get? text = l.get? text

theorem Wrote.read_other (h : Wrote l l' key r) (hk : k ≠ key) : readRecord l' k = readRecord l k := by
  refine readRecord_congr (h.others k.text fun heq => hk ?_)
  rw [← k.new_text, heq, key.new_text]

theorem wrote_put (r : SubmissionRecord) {seconds : Int64} (hr : r.burnKey = key)
    (hseconds : toSqlSeconds r.timestamp = .ok seconds) :
    Wrote l (l.put { burnKey := key.text, withdrawalId := r.withdrawalId.map .utf8,
                     status := .utf8 r.status.asToken, timestamp := seconds }) key r := by
  subst hr
  refine ⟨?_, fun text htext => Table.get?_put_ne l (Ne.symm htext)⟩
  rw [readRecord, Table.get?_put, if_pos rfl]
  show (rowToRecord _).map some = _
  rw [rowToRecord_written hseconds]
  rfl

theorem insertPending_ok (h : insertPending l key now = .ok (r, l')) :
    r = { burnKey := key, withdrawalId := none, status := .pending, timestamp := now } ∧ Wrote l l' key r := by
  obtain ⟨seconds, hseconds, h⟩ := bind_ok.1 h
  obtain ⟨-, h⟩ := ensure_bind_ok.1 h
  cases h
  exact ⟨rfl, wrote_put { burnKey := key, withdrawalId := none, status := .pending, timestamp := now } rfl hseconds⟩

theorem applyTransition_ok {current : SubmissionRecord} {target : SubmissionStatus} {id : Option String}
    (h : applyTransition l current target id now = .ok (r, l')) (hcurrent : readRecord l key = .ok (some current)) :
    current.status.canTransitionTo target = true ∧
      r = { burnKey := key, withdrawalId := id <|> current.withdrawalId, status := target, timestamp := now } ∧
      Wrote l l' key r := by
  obtain ⟨hedge, h⟩ := ensure_bind_ok.1 h
  obtain ⟨seconds, hseconds, h⟩ := bind_ok.1 h
  cases h
  obtain ⟨row, hrow, -, hkey⟩ := readRecord_some hcurrent
  subst hkey
  refine ⟨hedge, rfl, ?_⟩
  have hupdate : updateRow l { current with withdrawalId := id <|> current.withdrawalId, status := target,
                                            timestamp := now } seconds =
      l.put { burnKey := current.burnKey.text, withdrawalId := (id <|> current.withdrawalId).map .utf8,
              status := .utf8 target.asToken, timestamp := seconds } := by
    rw [updateRow, hrow, ← Table.key_of_get? hrow]
  rw [hupdate]
  exact wrote_put _ rfl hseconds

/-- A burn that may be claimed: never seen, or given up. -/
def Claimable (l : Ledger) (key : BurnKey) : Prop :=
  readRecord l key = .ok none ∨ InStatus (· = .failed) l key

/-- What a claim writes for one burn. -/
structure Took (l l' : Ledger) (key : BurnKey) (r : SubmissionRecord) : Prop where
  claimable : Claimable l key
  burnKey : r.burnKey = key
  pending : r.status = .pending
  id : readRecord l key = .ok none ∧ r.withdrawalId = none ∨
    ∃ old, readRecord l key = .ok (some old) ∧ old.status = .failed ∧ r.withdrawalId = old.withdrawalId
  read : readRecord l' key = .ok (some r)

theorem claimOne_ok (h : claimOne now l key = .ok (r, l')) : Took l l' key r ∧ Wrote l l' key r := by
  obtain ⟨existing, hread, h⟩ := bind_ok.1 h
  cases hr : readRecord l key with
  | error e =>
    rw [hr] at hread
    cases hread
  | ok found =>
    rw [hr] at hread
    cases hread
    cases existing with
    | none =>
      cases hins : insertPending l key now with
      | error e =>
        simp only [hins] at h
        cases h
      | ok done =>
        simp only [hins] at h
        cases h
        obtain ⟨rfl, hwrote⟩ := insertPending_ok hins
        exact ⟨⟨.inl hr, rfl, rfl, .inl ⟨hr, rfl⟩, hwrote.read⟩, hwrote⟩
    | some existing =>
      simp only at h
      split at h
      · cases h
      · rename_i hblocks
        have hfailed : existing.status = .failed := by
          cases hs : existing.status <;> rw [hs] at hblocks <;> first | rfl | exact absurd rfl hblocks
        cases happly : applyTransition l existing .pending none now with
        | error e =>
          rw [happly] at h
          cases h
        | ok done =>
          rw [happly] at h
          cases h
          obtain ⟨-, rfl, hwrote⟩ := applyTransition_ok happly hr
          exact ⟨⟨.inr ⟨existing, hr, hfailed⟩, rfl, rfl, .inr ⟨existing, hr, hfailed, rfl⟩, hwrote.read⟩, hwrote⟩

/-- A claim that went through took every listed burn, each once. -/
structure TookAll (l l' : Ledger) (keys : List BurnKey) (records : List SubmissionRecord) : Prop where
  nodup : keys.Nodup
  burnKeys : records.map (·.burnKey) = keys
  took : ∀ key ∈ keys, ∃ r, Took l l' key r
  others : ∀ text, text ∉ keys.map (·.text) → l'.get? text = l.get? text

theorem claimEach_ok {keys : List BurnKey} {records : List SubmissionRecord}
    (h : claimEach now keys l = .ok (records, l')) : TookAll l l' keys records := by
  induction keys generalizing l records with
  | nil =>
    cases h
    exact ⟨.nil, rfl, fun _ hk => (by cases hk), fun _ _ => rfl⟩
  | cons key rest ih =>
    obtain ⟨⟨r, l1⟩, hone, h⟩ := bind_ok.1 h
    obtain ⟨⟨rs, l2⟩, hrest, h⟩ := bind_ok.1 h
    cases h
    obtain ⟨htook, hwrote⟩ := claimOne_ok hone
    have hall := ih hrest
    -- A repeated key meets its own fresh row, which blocks.
    have hkey : key ∉ rest := by
      intro hmem
      obtain ⟨r', htook'⟩ := hall.took key hmem
      rcases htook'.claimable with hnone | ⟨old, hold, hfailed⟩
      · rw [hwrote.read] at hnone
        cases hnone
      · rw [hwrote.read] at hold
        cases hold
        rw [htook.pending] at hfailed
        cases hfailed
    have hne : ∀ k ∈ rest, k ≠ key := fun k hk heq => hkey (heq ▸ hk)
    have htext : key.text ∉ rest.map (·.text) := by
      intro hmem
      obtain ⟨k, hk, heq⟩ := List.mem_map.1 hmem
      exact hne k hk (by rw [← k.new_text, heq, key.new_text])
    refine ⟨List.nodup_cons.2 ⟨hkey, hall.nodup⟩, by simp [htook.burnKey, hall.burnKeys], fun k hk => ?_, fun text hno => ?_⟩
    · rcases List.mem_cons.1 hk with rfl | hk
      · refine ⟨r, htook.claimable, htook.burnKey, htook.pending, htook.id, ?_⟩
        rw [readRecord_congr (hall.others _ htext), hwrote.read]
      · obtain ⟨r', htook'⟩ := hall.took k hk
        have hsame := hwrote.read_other (hne k hk)
        refine ⟨r', ?_, htook'.burnKey, htook'.pending, ?_, htook'.read⟩
        · rw [Claimable, InStatus, ← hsame]
          exact htook'.claimable
        · rw [← hsame]
          exact htook'.id
    · rw [List.map_cons, List.mem_cons, not_or] at hno
      rw [hall.others text hno.2, hwrote.others text hno.1]

/-- A transition that went through moved one row along an edge of the machine. -/
structure MovedTo (target : SubmissionStatus) (id : Option String) (l l' : Ledger) (key : BurnKey) (r r' : SubmissionRecord) :
    Prop where
  read : readRecord l key = .ok (some r)
  edge : r.status.canTransitionTo target = true
  record : r'.status = target ∧ r'.withdrawalId = (id <|> r.withdrawalId)
  wrote : Wrote l l' key r'

theorem commit_cases {ε α : Type} (l : Ledger) (refused : ε) (fails : Bool) (f : Ledger → Except ε (α × Ledger)) :
    (∃ a l', commit l refused fails f = (.ok a, l') ∧ f l = .ok (a, l')) ∨
      ∃ e, commit l refused fails f = (.error e, l) := by
  unfold commit
  split
  · exact .inr ⟨refused, rfl⟩
  · split
    · rename_i a l' h
      exact .inl ⟨a, l', rfl, h⟩
    · rename_i e h
      exact .inr ⟨e, rfl⟩

theorem transition_cases (target : SubmissionStatus) (l : Ledger) (key : BurnKey) (id : Option String) (now : UInt64)
    (fails : Bool) :
    (∃ r r' l', transition target l key id now fails = (.ok r', l') ∧ MovedTo target id l l' key r r') ∨
      ∃ e, transition target l key id now fails = (.error e, l) := by
  rcases commit_cases l LedgerError.store fails fun l => do
    let current ← readRecord l key
    let current ← orThrow current (.unknownBurn key.text)
    applyTransition l current target id now with ⟨r', l', heq, hf⟩ | ⟨e, heq⟩
  · obtain ⟨found, hfound, hf⟩ := bind_ok.1 hf
    obtain ⟨current, rfl, hf⟩ := orThrow_bind_ok.1 hf
    obtain ⟨hedge, rfl, hwrote⟩ := applyTransition_ok hf hfound
    exact .inl ⟨current, _, l', heq, hfound, hedge, ⟨rfl, rfl⟩, hwrote⟩
  · exact .inr ⟨e, heq⟩

theorem claimBurns_cases (l : Ledger) (keys : List BurnKey) (now : UInt64) (fails : Bool) :
    (∃ records l', claimBurns l keys now fails = (.ok (.claimed records), l') ∧ TookAll l l' keys records) ∨
      (∃ r, claimBurns l keys now fails = (.ok (.alreadySeen r), l)) ∨
      ∃ e, claimBurns l keys now fails = (.error e, l) := by
  unfold claimBurns
  rcases commit_cases l (ClaimAborted.ledger .store) fails (claimEach now keys) with
    ⟨records, l', heq, hf⟩ | ⟨e, heq⟩
  · rw [heq]
    exact .inl ⟨records, l', rfl, claimEach_ok hf⟩
  · rw [heq]
    cases e with
    | alreadySeen r => exact .inr (.inl ⟨r, rfl⟩)
    | ledger e => exact .inr (.inr ⟨e, rfl⟩)

/-- The move a recording call asks for. -/
def Op.move? : Op → Option (SubmissionStatus × BurnKey × Option String)
  | .claimBurns _ => none
  | .recordSubmission key id => some (.submitted, key, id)
  | .recordFinalized key id => some (.finalized, key, id)
  | .recordReconciliationRequired key id => some (.reconciliationRequired, key, id)
  | .recordFailure key => some (.failed, key, none)

/-- A transaction is refused and changes nothing, claims, or moves one row. -/
inductive Did (l : Ledger) : Op → Answer → Ledger → Prop where
  | seen {op : Op} (r : SubmissionRecord) : Did l op (.claim (.ok (.alreadySeen r))) l
  | noClaim {op : Op} (e : LedgerError) : Did l op (.claim (.error e)) l
  | noRecord {op : Op} (e : LedgerError) : Did l op (.record (.error e)) l
  | claimed {keys : List BurnKey} {records : List SubmissionRecord} {l' : Ledger} (took : TookAll l l' keys records) :
    Did l (.claimBurns keys) (.claim (.ok (.claimed records))) l'
  | moved {op : Op} {target : SubmissionStatus} {key : BurnKey} {id : Option String} {r r' : SubmissionRecord}
    {l' : Ledger} (asked : op.move? = some (target, key, id)) (moved : MovedTo target id l l' key r r') :
    Did l op (.record (.ok r')) l'

theorem happening_did (l : Ledger) (t : Transaction) :
    Did l (happening l t).op (happening l t).answer (happening l t).after := by
  obtain ⟨op, now, fails⟩ := t
  have hmove : ∀ target key id, op.move? = some (target, key, id) →
      Did l op (.record (transition target l key id now fails).1) (transition target l key id now fails).2 := by
    intro target key id hop
    rcases transition_cases target l key id now fails with ⟨r, r', l', heq, hmoved⟩ | ⟨e, heq⟩
    · rw [heq]
      exact .moved hop hmoved
    · rw [heq]
      exact .noRecord e
  cases op with
  | claimBurns keys =>
    show Did l _ (.claim (claimBurns l keys now fails).1) (claimBurns l keys now fails).2
    rcases claimBurns_cases l keys now fails with ⟨records, l', heq, htook⟩ | ⟨r, heq⟩ | ⟨e, heq⟩
    · rw [heq]
      exact .claimed htook
    · rw [heq]
      exact .seen r
    · rw [heq]
      exact .noClaim e
  | recordSubmission key id => exact hmove _ key id rfl
  | recordFinalized key id => exact hmove _ key id rfl
  | recordReconciliationRequired key id => exact hmove _ key id rfl
  | recordFailure key => exact hmove _ key none rfl

theorem happened_did {l : Ledger} {ts : List Transaction} {e : Happened} (h : e ∈ history l ts) :
    Did e.before e.op e.answer e.after := by
  induction ts generalizing l with
  | nil => cases h
  | cons t ts ih =>
    rcases List.mem_cons.1 h with rfl | h
    · exact happening_did l t
    · exact ih h

end

/-! ## What it does to one burn -/

/-- What one transaction can do to one burn. -/
inductive KeyStep (k : BurnKey) (e : Happened) : Prop where
  | same (no : ¬ e.Claims k) (row : e.after.get? k.text = e.before.get? k.text)
  | claimed (r : SubmissionRecord) (claims : e.Claims k) (took : Took e.before e.after k r)
  | moved (target : SubmissionStatus) (id : Option String) (r r' : SubmissionRecord) (no : ¬ e.Claims k)
    (asked : e.op.move? = some (target, k, id)) (granted : e.Granted)
    (moved : MovedTo target id e.before e.after k r r')

theorem text_injective {k key : BurnKey} (h : k.text = key.text) : k = key := by
  rw [← k.new_text, h, key.new_text]

theorem Did.keyStep {e : Happened} (h : Did e.before e.op e.answer e.after) (k : BurnKey) : KeyStep k e := by
  obtain ⟨op, answer, before, after⟩ := e
  cases h with
  | seen r => exact .same (by rintro ⟨_, h, -⟩; cases h) rfl
  | noClaim err => exact .same (by rintro ⟨_, h, -⟩; cases h) rfl
  | noRecord err => exact .same (by rintro ⟨_, h, -⟩; cases h) rfl
  | @claimed keys records l' took =>
    by_cases hk : k ∈ keys
    · obtain ⟨r, hr⟩ := took.took k hk
      exact .claimed r ⟨records, rfl, took.burnKeys ▸ hk⟩ hr
    · refine .same ?_ (took.others k.text fun hmem => ?_)
      · rintro ⟨_, h, hmem⟩
        cases h
        exact hk (took.burnKeys ▸ hmem)
      · obtain ⟨k', hk', heq⟩ := List.mem_map.1 hmem
        exact hk (text_injective heq ▸ hk')
  | @moved _ target key id r r' l' asked moved =>
    have hno : ¬ Happened.Claims ⟨op, .record (.ok r'), before, after⟩ k := by rintro ⟨_, h, -⟩; cases h
    by_cases hk : k = key
    · subst hk
      exact .moved target id r r' hno asked (.inr ⟨r', rfl⟩) moved
    · exact .same hno (moved.wrote.others k.text fun heq => hk (text_injective heq))

section
variable {e : Happened} {k : BurnKey}

theorem InStatus.same {p : SubmissionStatus → Prop} {l l' : Ledger} (h : InStatus p l k)
    (hrow : l'.get? k.text = l.get? k.text) : InStatus p l' k := by
  obtain ⟨r, hr, hp⟩ := h
  exact ⟨r, (readRecord_congr hrow).trans hr, hp⟩

theorem Took.not_blocked {l l' : Ledger} {r : SubmissionRecord} {p : SubmissionStatus → Prop} (h : Took l l' k r)
    (hp : ¬ p .failed) : ¬ InStatus p l k := by
  rintro ⟨old, hold, hps⟩
  rcases h.claimable with hnone | ⟨r', hr', hfailed⟩
  · rw [hold] at hnone
    cases hnone
  · rw [hold] at hr'
    cases hr'
    exact hp (hfailed ▸ hps)

/-- A claimed burn stays blocked until `record_failure` gives it up. -/
theorem KeyStep.blocked (h : KeyStep k e) (hb : InStatus (·.blocksResubmission = true) e.before k) :
    ¬ e.Claims k ∧ (InStatus (·.blocksResubmission = true) e.after k ∨ e.Frees k) := by
  cases h with
  | same no row => exact ⟨no, .inl (hb.same row)⟩
  | claimed r claims took => exact absurd hb (took.not_blocked (by decide))
  | moved target id r r' no asked granted moved =>
    refine ⟨no, ?_⟩
    obtain ⟨op, answer, before, after⟩ := e
    by_cases htarget : target = .failed
    · subst htarget
      have hpending : r.status = .pending := by
        have hedge := moved.edge
        cases hs : r.status <;> rw [hs] at hedge <;> first | rfl | cases hedge
      have hop : op = .recordFailure k := by
        cases op with
        | recordFailure key => cases asked; rfl
        | _ => cases asked
      exact .inr ⟨hop, granted, ⟨r, moved.read, hpending⟩, ⟨r', moved.wrote.read, moved.record.1⟩⟩
    · refine .inl ⟨r', moved.wrote.read, ?_⟩
      rw [moved.record.1]
      cases target <;> first | rfl | exact absurd rfl htarget

theorem KeyStep.settled (h : KeyStep k e) (hs : InStatus SubmissionStatus.isSettled e.before k) :
    ¬ e.Claims k ∧ InStatus SubmissionStatus.isSettled e.after k := by
  cases h with
  | same no row => exact ⟨no, hs.same row⟩
  | claimed r claims took => exact absurd hs (took.not_blocked id)
  | moved target id r r' no asked granted moved =>
    refine ⟨no, r', moved.wrote.read, ?_⟩
    obtain ⟨r0, hr0, hsettled⟩ := hs
    rw [moved.read] at hr0
    cases hr0
    have hedge := moved.edge
    rw [moved.record.1]
    cases hr : r.status <;> rw [hr] at hsettled hedge <;> first
      | exact hsettled.elim
      | cases target <;> first | exact trivial | cases hedge

theorem KeyStep.terminal (h : KeyStep k e) (hs : InStatus SubmissionStatus.isTerminal e.before k) :
    e.after.get? k.text = e.before.get? k.text := by
  cases h with
  | same no row => exact row
  | claimed r claims took => exact absurd hs (took.not_blocked id)
  | moved target id r r' no asked granted moved =>
    obtain ⟨r0, hr0, hterminal⟩ := hs
    rw [moved.read] at hr0
    cases hr0
    have hedge := moved.edge
    cases hr : r.status <;> rw [hr] at hterminal hedge <;> first
      | exact hterminal.elim
      | cases target <;> cases hedge

theorem KeyStep.unreadable {err : LedgerError} (h : KeyStep k e) (hs : readRecord e.before k = .error err) :
    e.after.get? k.text = e.before.get? k.text := by
  cases h with
  | same no row => exact row
  | claimed r claims took =>
    rcases took.claimable with hnone | ⟨r', hr', -⟩
    · rw [hs] at hnone
      cases hnone
    · rw [hs] at hr'
      cases hr'
  | moved target id r r' no asked granted moved =>
    rw [moved.read] at hs
    cases hs

/-- No call that names an unreadable row is granted. -/
theorem Did.not_granted {err : LedgerError} (h : Did e.before e.op e.answer e.after)
    (hs : readRecord e.before k = .error err) (hk : k ∈ e.op.keys) : ¬ e.Granted := by
  obtain ⟨op, answer, before, after⟩ := e
  cases h with
  | seen r => rintro (⟨_, h⟩ | ⟨_, h⟩) <;> cases h
  | noClaim err => rintro (⟨_, h⟩ | ⟨_, h⟩) <;> cases h
  | noRecord err => rintro (⟨_, h⟩ | ⟨_, h⟩) <;> cases h
  | claimed took =>
    obtain ⟨r, hr⟩ := took.took k hk
    rcases hr.claimable with hnone | ⟨r', hr', -⟩
    · rw [hs] at hnone
      cases hnone
    · rw [hs] at hr'
      cases hr'
  | @moved _ target key id r r' l' asked moved =>
    have hkey : k = key := by
      cases op <;> cases asked <;> exact List.mem_singleton.1 hk
    subst hkey
    rw [moved.read] at hs
    cases hs

/-- An ID is read back when and only when the row has one. -/
theorem row_id {l : Ledger} {r : SubmissionRecord} (h : readRecord l k = .ok (some r)) :
    ∃ row, l.get? k.text = some row ∧ row.withdrawalId.isSome = r.withdrawalId.isSome := by
  obtain ⟨row, hrow, hread, -⟩ := readRecord_some h
  refine ⟨row, hrow, ?_⟩
  have hid := (rowToRecord_ok hread).2
  cases hw : row.withdrawalId with
  | none =>
    rw [hw] at hid
    have heq : none = r.withdrawalId := Except.ok.inj hid
    rw [← heq]
    rfl
  | some text =>
    rw [hw] at hid
    cases text with
    | utf8 s =>
      have heq : some s = r.withdrawalId := Except.ok.inj hid
      rw [← heq]
      rfl
    | invalid => cases hid

theorem orElse_isSome {id old : Option String} (h : old.isSome = true) : (id <|> old).isSome = true := by
  cases id with
  | none => exact h
  | some _ => rfl

theorem HoldsId.record {l : Ledger} {r : SubmissionRecord} (h : HoldsId l k) (hr : readRecord l k = .ok (some r)) :
    r.withdrawalId.isSome = true := by
  obtain ⟨row, hrow, hid⟩ := h
  obtain ⟨row', hrow', heq⟩ := row_id hr
  rw [hrow] at hrow'
  cases hrow'
  rw [← heq, hid]

theorem holdsId_of_read {l : Ledger} {r : SubmissionRecord} (hr : readRecord l k = .ok (some r))
    (hid : r.withdrawalId.isSome = true) : HoldsId l k := by
  obtain ⟨row, hrow, heq⟩ := row_id hr
  exact ⟨row, hrow, heq.trans hid⟩

theorem KeyStep.kept (h : KeyStep k e) (hid : HoldsId e.before k) : HoldsId e.after k := by
  cases h with
  | same no row =>
    unfold HoldsId
    rwa [row]
  | claimed r claims took =>
    rcases took.id with ⟨hnone, -⟩ | ⟨old, hold, -, heq⟩
    · obtain ⟨row, hrow, -⟩ := hid
      rw [readRecord_none, hrow] at hnone
      cases hnone
    · exact holdsId_of_read took.read (heq ▸ hid.record hold)
  | moved target id r r' no asked granted moved =>
    refine holdsId_of_read moved.wrote.read ?_
    rw [moved.record.2]
    exact orElse_isSome (hid.record moved.read)

/-- A burn is `Pending` or `Failed` with no ID before and after, or it leaves these states for good. -/
theorem KeyStep.openRow (h : KeyStep k e)
    (hopen : ∀ r, readRecord e.before k = .ok (some r) → r.status = .pending ∨ r.status = .failed → r.withdrawalId = none) :
    ∀ r, readRecord e.after k = .ok (some r) → r.status = .pending ∨ r.status = .failed → r.withdrawalId = none := by
  intro r' hr' hstatus
  cases h with
  | same no row =>
    rw [readRecord_congr row] at hr'
    exact hopen r' hr' hstatus
  | claimed r claims took =>
    rw [took.read] at hr'
    cases hr'
    rcases took.id with ⟨-, hnone⟩ | ⟨old, hold, hfailed, heq⟩
    · exact hnone
    · rw [heq]
      exact hopen old hold (.inr hfailed)
  | moved target id r r'' no asked granted moved =>
    rw [moved.wrote.read] at hr'
    cases hr'
    have hedge := moved.edge
    rw [moved.record.1] at hstatus
    -- The only move into an open state is `record_failure`, which carries no ID.
    have htarget : target = .failed ∧ id = none := by
      obtain ⟨op, answer, before, after⟩ := e
      cases op <;> cases asked <;> rcases hstatus with h | h <;> first | exact ⟨rfl, rfl⟩ | cases h
    obtain ⟨rfl, rfl⟩ := htarget
    rw [moved.record.2]
    refine hopen r moved.read (.inl ?_)
    cases hs : r.status <;> rw [hs] at hedge <;> first | rfl | cases hedge

end

/-! ## Runs -/

section
variable {l : Ledger} {k : BurnKey}

theorem afterAll_append (l : Ledger) (ts us : List Transaction) : afterAll l (ts ++ us) = afterAll (afterAll l ts) us :=
  List.foldl_append

/-- An assertion that every transaction keeps holds at the end. -/
theorem afterAll_induct {P : Ledger → Prop}
    (hstep : ∀ e : Happened, Did e.before e.op e.answer e.after → P e.before → P e.after) (h : P l) (ts : List Transaction) : P (afterAll l ts) := by
  induction ts generalizing l with
  | nil => exact h
  | cons t ts ih => exact ih (hstep (happening l t) (happening_did l t) h)

/-- An assertion that every transaction keeps holds before each. -/
theorem history_induct {P : Ledger → Prop}
    (hstep : ∀ e : Happened, Did e.before e.op e.answer e.after → P e.before → P e.after) (h : P l) {ts : List Transaction} {e : Happened} (he : e ∈ history l ts) : P e.before := by
  induction ts generalizing l with
  | nil => cases he
  | cons t ts ih =>
    rcases List.mem_cons.1 he with rfl | he
    · exact h
    · exact ih (hstep (happening l t) (happening_did l t) h) he

/-- The transactions after one in a history are the history of its ledger. -/
theorem history_after {ts : List Transaction} {earlier later : List Happened} {e : Happened}
    (h : history l ts = earlier ++ e :: later) : ∃ us, later = history e.after us := by
  induction ts generalizing l earlier with
  | nil => exact absurd h.symm (by simp [history])
  | cons t ts ih =>
    cases earlier with
    | nil =>
      cases h
      exact ⟨ts, rfl⟩
    | cons x earlier =>
      exact ih (List.cons.inj h).2

theorem freed_between {ts : List Transaction} {between later : List Happened} {b : Happened}
    (hb : InStatus (·.blocksResubmission = true) l k) (h : history l ts = between ++ b :: later) (hclaims : b.Claims k) :
    ∃ f ∈ between, f.Frees k := by
  induction between generalizing l ts with
  | nil =>
    cases ts with
    | nil => cases h
    | cons t ts =>
      have hstep : KeyStep k (happening l t) := (happening_did l t).keyStep k
      cases h
      exact absurd hclaims (hstep.blocked hb).1
  | cons x between ih =>
    cases ts with
    | nil => cases h
    | cons t ts =>
      have hstep : KeyStep k (happening l t) := (happening_did l t).keyStep k
      obtain ⟨hx, hrest⟩ := List.cons.inj h
      rcases (hstep.blocked hb).2 with hb' | hfrees
      · obtain ⟨f, hf, hfrees⟩ := ih hb' hrest
        exact ⟨f, List.mem_cons_of_mem _ hf, hfrees⟩
      · exact ⟨x, List.mem_cons_self, hx ▸ hfrees⟩

end

/-- **Claim safety.** For any ledger file and any order in which any number of tasks and processes run the five
transactions on it. -/
theorem claim_safe (start : Ledger) (ts : List Transaction) : ClaimSafe start ts where
  once := by
    intro earlier a between b later key h ha hb
    rw [List.append_assoc, List.cons_append] at h
    have hmem : a ∈ history start ts := by
      rw [h]
      simp
    obtain ⟨us, hus⟩ := history_after h
    refine freed_between ?_ hus.symm hb
    cases (happened_did hmem).keyStep key with
    | same no row => exact absurd ha no
    | claimed r claims took => exact ⟨r, took.read, by rw [took.pending]; rfl⟩
    | moved target id r r' no asked granted moved => exact absurd ha no
  settled := by
    rintro earlier later key rfl hs e he
    have hbefore := history_induct (P := fun l => InStatus SubmissionStatus.isSettled l key)
      (fun e hdid hP => ((hdid.keyStep key).settled hP).2) hs he
    exact (((happened_did he).keyStep key).settled hbefore).1
  terminal := by
    rintro earlier later key rfl hs
    rw [afterAll_append]
    have hkeep := afterAll_induct (P := fun l => InStatus SubmissionStatus.isTerminal l key ∧
        l.get? key.text = (afterAll start earlier).get? key.text)
      (fun e hdid hP => ⟨hP.1.same ((hdid.keyStep key).terminal hP.1), ((hdid.keyStep key).terminal hP.1).trans hP.2⟩)
      ⟨hs, rfl⟩ later
    exact hkeep.2
  unchanged := by
    intro e he hno
    obtain ⟨op, answer, before, after⟩ := e
    cases happened_did he with
    | seen r => rfl
    | noClaim err => rfl
    | noRecord err => rfl
    | claimed took => exact absurd (.inl ⟨_, rfl⟩) hno
    | moved asked moved => exact absurd (.inr ⟨_, rfl⟩) hno
  whole := by
    intro e he keys records hop hanswer
    obtain ⟨op, answer, before, after⟩ := e
    cases hop
    cases hanswer
    cases happened_did he with
    | claimed took =>
      refine ⟨took.nodup, took.burnKeys, fun key hkey => ?_, took.others⟩
      obtain ⟨r, hr⟩ := took.took key hkey
      exact ⟨hr.claimable, r, hr.read, hr.pending⟩
  kept := by
    rintro earlier later key rfl hid
    rw [afterAll_append]
    exact afterAll_induct (P := fun l => HoldsId l key) (fun e hdid hP => (hdid.keyStep key).kept hP) hid later
  openRows := fun hopen => afterAll_induct (P := OpenWithoutId)
    (fun e hdid hP key => (hdid.keyStep key).openRow (hP key)) hopen ts
  unreadable := by
    rintro earlier later key err rfl hs
    have hstep : ∀ e : Happened, Did e.before e.op e.answer e.after →
        e.before.get? key.text = (afterAll start earlier).get? key.text →
        e.after.get? key.text = (afterAll start earlier).get? key.text := by
      intro e hdid hP
      rw [(hdid.keyStep key).unreadable ((readRecord_congr hP).trans hs), hP]
    refine ⟨hs, ?_, fun e he hk => ?_⟩
    · rw [afterAll_append]
      exact afterAll_induct (P := fun l => l.get? key.text = (afterAll start earlier).get? key.text) hstep rfl later
    · have hbefore := history_induct (P := fun l => l.get? key.text = (afterAll start earlier).get? key.text)
        hstep rfl he
      exact (happened_did he).not_granted ((readRecord_congr hbefore).trans hs) hk

end WithdrawalListener
