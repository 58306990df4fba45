import MidenUsdcx.Attester.History
/-!
# Every store a run leaves is read back (`store.rs:1098-1400`)

The writers check little and `validate_store` refuses the whole store for one bad row, so the readers
are checked against the invariant: `StoreInv` is enough for each of them, and every run keeps it.

A file that a crash left without its first tables is the one state that does not open: `open_existing`
gives up on version 0 (`store.rs:994`).
-/
namespace LightAttester
open Checked Interact Keyed Store

variable {C : Crates} {s : Store}

/-! ## What the rows keep to -/

/-- The columns of a saved submission fit together. -/
structure RowOk (C : Crates) (r : SavedSubmission) : Prop where
  held : r.status = .held ↔ r.holdReason.isSome
  heldNoId : r.status = .held → r.withdrawalId = none
  settled : r.status = .submitted ∨ r.status = .finalized ∨ r.status = .expired ∨ r.status = .failed →
    r.withdrawalId.isSome
  wellFormed : ∀ id, r.withdrawalId = some id → isWellFormedId id = true
  /-- The body names its own note as `burnTxId`. -/
  body : C.parseSavedRequest r.body = some r.noteId.toHex
  endpoint : r.endpoint.scheme = "https" ∧ r.endpoint.host.isSome ∧ r.endpoint.path = "/v1/withdraw"

/-- What the tables keep to. -/
structure RowsOk (C : Crates) (s : Store) : Prop where
  wait : ∀ n b, s.burn n = some b → b.limitRetryAt.isSome → b.consumptionBlock.isSome ∧ b.holdReason = none ∧
    ∀ r, s.row n = some r → r.status = .submitting ∨ r.status = .expired
  hold : ∀ n b, s.burn n = some b → b.holdReason.isSome → b.consumptionBlock.isSome ∧
    ∀ r, s.row n = some r → r.status = .expired
  burn : ∀ n r, s.row n = some r → ∃ b, s.burn n = some b ∧ b.consumptionBlock.isSome
  row : ∀ n r, s.row n = some r → RowOk C r

theorem rowOk_of_submissionOk {r : SavedSubmission} (h : submissionOk C r = true)
    (hheld : r.status = .held → r.withdrawalId = none) : RowOk C r := by
  simp only [submissionOk, validateSavedRequest, outcomeOk, Bool.and_eq_true, beq_iff_eq] at h
  obtain ⟨⟨⟨⟨hscheme, hhost⟩, hpath⟩, hbody⟩, ⟨⟨hhold, hid⟩, hsettled⟩, -⟩ := h
  constructor
  · rw [← hhold, decide_eq_true_eq]
  · exact hheld
  · intro hst
    rcases hst with e | e | e | e <;> simpa only [e] using hsettled
  · intro id he
    simpa [he] using hid
  · exact hbody
  · exact ⟨hscheme, hhost, hpath⟩

theorem StoreInv.rowsOk (h : StoreInv C s) : RowsOk C s := by
  constructor
  · intro n b hb hw
    exact (h.notes n).wait b hb hw
  · intro n b hb hh
    exact (h.notes n).hold b hb hh
  · intro n r hr
    exact ((h.notes n).row r hr).2.2
  · intro n r hr
    obtain ⟨hok, hheld, -⟩ := (h.notes n).row r hr
    exact rowOk_of_submissionOk hok hheld

/-! ## The readers -/

theorem StoreInv.selectSubmissions (h : StoreInv C s) (noteId : Option NoteId) (status : Option SubmissionStatus) :
    ∃ rows, s.selectSubmissions C noteId status = .ok rows := by
  refine ⟨_, ensure_bind_ok.2 ⟨fun r hr => ?_, rfl⟩⟩
  have hrow : s.row r.noteId = some r := Table.mem_rows.1 (List.mem_filter.1 hr).1
  obtain ⟨hok, -, b, hb, hc⟩ := (h.notes r.noteId).row r hrow
  refine ⟨hok, ?_⟩
  rw [isConsumed, hb]
  exact hc

theorem StoreInv.loadCandidates (h : StoreInv C s) {st : AttesterState} (hst : s.state = some st)
    (p : BurnRow → Bool) : ∃ cs, s.loadCandidates C st.faucetAccountId p = .ok cs := by
  refine mapM_ok_of_forall fun b hb => ?_
  obtain ⟨c, hc⟩ := h.read b.noteId b st (mem_queue.1 hb).1 hst
  exact ⟨c, by rw [decodeCandidate, hc]; rfl⟩

theorem StoreInv.loadBurns (h : StoreInv C s) {st : AttesterState} (hst : s.state = some st) (all : Bool) :
    ∃ ds, s.loadBurns C st.faucetAccountId all = .ok ds := by
  refine mapM_ok_of_forall fun b hb => ?_
  obtain ⟨hburn, hp⟩ := mem_queue.1 hb
  obtain ⟨c, hc⟩ := h.read b.noteId b st hburn hst
  simp only [Bool.and_eq_true] at hp
  obtain ⟨block, hblock⟩ := Option.isSome_iff_exists.1 hp.1
  refine ⟨c.intoDiscovered block, ?_⟩
  unfold decodeBurn DiscoveredBurn.new
  rw [hblock, hc]
  rfl

theorem StoreInv.validateStore (h : StoreInv C s) {st : AttesterState} (hst : s.state = some st) :
    s.validateStore C st.faucetAccountId st.anchor = .ok () := by
  obtain ⟨cs, hcs⟩ := h.loadCandidates hst fun _ => true
  obtain ⟨ds, hds⟩ := h.loadBurns hst true
  simp only [Store.validateStore, ensure_bind_ok, orThrow_bind_ok]
  refine ⟨?_, ?_, fun r hr => ?_, st, hst, rfl, rfl, bind_ok.2 ⟨cs, hcs, bind_ok.2 ⟨ds, hds, ensure_ok.2 ?_⟩⟩⟩
  · refine List.all_eq_true.2 fun b hb => ?_
    have hburn : s.burn b.noteId = some b := Table.mem_rows.1 hb
    cases hc : b.consumptionBlock with
    | none => rfl
    | some c => simpa using (h.notes b.noteId).order b hburn c hc
  · refine List.all_eq_true.2 fun b hb => ?_
    have hburn : s.burn b.noteId = some b := Table.mem_rows.1 hb
    by_cases hw : b.limitRetryAt.isSome
    · obtain ⟨hc, hh, hrow⟩ := (h.notes b.noteId).wait b hburn hw
      cases hr : s.row b.noteId with
      | none => simp [waitOk, hc, hh, hr]
      | some r => simpa [waitOk, hc, hh, hr] using Or.inr (hrow r hr)
    · simp only [Bool.not_eq_true, Option.isSome_eq_false_iff] at hw
      simp [waitOk, hw]
  · have hrow : s.row r.noteId = some r := Table.mem_rows.1 hr
    have hwell := (h.rowsOk.row r.noteId r hrow).wellFormed
    cases hid : r.withdrawalId with
    | none => rfl
    | some id => simpa using hwell id hid
  · cases hcp : st.checkpoint with
    | none => rfl
    | some header => simpa using h.anchor st header hst hcp

theorem StoreInv.openExisting (h : StoreInv C s) {st : AttesterState} (hst : s.state = some st) :
    s.openExisting C st.faucetAccountId st.anchor = .ok () := by
  have hversion : s.version = STORE_VERSION := by
    rcases h.layout with rfl | hl
    · cases hst
    · exact hl.1
  rw [Store.openExisting, ensure_bind_ok]
  exact ⟨hversion, h.validateStore hst⟩

/-! ## Whole runs -/

/-- A created store stays one, with its faucet and its anchor. -/
theorem legal_created {L newer : List Entry} {s1 : Store} {faucet : AccountId} {anchor : TrustedAnchor}
    (h : Legal C (newer ++ ⟨.commit (.create faucet anchor), s1⟩ :: L) s) :
    ∃ st, s.state = some st ∧ st.faucetAccountId = faucet ∧ st.anchor = anchor := by
  have hcreated : s1.state = some ⟨faucet, anchor, none⟩ := by
    obtain ⟨hw, -⟩ := h.entry.2
    cases hw
    rfl
  refine h.forward (P := fun _ s => ∃ st, s.state = some st ∧ st.faucetAccountId = faucet ∧ st.anchor = anchor)
    ⟨_, hcreated, rfl, rfl⟩ ?_
  intro l s s' a _ _ hP ha
  obtain ⟨st, hst, hfaucet, hanchor⟩ := hP
  rcases ha.store with rfl | ⟨w, rfl, hw, hok⟩
  · exact ⟨st, hst, hfaucet, hanchor⟩
  · cases w with
    | create f a =>
      rw [show s = .blank from hok] at hst
      cases hst
    | scan cs ds hd => exact ⟨_, saveScanProgress_state hw hst, hfaucet, hanchor⟩
    | save | outcome | hold | advance | limit =>
      exact ⟨st, (Write.apply_facts hw (Or.inl rfl)).2.1.trans hst, hfaucet, hanchor⟩
    | release | releaseAll =>
      exact ⟨st, (Write.apply_facts hw (Or.inr rfl)).2.1.trans hst, hfaucet, hanchor⟩

/-- SQLite answers the three calls of `open_or_create`. -/
def Calm (env : List Env) : Prop := 3 ≤ env.length ∧ ∀ e ∈ env, e.storeFails = false

/-- `open_or_create` reads back a file it finds and fills one it makes. -/
theorem run_openOrCreate {config : Config} {w : World} {env : List Env} (henv : Calm env) :
    (Prog.run (handler C) (openOrCreate C config).run env w).1 = some (if w.fileExists = true
      then w.store.openExisting C config.faucetAccountId config.trustedAnchor else .ok ()) := by
  obtain ⟨hlen, hcalm⟩ := henv
  rcases env with _ | ⟨e1, _ | ⟨e2, _ | ⟨e3, rest⟩⟩⟩
  · simp at hlen
  · simp at hlen
  · simp at hlen
  · have h1 : e1.storeFails = false := hcalm e1 (by simp)
    have h2 : e2.storeFails = false := hcalm e2 (by simp)
    have h3 : e3.storeFails = false := hcalm e3 (by simp)
    cases e1
    cases e2
    cases e3
    cases h1
    cases h2
    cases h3
    obtain ⟨file, store, limited, log⟩ := w
    cases file with
    | true =>
      show (Prog.run (handler C) (attempt id (store.openExisting C config.faucetAccountId
        config.trustedAnchor) : Task StoreError Unit).run rest _).1 = _
      cases store.openExisting C config.faucetAccountId config.trustedAnchor <;> rfl
    | false => rfl

/-- What a run leaves behind is read back. -/
structure Reopens (C : Crates) (w : World) : Prop where
  rows : RowsOk C w.store
  submissions : ∀ noteId status, ∃ rows, w.store.selectSubmissions C noteId status = .ok rows
  burns : ∀ st, w.store.state = some st → ∀ all, ∃ ds, w.store.loadBurns C st.faucetAccountId all = .ok ds
  candidates : ∀ st, w.store.state = some st → ∀ p, ∃ cs, w.store.loadCandidates C st.faucetAccountId p = .ok cs
  /-- Before its first transaction a store is blank, and from then on it opens for the faucet and the anchor of
  that transaction. -/
  opens : w.store = .blank ∧ (∀ e ∈ w.log, ∀ faucet anchor, e.act ≠ .commit (.create faucet anchor)) ∨
    ∃ faucet anchor, w.store.openExisting C faucet anchor = .ok () ∧
      ∀ e ∈ w.log, ∀ f a, e.act = .commit (.create f a) → f = faucet ∧ a = anchor
  /-- `open_or_create` starts a new file or opens the one it finds, as long as its tables are there. -/
  opensOrCreates : ∀ config env, Calm env → (w.fileExists = true → w.store ≠ .blank) →
    (∀ st, w.store.state = some st → st.faucetAccountId = config.faucetAccountId ∧ st.anchor = config.trustedAnchor) →
    (Prog.run (handler C) (openOrCreate C config).run env w).1 = some (.ok ())

theorem StoreInv.state (h : StoreInv C s) (hne : s ≠ .blank) : ∃ st, s.state = some st := by
  rcases h.layout with e | ⟨-, hst⟩
  · exact absurd e hne
  · exact Option.isSome_iff_exists.1 hst

/-- **Every store reopens.** In every state a run can reach, the rows keep to their checks, no reader rejects
one, and the store opens again, unless a crash came before the first transaction. -/
theorem store_reopens (lifetimes : List Lifetime) : Reopens C (runAll C lifetimes) := by
  have hlegal := runs_legal (C := C) lifetimes
  have hinv := legal_inv hlegal
  have hcreate : ∀ e ∈ (runAll C lifetimes).log, ∀ f a, e.act = .commit (.create f a) →
      ∃ st, (runAll C lifetimes).store.state = some st ∧ st.faucetAccountId = f ∧ st.anchor = a := by
    intro e he f a hact
    obtain ⟨newer, older, hlog⟩ := List.append_of_mem he
    obtain ⟨act, s1⟩ := e
    cases hact
    rw [hlog] at hlegal
    exact legal_created hlegal
  constructor
  · exact hinv.rowsOk
  · exact hinv.selectSubmissions
  · intro st hst all
    exact hinv.loadBurns hst all
  · intro st hst p
    exact hinv.loadCandidates hst p
  · by_cases hblank : (runAll C lifetimes).store = .blank
    · refine Or.inl ⟨hblank, fun e he f a hact => ?_⟩
      obtain ⟨st, hst, -⟩ := hcreate e he f a hact
      rw [hblank] at hst
      cases hst
    · obtain ⟨st, hst⟩ := hinv.state hblank
      refine Or.inr ⟨_, _, hinv.openExisting hst, fun e he f a hact => ?_⟩
      obtain ⟨st', hst', rfl, rfl⟩ := hcreate e he f a hact
      rw [hst] at hst'
      cases hst'
      exact ⟨rfl, rfl⟩
  · intro config env henv hfile hsame
    rw [run_openOrCreate henv]
    split
    · rename_i hexists
      obtain ⟨st, hst⟩ := hinv.state (hfile hexists)
      obtain ⟨hfaucet, hanchor⟩ := hsame st hst
      rw [← hfaucet, ← hanchor, hinv.openExisting hst]
    · rfl

/-- `start` cut off once SQLite has made the file. -/
def Sample.cutOff : List Lifetime := [.serve config 1 (still 1 ++ [served anchorBlock] ++ still 4)]

/-- A crash between making the file and its first transaction leaves a store that does not open. -/
theorem cut_off_creation_stays_closed :
    (runAll Sample.crates Sample.cutOff).fileExists = true ∧
      (Prog.run (handler Sample.crates) (openOrCreate Sample.crates Sample.config).run (Sample.still 3)
        (runAll Sample.crates Sample.cutOff)).1 = some (.error .cannotUpgrade) ∧
      (runAll Sample.crates Sample.cutOff).store.openExisting Sample.crates Sample.config.faucetAccountId
        Sample.config.trustedAnchor = .error .cannotUpgrade := by
  decide +kernel

end LightAttester
