import MidenUsdcx.Attester.Reopen
/-!
# The life of a burn

What the two tables say of a burn is one `Stage`, and what a commit does to it is at most one `Stage.Step`. The
automaton is the attester as an operator sees it: who moves a burn, and from where.

```
unseen → candidate → ready ⇄ burnHeld
                       ↓ ↑ ↖
              authorized → accepted id → finalized id, failed id
                       ↓ ↑
                  withdrawalHeld
```

From `authorized` a reply may also settle the burn at once, and from there and from `accepted` an expiry leads back to
`ready`.
-/
namespace LightAttester
open Checked Keyed Store

variable {C : Crates} {s s' : Store} {L : List Entry} {n : NoteId}

/-! ## The automaton -/

inductive Stage where
  | unseen
  /-- Published, and not yet consumed by the faucet. -/
  | candidate
  /-- To be authorized: it has no submission, or an expired one. -/
  | ready
  | burnHeld
  /-- Signed and saved; Circle has named no withdrawal for it. -/
  | authorized
  | accepted (id : String)
  | withdrawalHeld
  | finalized (id : String)
  | failed (id : String)
deriving DecidableEq

namespace Stage

/-- The request is out, and no other ID is known for it. -/
def Out (id : String) : Stage → Prop
  | .authorized => True
  | .accepted known => known = id
  | _ => False

/-- The commits that move a burn, and where they move it. -/
inductive Step : Write → Stage → Stage → Prop where
  | created {cs ds hd} : Step (.scan cs ds hd) .unseen .candidate
  | consumed {cs ds hd} : Step (.scan cs ds hd) .candidate .ready
  | authorized {record} : Step (.save record) .ready .authorized
  | held {n reason response} : Step (.hold n reason response) .ready .burnHeld
  | limited {n t body saved} : Step (.limit n t body (some (saved, .first))) .authorized .ready
  | named {out id} : out.withdrawalId = some id → Step (.outcome out) .authorized (.accepted id)
  | rejected {out} : out.status = .held → Step (.outcome out) .authorized .withdrawalHeld
  | finalized {out id a} : out.status = .finalized → a.Out id → Step (.outcome out) a (.finalized id)
  | failed {out id a} : out.status = .failed → a.Out id → Step (.outcome out) a (.failed id)
  | expired {out id a} : out.status = .expired → a.Out id → Step (.outcome out) a .ready
  | burnReleased {w} : w.isRelease = true → Step w .burnHeld .ready
  | withdrawalReleased {w} : w.isRelease = true → Step w .withdrawalHeld .ready

/-- What the attester does for a burn at each stage. -/
def Permits (n : NoteId) : Act → Stage → Prop
  | .prepare burn _ _, a => burn.noteId = n → a = .ready
  | .sign m _, a => m = n → a = .ready
  | .post m _ _, a => m = n → a = .authorized
  | .get m request _, a => m = n → ∃ id endpoint, a = .accepted id ∧ LooksUp request endpoint id
  | _, _ => True

end Stage

/-! ## What the tables show -/

/-- The stage a burn's row and its submission's row stand for. -/
inductive Shows : Option BurnRow → Option SavedSubmission → Stage → Prop where
  | unseen : Shows none none .unseen
  | candidate {b} : b.consumptionBlock = none → b.holdReason = none → Shows (some b) none .candidate
  | ready {b r} : b.consumptionBlock.isSome → b.holdReason = none → (∀ r', r = some r' → r'.status = .expired) →
      Shows (some b) r .ready
  | burnHeld {b r} : b.consumptionBlock.isSome → b.holdReason.isSome → (∀ r', r = some r' → r'.status = .expired) →
      Shows (some b) r .burnHeld
  | authorized {b r} : b.consumptionBlock.isSome → b.holdReason = none → r.status = .submitting →
      r.withdrawalId = none → Shows (some b) (some r) .authorized
  | accepted {b r id} : b.consumptionBlock.isSome → b.holdReason = none →
      (r.status = .submitting ∨ r.status = .submitted) → r.withdrawalId = some id →
      Shows (some b) (some r) (.accepted id)
  | withdrawalHeld {b r} : b.consumptionBlock.isSome → b.holdReason = none → r.status = .held → r.withdrawalId = none →
      Shows (some b) (some r) .withdrawalHeld
  | finalized {b r id} : b.consumptionBlock.isSome → b.holdReason = none → r.status = .finalized →
      r.withdrawalId = some id → Shows (some b) (some r) (.finalized id)
  | failed {b r id} : b.consumptionBlock.isSome → b.holdReason = none → r.status = .failed → r.withdrawalId = some id →
      Shows (some b) (some r) (.failed id)

theorem Shows.unique {burn : Option BurnRow} {row : Option SavedSubmission} {a b : Stage} (ha : Shows burn row a)
    (hb : Shows burn row b) : a = b := by
  cases ha <;> cases hb <;> simp_all

theorem RowOk.shows {b : BurnRow} {r : SavedSubmission} (h : RowOk C r) (hc : b.consumptionBlock.isSome)
    (hh : b.holdReason = none) : ∃ a, Shows (some b) (some r) a := by
  have hid : r.status = .submitted ∨ r.status = .finalized ∨ r.status = .expired ∨ r.status = .failed →
      ∃ id, r.withdrawalId = some id := fun hst => Option.isSome_iff_exists.1 (h.settled hst)
  cases hst : r.status with
  | submitting =>
    cases hr : r.withdrawalId with
    | none => exact ⟨_, .authorized hc hh hst hr⟩
    | some id => exact ⟨_, .accepted hc hh (.inl hst) hr⟩
  | submitted =>
    obtain ⟨id, hr⟩ := hid (.inl hst)
    exact ⟨_, .accepted hc hh (.inr hst) hr⟩
  | finalized =>
    obtain ⟨id, hr⟩ := hid (.inr (.inl hst))
    exact ⟨_, .finalized hc hh hst hr⟩
  | expired =>
    refine ⟨_, .ready hc hh fun r' hr' => ?_⟩
    cases hr'
    exact hst
  | failed =>
    obtain ⟨id, hr⟩ := hid (.inr (.inr (.inr hst)))
    exact ⟨_, .failed hc hh hst hr⟩
  | held => exact ⟨_, .withdrawalHeld hc hh hst (h.heldNoId hst)⟩

/-- A note that keeps to the invariant shows a stage. -/
theorem NoteInv.shows {burn : Option BurnRow} {row : Option SavedSubmission} (h : NoteInv C burn row) :
    ∃ a, Shows burn row a := by
  have hrow : ∀ r, row = some r → ∃ b, burn = some b ∧ b.consumptionBlock.isSome := fun r hr => (h.row r hr).2.2
  cases burn with
  | none =>
    cases row with
    | none => exact ⟨_, .unseen⟩
    | some r =>
      obtain ⟨b, hb, -⟩ := hrow r rfl
      cases hb
  | some b =>
    by_cases hc : b.consumptionBlock.isSome
    · by_cases hh : b.holdReason.isSome
      · exact ⟨_, .burnHeld hc hh (h.hold b rfl hh).2⟩
      · have hh : b.holdReason = none := Option.not_isSome_iff_eq_none.1 hh
        cases row with
        | none => exact ⟨_, .ready hc hh fun r' hr' => by cases hr'⟩
        | some r =>
          obtain ⟨hok, hheld, -⟩ := h.row r rfl
          exact (rowOk_of_submissionOk hok hheld).shows hc hh
    · have hh : b.holdReason = none := by
        by_contra hne
        exact hc (h.hold b rfl (Option.isSome_iff_ne_none.2 hne)).1
      cases row with
      | none => exact ⟨_, .candidate (Option.not_isSome_iff_eq_none.1 hc) hh⟩
      | some r =>
        obtain ⟨b', hb', hc'⟩ := hrow r rfl
        cases hb'
        exact absurd hc' hc

/-! ## What a commit does -/

/-- The tables show the stage `a` still, or one that the commit leads to. -/
def Moved (w : Write) (a : Stage) (burn : Option BurnRow) (row : Option SavedSubmission) : Prop :=
  ∃ b, Shows burn row b ∧ (b = a ∨ Stage.Step w a b)

theorem Shows.moved {burn : Option BurnRow} {row : Option SavedSubmission} {a b : Stage} {w : Write}
    (h : Shows burn row b) (hstep : Stage.Step w a b) : Moved w a burn row := ⟨b, h, .inr hstep⟩

theorem Shows.stays {burn : Option BurnRow} {row : Option SavedSubmission} {a : Stage} {w : Write}
    (h : Shows burn row a) : Moved w a burn row := ⟨a, h, .inl rfl⟩

/-- The limit's deadline is no part of the stage. -/
theorem Shows.of_columns {b b' : BurnRow} {row : Option SavedSubmission} {a : Stage} (h : Shows (some b) row a)
    (hc : b'.consumptionBlock = b.consumptionBlock) (hh : b'.holdReason = b.holdReason) : Shows (some b') row a := by
  cases h with
  | candidate c hold => exact .candidate (hc.trans c) (hh.trans hold)
  | ready c hold hrow => exact .ready (hc ▸ c) (hh.trans hold) hrow
  | burnHeld c hold hrow => exact .burnHeld (hc ▸ c) (hh ▸ hold) hrow
  | authorized c hold hst hid => exact .authorized (hc ▸ c) (hh.trans hold) hst hid
  | accepted c hold hst hid => exact .accepted (hc ▸ c) (hh.trans hold) hst hid
  | withdrawalHeld c hold hst hid => exact .withdrawalHeld (hc ▸ c) (hh.trans hold) hst hid
  | finalized c hold hst hid => exact .finalized (hc ▸ c) (hh.trans hold) hst hid
  | failed c hold hst hid => exact .failed (hc ▸ c) (hh.trans hold) hst hid

/-- The stages of a row that Circle may still answer, by the ID that is known of it. -/
inductive Stage.Unsettled (known : Option String) : Stage → Prop where
  | authorized : known = none → Unsettled known .authorized
  | accepted {id} : known = some id → Unsettled known (.accepted id)

theorem Shows.out {burn : Option BurnRow} {r : SavedSubmission} {a : Stage} (h : Shows burn (some r) a)
    (hst : r.status = .submitting ∨ r.status = .submitted) :
    ∃ b, burn = some b ∧ b.consumptionBlock.isSome ∧ b.holdReason = none ∧ a.Unsettled r.withdrawalId := by
  have never : ∀ {st : SubmissionStatus}, r.status = st → st ≠ .submitting → st ≠ .submitted → False := by
    intro st hr hone htwo
    rcases hst with hr' | hr'
    · exact hone (hr.symm.trans hr')
    · exact htwo (hr.symm.trans hr')
  cases h with
  | @ready b r' _ _ hrow => exact (never (hrow r rfl) (by decide) (by decide)).elim
  | @burnHeld b r' _ _ hrow => exact (never (hrow r rfl) (by decide) (by decide)).elim
  | @authorized b _ c hold _ hid => exact ⟨b, rfl, c, hold, .authorized hid⟩
  | @accepted b _ id c hold _ hid => exact ⟨b, rfl, c, hold, .accepted hid⟩
  | withdrawalHeld _ _ hheld _ => exact (never hheld (by decide) (by decide)).elim
  | finalized _ _ hfinal _ => exact (never hfinal (by decide) (by decide)).elim
  | failed _ _ hfail _ => exact (never hfail (by decide) (by decide)).elim

section
variable {r out : SavedSubmission} {a : Stage} {id : String}

/-- The ID in the reply is the one that was known, if one was. -/
theorem Stage.Unsettled.isOut (h : a.Unsettled r.withdrawalId) (hreads : r.Reads out) (hid : out.withdrawalId = some id) :
    a.Out id := by
  cases h with
  | authorized _ => trivial
  | accepted hknown => exact Option.some.inj ((hreads.kept _ hknown).symm.trans hid)

theorem Stage.Unsettled.unnamed (h : a.Unsettled r.withdrawalId) (hreads : r.Reads out)
    (hnone : out.withdrawalId = none) : a = .authorized := by
  cases h with
  | authorized _ => rfl
  | accepted hknown =>
    rw [hreads.kept _ hknown] at hnone
    cases hnone

/-- A reply that names a withdrawal leaves a burn accepted, or makes it so. -/
theorem Stage.Unsettled.named {burn : Option BurnRow} {row : Option SavedSubmission} (h : a.Unsettled r.withdrawalId)
    (hreads : r.Reads out) (hid : out.withdrawalId = some id) (hshows : Shows burn row (.accepted id)) :
    Moved (.outcome out) a burn row := by
  have hout := h.isOut hreads hid
  cases h with
  | authorized _ => exact hshows.moved (.named hid)
  | accepted _ =>
    obtain rfl : _ = id := hout
    exact hshows.stays

theorem outcomeOk_named (h : outcomeOk out = true)
    (hst : out.status = .submitted ∨ out.status = .finalized ∨ out.status = .expired ∨ out.status = .failed) :
    ∃ id, out.withdrawalId = some id := by
  simp only [outcomeOk, Bool.and_eq_true] at h
  rcases hst with e | e | e | e <;> exact Option.isSome_iff_exists.1 (by simpa only [e] using h.1.2)

end

/-- The stages of a burn that may be authorized. -/
theorem Shows.fresh {a : Stage} {d : DiscoveredBurn} (h : Shows (s.burn d.noteId) (s.row d.noteId) a)
    (hd : FreshBurn s d) : a = .ready := by
  obtain ⟨⟨b, hb, -, -, hc, hh⟩, hrow⟩ := hd
  rw [hb] at h
  exact h.unique (.ready (by rw [hc]; rfl) hh hrow)

/-- A reply that was read into the row. -/
theorem outcome_moves {out : SavedSubmission} {a : Stage} (hw : (Write.outcome out).apply C s = .ok s')
    (hok : WriteOk C L s (.outcome out)) (h : Shows (s.burn out.noteId) (s.row out.noteId) a) :
    Moved (.outcome out) a (s'.burn out.noteId) (s'.row out.noteId) := by
  obtain ⟨-, hheld, r, hr, hst, hreads⟩ := hok
  obtain ⟨r', hleaves⟩ := outcome_leaves hw
  obtain rfl : r' = r := Option.some.inj (hleaves.stored.symm.trans hr)
  have houtcome : outcomeOk out = true := (updateSubmissionOutcome_ok hw).1
  rw [hr] at h
  obtain ⟨b, hb, hc, hh, hstage⟩ := h.out hst
  obtain ⟨b', hb', hc', hh'⟩ : ∃ b', s'.burn out.noteId = some b' ∧ b'.consumptionBlock = b.consumptionBlock ∧
      b'.holdReason = b.holdReason := by
    rw [hleaves.burn, hb]
    split
    · exact ⟨_, rfl, rfl, rfl⟩
    · exact ⟨b, rfl, rfl, rfl⟩
  have hconsumed : b'.consumptionBlock.isSome := hc' ▸ hc
  have hfree : b'.holdReason = none := hh'.trans hh
  rw [hb', hleaves.row]
  cases hs : out.status with
  | submitting =>
    cases hid : out.withdrawalId with
    | some id => exact hstage.named hreads hid (.accepted hconsumed hfree (.inl hs) hid)
    | none =>
      obtain rfl := hstage.unnamed hreads hid
      have hshows : Shows (some b') (some (withOutcome r' out)) .authorized := .authorized hconsumed hfree hs hid
      exact hshows.stays
  | submitted =>
    obtain ⟨id, hid⟩ := outcomeOk_named houtcome (.inl hs)
    exact hstage.named hreads hid (.accepted hconsumed hfree (.inr hs) hid)
  | finalized =>
    obtain ⟨id, hid⟩ := outcomeOk_named houtcome (.inr (.inl hs))
    have hshows : Shows (some b') (some (withOutcome r' out)) (.finalized id) := .finalized hconsumed hfree hs hid
    exact hshows.moved (.finalized hs (hstage.isOut hreads hid))
  | expired =>
    obtain ⟨id, hid⟩ := outcomeOk_named houtcome (.inr (.inr (.inl hs)))
    have hshows : Shows (some b') (some (withOutcome r' out)) .ready :=
      .ready hconsumed hfree fun r2 hr2 => Option.some.inj hr2 ▸ hs
    exact hshows.moved (.expired hs (hstage.isOut hreads hid))
  | failed =>
    obtain ⟨id, hid⟩ := outcomeOk_named houtcome (.inr (.inr (.inr hs)))
    have hshows : Shows (some b') (some (withOutcome r' out)) (.failed id) := .failed hconsumed hfree hs hid
    exact hshows.moved (.failed hs (hstage.isOut hreads hid))
  | held =>
    have hnone := hheld hs
    obtain rfl := hstage.unnamed hreads hnone
    have hshows : Shows (some b') (some (withOutcome r' out)) .withdrawalHeld := .withdrawalHeld hconsumed hfree hs hnone
    exact hshows.moved (.rejected hs)

/-- Circle's limit refused a preparation, a first send or a resend. -/
theorem limit_moves {k : NoteId} {t : Nat} {body : Bytes} {sub : Option (SavedSubmission × SubmissionAttempt)}
    {a : Stage} (hw : (Write.limit k t body sub).apply C s = .ok s')
    (h : Shows (s.burn k) (s.row k) a) : Moved (.limit k t body sub) a (s'.burn k) (s'.row k) := by
  obtain ⟨b, f, hleaves⟩ := limit_leaves hw
  have hconsumed := hleaves.consumed
  have hfree := hleaves.unheld
  rw [hleaves.stored] at h
  obtain ⟨b', hb', hc', hh'⟩ : ∃ b', s'.burn k = some b' ∧ b'.consumptionBlock = b.consumptionBlock ∧
      b'.holdReason = b.holdReason := ⟨_, (hleaves.burn k).trans (if_pos rfl), rfl, rfl⟩
  rw [hb', hleaves.row]
  cases hleaves.source with
  | prepare => exact (h.of_columns hc' hh').stays
  | @first saved r hr =>
    obtain ⟨hrow, hst, hid, -⟩ := sameRequest_eq_some hr
    rw [hrow] at h
    obtain rfl : a = .authorized := h.unique (.authorized hconsumed hfree hst hid)
    rw [dropRow_row, if_pos rfl]
    have hshows : Shows (some b') none .ready := .ready (hc' ▸ hconsumed) (hh'.trans hfree) fun r' hr' => by cases hr'
    exact hshows.moved .limited
  | @recovery saved r hr =>
    obtain ⟨hrow, hst, hid, -⟩ := sameRequest_eq_some hr
    rw [hrow] at h
    obtain rfl : a = .authorized := h.unique (.authorized hconsumed hfree hst hid)
    have hrid : (limitedRow r body).noteId = k := show r.noteId = k from row_noteId hrow
    rw [putRow_row, if_pos hrid]
    have hshows : Shows (some b') (some (limitedRow r body)) .authorized :=
      .authorized (hc' ▸ hconsumed) (hh'.trans hfree) hst hid
    exact hshows.stays

/-- What a block makes of a burn's row. -/
inductive ScannedTo (old : Option BurnRow) : Option BurnRow → Prop where
  | same : ScannedTo old old
  | recorded {b} : old = none → b.consumptionBlock = none → b.holdReason = none → ScannedTo old (some b)
  | consumed {b c} : old = some b → b.consumptionBlock = none →
      ScannedTo old (some { b with consumptionBlock := some c })

theorem ScannedTo.insertCandidate {old : Option BurnRow} {c : BurnCandidate} (h : ScannedTo old (s.burn n))
    (hw : s.insertCandidate c = .ok s') : ScannedTo old (s'.burn n) := by
  obtain ⟨hnone, -, rfl⟩ := insertCandidate_ok hw
  by_cases hn : c.noteId = n
  · subst hn
    rw [hnone] at h
    rw [putBurn_burn_self (n := c.noteId) rfl]
    cases h with
    | same => exact .recorded rfl rfl rfl
  · rw [Write.putBurn_ne (n := c.noteId) rfl (Ne.symm hn)]
    exact h

theorem insertBurn_ne {d : DiscoveredBurn} (hw : s.insertBurn d = .ok s') (hn : n ≠ d.noteId) :
    s'.burn n = s.burn n := by
  rcases insertBurn_ok hw with ⟨-, -, -, rfl⟩ | ⟨b, hb, -, -, rfl⟩
  · exact Write.putBurn_ne (n := d.noteId) rfl hn
  · have hid : ({ b with consumptionBlock := some d.consumptionBlock } : BurnRow).noteId = d.noteId :=
      show b.noteId = _ from burn_noteId hb
    exact Write.putBurn_ne hid hn

/-- A burn the block consumes was recorded before the block, and is consumed in it once. -/
theorem ScannedTo.insertBurn {old : Option BurnRow} {d : DiscoveredBurn} (h : ScannedTo old (s.burn n))
    (hrecorded : n = d.noteId → ∃ b, old = some b) (hw : s.insertBurn d = .ok s') : ScannedTo old (s'.burn n) := by
  by_cases hn : n = d.noteId
  · obtain ⟨b, hb⟩ := hrecorded hn
    subst hn
    rcases insertBurn_ok hw with ⟨-, habsent, -, -⟩ | ⟨b0, hb0, hnone, -, rfl⟩
    · rw [habsent] at h
      cases h with
      | same => cases hb
    · have hid : ({ b0 with consumptionBlock := some d.consumptionBlock } : BurnRow).noteId = d.noteId :=
        show b0.noteId = _ from burn_noteId hb0
      rw [hb0] at h
      rw [putBurn_burn_self hid]
      cases h with
      | same => exact .consumed rfl hnone
      | recorded hold _ _ => cases hold.symm.trans hb
      | consumed _ _ => cases hnone
  · rw [insertBurn_ne hw hn]
    exact h

theorem Shows.scanned {cs : List BurnCandidate} {ds : List DiscoveredBurn} {hd : BlockHeader} {old new : Option BurnRow}
    {row : Option SavedSubmission} {a : Stage} (h : Shows old row a) (hscan : ScannedTo old new) :
    Moved (.scan cs ds hd) a new row := by
  cases hscan with
  | same => exact h.stays
  | recorded hold hc hh =>
    subst hold
    cases h with
    | unseen => exact (Shows.candidate hc hh).moved .created
  | @consumed b c hold hc =>
    subst hold
    have hopen : ¬ b.consumptionBlock.isSome := by simp [hc]
    cases h with
    | candidate _ hh =>
      have hshows : Shows (some { b with consumptionBlock := some c }) none .ready :=
        .ready rfl hh fun r' hr' => by cases hr'
      exact hshows.moved .consumed
    | ready hsome _ _ | burnHeld hsome _ _ | authorized hsome _ _ _ | accepted hsome _ _ _
    | withdrawalHeld hsome _ _ _ | finalized hsome _ _ _ | failed hsome _ _ _ => exact absurd hsome hopen

/-- A block with new burn notes, or with the faucet's consumption of recorded ones. -/
theorem scan_moves {cs : List BurnCandidate} {ds : List DiscoveredBurn} {hd : BlockHeader} {a : Stage}
    (hw : s.saveScanProgress cs ds hd = .ok s') (hok : WriteOk C L s (.scan cs ds hd))
    (h : Shows (s.burn n) (s.row n) a) : Moved (.scan cs ds hd) a (s'.burn n) (s'.row n) := by
  obtain ⟨block, st, -, -, -, hfind⟩ := hok
  rw [(scan_keeps hw).1 n]
  obtain ⟨-, s1, s2, st', h1, h2, -, rfl⟩ := saveScanProgress_ok hw
  have hrecorded : ∀ d ∈ ds, n = d.noteId → ∃ b, s.burn n = some b := by
    rintro d hmem rfl
    obtain ⟨nf, c, -, hc, rfl⟩ := mem_consumedBy (findBurnsInBlock_ok hfind).2 hmem
    obtain ⟨b, hb, -, -⟩ := candidateByNullifier_ok hc
    exact ⟨b, hb⟩
  have hscan : ScannedTo (s.burn n) (s2.burn n) :=
    scan_induct (P := fun z => ScannedTo (s.burn n) (z.burn n)) (fun _ _ _ _ hz hc => hz.insertCandidate hc)
      (fun _ d _ hmem hz hd => hz.insertBurn (hrecorded d hmem) hd) .same h1 h2
  exact h.scanned hscan

/-- A release leads to `ready` and nowhere else. -/
theorem Stage.Step.of_release {w : Write} {a b : Stage} (h : Stage.Step w a b) (hw : w.isRelease = true) :
    b = .ready := by
  cases h with
  | burnReleased _ | withdrawalReleased _ => rfl
  | _ => cases hw

/-- The stage of a burn that is on hold. -/
theorem Shows.held {b : BurnRow} {row : Option SavedSubmission} {a : Stage} (h : Shows (some b) row a)
    (hheld : b.holdReason.isSome) :
    a = .burnHeld ∧ b.consumptionBlock.isSome ∧ ∀ r, row = some r → r.status = .expired := by
  have hne : b.holdReason ≠ none := Option.isSome_iff_ne_none.1 hheld
  cases h with
  | burnHeld hc _ hrow => exact ⟨rfl, hc, hrow⟩
  | candidate _ hh | ready _ hh _ | authorized _ hh _ _ | accepted _ hh _ _ | withdrawalHeld _ hh _ _
  | finalized _ hh _ _ | failed _ hh _ _ => exact absurd hh hne

/-- Only a consumed burn has a submission. -/
theorem Shows.consumed {b : BurnRow} {r : SavedSubmission} {a : Stage} (h : Shows (some b) (some r) a) :
    b.consumptionBlock.isSome := by
  cases h with
  | ready hc _ _ | burnHeld hc _ _ | authorized hc _ _ _ | accepted hc _ _ _ | withdrawalHeld hc _ _ _
  | finalized hc _ _ _ | failed hc _ _ _ => exact hc

/-- An operator's release of one hold or of many. -/
theorem release_moves {w : Write} {a : Stage} (hw : w.apply C s = .ok s') (hrel : w.isRelease = true)
    (h : Shows (s.burn n) (s.row n) a) : Moved w a (s'.burn n) (s'.row n) := by
  refine Write.release_induct (P := fun z => Moved w a (z.burn n) (z.row n)) (fun {z z' m flag k} hz hone => ?_) hw hrel
    h.stays
  obtain ⟨b, hshows, hb⟩ := hz
  rcases releaseHold_ok hone with ⟨b0, hb0, hheld, rfl⟩ | ⟨b0, r, hb0, hfree, hr, hst, hid, rfl⟩
  · have hm : b0.noteId = m := burn_noteId hb0
    by_cases hn : m = n
    · subst hn
      have hburn : (putBurn (z.addEvent (eventOf b0 (z.row m) .burnReleased none)) { b0 with holdReason := none }).burn
          m = some { b0 with holdReason := none } := putBurn_burn_self hm
      rw [hburn, putBurn_row, addEvent_row]
      rw [hb0] at hshows
      obtain ⟨rfl, hc, hrow⟩ := hshows.held hheld
      have hready : Shows (some { b0 with holdReason := none }) (z.row m) .ready := .ready hc rfl hrow
      rcases hb with rfl | hstep
      · exact hready.moved (.burnReleased hrel)
      · cases hstep.of_release hrel
    · have hid : ({ b0 with holdReason := none } : BurnRow).noteId = m := hm
      rw [Write.putBurn_ne hid (Ne.symm hn), addEvent_burn, putBurn_row, addEvent_row]
      exact ⟨b, hshows, hb⟩
  · by_cases hn : m = n
    · subst hn
      rw [dropRow_burn, addEvent_burn, dropRow_row, if_pos rfl, hb0]
      rw [hb0, hr] at hshows
      have hc := hshows.consumed
      obtain rfl : b = .withdrawalHeld := hshows.unique (.withdrawalHeld hc hfree hst hid)
      have hready : Shows (some b0) none .ready := .ready hc hfree fun r' hr' => by cases hr'
      rcases hb with rfl | hstep
      · exact hready.moved (.withdrawalReleased hrel)
      · cases hstep.of_release hrel
    · rw [dropRow_burn, addEvent_burn, dropRow_row, if_neg (Ne.symm hn), addEvent_row]
      exact ⟨b, hshows, hb⟩

/-- **What a commit does** to the stage of any note. -/
theorem commit_moves {w : Write} {a : Stage} (hw : w.apply C s = .ok s') (hok : WriteOk C L s w)
    (h : Shows (s.burn n) (s.row n) a) : Moved w a (s'.burn n) (s'.row n) := by
  have hother : ∀ {m : NoteId}, w.note = some m → n ≠ m → Moved w a (s'.burn n) (s'.row n) := by
    intro m hm hn
    obtain ⟨hburn, hrow⟩ := Write.apply_frame hw hm hn
    rw [hburn, hrow]
    exact h.stays
  cases w with
  | create faucet anchor =>
    cases hw
    obtain rfl : s = .blank := hok
    exact h.stays
  | scan cs ds hd => exact scan_moves hw hok h
  | save record =>
    by_cases hn : n = record.noteId
    · subst hn
      obtain ⟨-, -, b, hb, rfl⟩ := saveSubmission_ok hw
      obtain ⟨d, hd, hitem⟩ := hok
      rw [← hd] at h
      obtain rfl := h.fresh hitem.2.2
      obtain ⟨hc, hh⟩ := hitem.2.2.burn hd hb
      have hid : (authorizedRow record).noteId = record.noteId := rfl
      rw [addEvent_burn, putRow_burn, addEvent_row, putRow_row, if_pos hid, hb]
      have hshows : Shows (some b) (some (authorizedRow record)) .authorized := .authorized hc hh rfl rfl
      exact hshows.moved .authorized
    · exact hother rfl hn
  | outcome out =>
    by_cases hn : n = out.noteId
    · subst hn
      exact outcome_moves hw hok h
    · exact hother rfl hn
  | hold k reason response =>
    by_cases hn : n = k
    · subst hn
      obtain ⟨b, hb, rfl⟩ := holdBurn_ok hw
      obtain ⟨d, hd, hitem⟩ := hok
      rw [← hd] at h
      obtain rfl := h.fresh hitem.2.2
      obtain ⟨hc, hh⟩ := hitem.2.2.burn hd hb
      have hrow : ∀ r, s.row n = some r → r.status = .expired := hd ▸ hitem.2.2.2
      have hid : ({ b with holdReason := some reason, limitRetryAt := none } : BurnRow).noteId = n :=
        show b.noteId = n from burn_noteId hb
      rw [addEvent_burn, putBurn_burn_self hid, addEvent_row, putBurn_row]
      have hshows : Shows (some { b with holdReason := some reason, limitRetryAt := none }) (s.row n) .burnHeld :=
        .burnHeld hc rfl hrow
      exact hshows.moved .held
    · exact hother rfl hn
  | advance k t =>
    by_cases hn : n = k
    · subst hn
      obtain ⟨b, hb, -, rfl⟩ := advanceLimitRetry_ok hw
      have hid : ({ b with limitRetryAt := some t } : BurnRow).noteId = n := show b.noteId = n from burn_noteId hb
      rw [putBurn_burn_self hid, putBurn_row]
      rw [hb] at h
      have hshows : Shows (some { b with limitRetryAt := some t }) (s.row n) a := h.of_columns rfl rfl
      exact hshows.stays
    · exact hother rfl hn
  | limit k t body sub =>
    by_cases hn : n = k
    · subst hn
      exact limit_moves hw h
    · exact hother rfl hn
  | release | releaseAll => exact release_moves hw rfl h

/-! ## Whole runs -/

theorem legal_shows (h : Legal C L s) (n : NoteId) : ∃ a, Shows (s.burn n) (s.row n) a := ((legal_inv h).notes n).shows

/-- What is done for a burn is done at its stage. -/
theorem allowed_permits {act : Act} {a : Stage} (hact : Allowed C L s act s') (h : Shows (s.burn n) (s.row n) a) :
    a.Permits n act := by
  cases act with
  | prepare burn fee reply =>
    rintro rfl
    exact h.fresh hact.2.1.2.2
  | sign m digest =>
    obtain ⟨-, d, rfl, hitem⟩ := hact
    rintro rfl
    exact h.fresh hitem.2.2
  | post m request reply =>
    obtain ⟨-, -, -, -, r, hr, hst, hid, -⟩ := hact
    rintro rfl
    rw [hr] at h
    obtain ⟨b, -, -, -, hstage⟩ := h.out (.inl hst)
    exact hstage.unnamed (.refl r) hid
  | get m request reply =>
    obtain ⟨-, -, -, r, id, hr, hst, hid, hrequest⟩ := hact
    rintro rfl
    rw [hr] at h
    obtain ⟨b, -, -, -, hstage⟩ := h.out hst
    rw [hid] at hstage
    cases hstage with
    | authorized hnone => cases hnone
    | accepted hknown =>
      cases hknown
      exact ⟨id, _, rfl, looksUp_of_statusRequest hrequest⟩
  | _ => trivial

/-- The life of a burn in a run. -/
structure Lives (w : World) (n : NoteId) : Prop where
  stage : ∃! a, Shows (w.store.burn n) (w.store.row n) a
  /-- An act leaves the burn where it is, or is a commit that moves it along one edge; what is sent and signed for it is
  what belongs to its stage. -/
  moves : ∀ later e earlier, w.log = later ++ e :: earlier →
    ∃ a b, Shows ((storeOf earlier).burn n) ((storeOf earlier).row n) a ∧ Shows (e.store.burn n) (e.store.row n) b ∧
      a.Permits n e.act ∧ (b = a ∨ ∃ write, e.act = .commit write ∧ Stage.Step write a b)

/-- In every run, whatever crashes and whoever releases, every burn lives by the automaton. -/
theorem lifecycle (C : Crates) (lifetimes : List Lifetime) (n : NoteId) : Lives (runAll C lifetimes) n where
  stage := by
    obtain ⟨a, ha⟩ := legal_shows (runs_legal (C := C) lifetimes) n
    exact ⟨a, ha, fun b hb => hb.unique ha⟩
  moves later e earlier hlog := by
    have hlegal := hlog ▸ runs_legal (C := C) lifetimes
    obtain ⟨hbefore, hact⟩ := hlegal.entry
    obtain ⟨a, ha⟩ := legal_shows hbefore n
    have hpermits := allowed_permits hact ha
    rcases hact.store with hsame | ⟨w, hw, happly, hok⟩
    · exact ⟨a, a, ha, hsame ▸ ha, hpermits, .inl rfl⟩
    · obtain ⟨b, hb, hmoved⟩ := commit_moves happly hok ha
      exact ⟨a, b, ha, hb, hpermits, hmoved.imp id fun hstep => ⟨w, hw, hstep⟩⟩

end LightAttester
