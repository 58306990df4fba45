import MidenUsdcx.Relayer.Pages
/-!
# No deposit is lost (`lib.rs:219-450`)

The runs of the relay loop are legal: `Sound` is kept by every call, and `OnTrack` says where the scan
stands between two pages. The file is always the state the position in memory would save, because the
write that is skipped is the one that would change nothing.

* `deposits_kept`: what the stored watermark and progress say is done was handled, in every run.
* `submitted_once`: a deposit is submitted again only if the save after its page did not succeed.
-/
namespace DepositRelayer
open Checked Interact

variable {C : Crates} {F : Feed C} {w w' : World}

/-! ## What every call keeps -/

structure Sound (F : Feed C) (w : World) : Prop where
  legal : Legal F w.log
  state : stored w.log = w.state
  placed : Placed F w.length w.state

/-- `w'` comes after `w` with the file untouched. -/
structure Kept (w w' : World) : Prop where
  length : w.length ≤ w'.length
  file : w'.file = w.file
  log : ∀ a ∈ w.log, a ∈ w'.log

theorem Kept.refl : Kept w w := ⟨Nat.le_refl _, rfl, fun _ h => h⟩

theorem Kept.trans {w'' : World} (h : Kept w w') (h' : Kept w' w'') : Kept w w'' :=
  ⟨h.length.trans h'.length, h'.file.trans h.file, fun a ha => h'.log a (h.log a ha)⟩

theorem Kept.state (h : Kept w w') : w'.state = w.state := by
  unfold World.state
  rw [h.file]

/-- `w'` comes after `w` with nothing logged. -/
structure Same (w w' : World) : Prop where
  length : w.length ≤ w'.length
  file : w'.file = w.file
  log : w'.log = w.log

theorem Same.kept (h : Same w w') : Kept w w' := ⟨h.length, h.file, by simp [h.log]⟩

theorem Placed.mono {n n' : Nat} {s : State} (h : Placed F n s) (hle : n ≤ n') : Placed F n' s where
  watermark hash hw := by
    obtain ⟨p, hp, hplace⟩ := h.watermark hash hw
    exact ⟨p, hp.trans_le hle, hplace⟩
  scan r hr := by
    obtain ⟨p, hp, hplace⟩ := h.scan r hr
    exact ⟨p, hp.trans_le hle, hplace⟩
  apart := h.apart

theorem Sound.same (hw : Sound F w) (h : Same w w') : Sound F w' where
  legal := h.log ▸ hw.legal
  state := by rw [h.log, h.kept.state, hw.state]
  placed := h.kept.state ▸ hw.placed.mono h.length

/-- An act that does not touch the file. -/
theorem Sound.record {a : Act} (hw : Sound F w) (hstored : stored (a :: w.log) = stored w.log)
    (ha : Allowed F w.log a) : Sound F (w.record a) where
  legal := .step hw.legal ha
  state := hstored.trans hw.state
  placed := hw.placed

theorem same_arrive (w : World) (n : Nat) : Same w (w.arrive n) := ⟨Nat.le_add_right _ _, rfl, rfl⟩

theorem kept_record (a : Act) : Kept w (w.record a) := ⟨Nat.le_refl _, rfl, fun _ => List.mem_cons_of_mem a⟩

/-! ## Rules for the calls -/

abbrev Runs (F : Feed C) {ρ α : Type} (t : Task ρ α) (Q : Except ρ α → World → Prop) (w : World) : Prop :=
  Ensures (handler F) (Sound F) t Q w

variable {ρ α : Type}

/-- A call is answered in a world that entries may have arrived in. -/
theorem runs_call {o : Call} {Q : Except ρ o.Answer → World → Prop} (hw : Sound F w)
    (h : ∀ e w', Same w w' → w'.served = w.served → w'.self = w.self → Sound F w' →
      Sound F (answer F o e w').2 ∧ Q (.ok (answer F o e w').1) (answer F o e w').2) : Runs F (call o) Q w := by
  refine ensures_call hw fun e => ?_
  have hsame := same_arrive w e.arrivals
  exact h e _ hsame rfl rfl (hw.same hsame)

/-- The calls that only read, or change what is in memory. -/
def Call.plain : Call → Bool
  | .self | .update _ | .isCancelled | .now => true
  | _ => false

theorem runs_plain {o : Call} {Q : Except ρ o.Answer → World → Prop} (ho : o.plain = true) (hw : Sound F w)
    (h : ∀ a w', Same w w' → w'.served = w.served → Sound F w' → Q (.ok a) w') : Runs F (call o) Q w := by
  refine runs_call hw fun e w' hsame hserved _ hw' => ?_
  have hanswer : Same w (answer F o e w').2 ∧ (answer F o e w').2.served = w.served := by
    cases o with
    | self | update | isCancelled | now => exact ⟨⟨hsame.length, hsame.file, hsame.log⟩, hserved⟩
    | start | fetch | skip | retainUnminted | submitNotes | state | setState => cases ho
  exact ⟨hw.same hanswer.1, h _ _ hanswer.1 hanswer.2 (hw.same hanswer.1)⟩

theorem runs_attempt {x : Except ρ α} {Q : Except ρ α → World → Prop} (hw : Sound F w)
    (hok : ∀ a, x = .ok a → Q (.ok a) w) (herr : ∀ e, x = .error e → Q (.error e) w) : Runs F (attempt x) Q w := by
  cases x with
  | ok a => exact ensures_pure hw (hok a rfl)
  | error e => exact ensures_throw hw (herr e rfl)

/-- Whatever page comes of a request is the feed's. -/
theorem runs_fetchPage {cursor : Option CircleCursor} {size : PageSize} {Q : Except Failure Page → World → Prop}
    (hw : Sound F w)
    (hok : ∀ page w', Same w w' → Sound F w' → w'.served = F.top w'.length cursor → F.Serves w'.served page →
      Q (.ok page) w')
    (herr : ∀ e w', Same w w' → Sound F w' → Q (.error e) w') : Runs F (fetchPage C cursor size) Q w := by
  refine ensures_seq (runs_call hw fun e w' hsame _ _ hw' => ?_)
  simp only [answer]
  by_cases htrue : F.Truthful size (F.top w'.length cursor) e.reply
  · rw [if_pos htrue]
    have hserved : Same w { w' with served := F.top w'.length cursor } := ⟨hsame.length, hsame.file, hsame.log⟩
    refine ⟨hw.same hserved, runs_attempt (hw.same hserved) (fun page hpage => ?_) fun e _ =>
      herr e _ hserved (hw.same hserved)⟩
    refine hok page _ hserved (hw.same hserved) rfl ?_
    unfold Feed.Truthful at htrue
    rw [hpage] at htrue
    exact of_decide_eq_true htrue
  · rw [if_neg htrue]
    exact ⟨hw', runs_attempt hw' (fun page hpage => by simp [readPage] at hpage) fun e _ => herr e _ hsame hw'⟩

theorem runs_loadState {Q : Except Failure State → World → Prop} (hw : Sound F w)
    (hok : ∀ w', Same w w' → Sound F w' → Q (.ok w'.state) w')
    (herr : ∀ e w', Same w w' → Sound F w' → Q (.error e) w') :
    Runs F loadState Q w := by
  refine ensures_seq (runs_call hw fun e w' hsame _ _ hw' => ⟨hw', ?_⟩)
  refine runs_attempt (x := (answer F .state e w').1) hw' (fun s hs => ?_) fun e _ => herr e _ hsame hw'
  simp only [answer] at hs
  cases hfail : e.failure with
  | some failure =>
    rw [hfail] at hs
    cases hs
  | none =>
    rw [hfail] at hs
    cases hs
    exact hok _ hsame hw'

/-- A write is asked to advance the state; whether it fails or not, the file is one of the two. -/
theorem runs_saveState {s : State} {Q : Except Failure Unit → World → Prop} (hw : Sound F w)
    (hadv : Advance F w.log s) (hplaced : Placed F w.length s)
    (hok : ∀ w', w.length ≤ w'.length → w'.state = s → w'.log = .saved s :: w.log → Sound F w' → Q (.ok ()) w')
    (herr : ∀ e w', Sound F w' → Quiet w'.log → Q (.error e) w') :
    Runs F (saveState s) Q w := by
  refine ensures_seq (runs_call hw fun e w' hsame _ _ hw' => ?_)
  have hadv' : Advance F w'.log s := hsame.log ▸ hadv
  have hplaced' := hplaced.mono hsame.length
  simp only [answer]
  cases hfail : e.failure with
  | some failure =>
    have hsound : Sound F ({ w' with file := if e.landed then some s else w'.file }.record (.saveFailed s e.landed)) := by
      refine ⟨.step hw'.legal fun _ => hadv', ?_, ?_⟩
      · cases hland : e.landed with
        | true => rfl
        | false => exact hw'.state
      · cases hland : e.landed with
        | true => exact hplaced'
        | false => exact hw'.placed
    refine ⟨hsound, runs_attempt hsound (fun _ h => by cases h) fun e _ => herr e _ hsound ?_⟩
    rintro notes earlier h
    cases h
  | none =>
    have hsound : Sound F ({ w' with file := some s }.record (.saved s)) := ⟨.step hw'.legal hadv', rfl, hplaced'⟩
    refine ⟨hsound, runs_attempt hsound (fun _ _ => ?_) fun e h => by cases h⟩
    refine hok _ hsame.length rfl ?_ hsound
    show Act.saved s :: w'.log = _
    rw [hsame.log]

theorem runs_skip {entry : Entry} {reason : String} {Q : Except Failure Unit → World → Prop} (hw : Sound F w)
    (hquiet : Quiet w.log) (hbad : Unbuildable C entry)
    (hok : ∀ w', Kept w w' → w'.served = w.served → w'.log = .skipped w.served entry :: w.log → Sound F w' →
      Q (.ok ()) w') : Runs F (call (.skip entry reason)) Q w := by
  refine runs_call hw fun e w' hsame hserved _ hw' => ?_
  have hsound : Sound F (w'.record (.skipped w'.served entry)) := hw'.record rfl ⟨hsame.log ▸ hquiet, hbad⟩
  refine ⟨hsound, hok _ (hsame.kept.trans (kept_record _)) hserved ?_ hsound⟩
  show Act.skipped w'.served entry :: w'.log = _
  rw [hserved, hsame.log]

theorem runs_retainUnminted {nonces : List DepositNonce} {Q : Except Failure (List DepositNonce) → World → Prop}
    (hw : Sound F w) (hquiet : Quiet w.log)
    (hok : ∀ unminted w', Kept w w' → w'.log = .checked nonces unminted :: w.log → Sound F w' → Q (.ok unminted) w')
    (herr : ∀ e w', Same w w' → Sound F w' → Q (.error e) w') : Runs F (retainUnminted nonces) Q w := by
  refine ensures_seq (runs_call hw fun e w' hsame _ _ hw' => ?_)
  simp only [answer]
  cases hfail : e.failure with
  | some failure => exact ⟨hw', runs_attempt hw' (fun _ h => by cases h) fun e _ => herr e _ hsame hw'⟩
  | none =>
    have hsound := hw'.record (a := .checked nonces (nonces.filter fun n => decide (n ∉ e.minted))) rfl
      (show Quiet w'.log from hsame.log ▸ hquiet)
    refine ⟨hsound, runs_attempt hsound (fun u hu => ?_) fun e h => by cases h⟩
    cases hu
    refine hok _ _ (hsame.kept.trans (kept_record _)) ?_ hsound
    show _ :: w'.log = _
    rw [hsame.log]

theorem runs_submitNotes {notes : List XUsdcMintNote} {Q : Except Failure Unit → World → Prop} (hw : Sound F w)
    (hquiet : Quiet w.log)
    (hnew : ∀ note ∈ notes, ∃ q, NoteOf F q note ∧ ¬ Covered F (stored w.log) q)
    (hok : ∀ w', Kept w w' → w'.log = .submitted notes :: w.log → Sound F w' → Q (.ok ()) w')
    (herr : ∀ e w', Same w w' → Sound F w' → Q (.error e) w') : Runs F (submitNotes notes) Q w := by
  refine ensures_seq (runs_call hw fun e w' hsame _ _ hw' => ?_)
  simp only [answer]
  cases hfail : e.failure with
  | some failure => exact ⟨hw', runs_attempt hw' (fun _ h => by cases h) fun e _ => herr e _ hsame hw'⟩
  | none =>
    have hsound := hw'.record (a := .submitted notes) rfl (by rw [hsame.log]; exact ⟨hquiet, hnew⟩)
    refine ⟨hsound, runs_attempt hsound (fun u hu => ?_) fun e h => by cases h⟩
    refine hok _ (hsame.kept.trans (kept_record _)) ?_ hsound
    show _ :: w'.log = _
    rw [hsame.log]

/-! ## Building the notes of a page -/

/-- What became of an entry. -/
def Dealt (C : Crates) (served : Nat) (L : List Act) (notes : List XUsdcMintNote) (entry : Entry) : Prop :=
  (∃ a, ∃ minter : Minter, ∃ note ∈ notes, entry = .attestation a ∧ (minter.buildNote C a).1 = .ok note) ∨
    (.skipped served entry ∈ L ∧ Unbuildable C entry)

/-- The notes come from entries of the list. -/
def Made (C : Crates) (entries : List Entry) (note : XUsdcMintNote) : Prop :=
  ∃ a, ∃ minter : Minter, .attestation a ∈ entries ∧ (minter.buildNote C a).1 = .ok note

theorem Quiet.same {L : List Act} {a : Act} (ha : ∀ notes, a ≠ .submitted notes) : Quiet (a :: L) := by
  intro notes earlier h
  cases h
  exact ha notes rfl

theorem runs_buildNotes {entries : List Entry} {Q : Except Failure BuiltNotes → World → Prop} (hw : Sound F w)
    (hquiet : Quiet w.log)
    (hok : ∀ built w', Kept w w' → Quiet w'.log → Sound F w' →
      (∀ entry ∈ entries, Dealt C w.served w'.log built.notes entry) →
      (∀ note ∈ built.notes, Made C entries note) → Q (.ok built) w') : Runs F (buildNotes C entries) Q w := by
  induction entries generalizing w Q with
  | nil => exact ensures_pure hw (hok _ _ .refl hquiet hw (by simp) (by simp))
  | cons entry rest ih =>
    refine ensures_seq (runs_plain rfl hw fun self w₁ h₁ hs₁ hw₁ => ?_)
    refine ensures_seq (runs_plain rfl hw₁ fun _ w₂ h₂ hs₂ hw₂ => ?_)
    have hserved : w₂.served = w.served := hs₂.trans hs₁
    have hkept := h₁.kept.trans h₂.kept
    have hquiet₂ : Quiet w₂.log := by rwa [h₂.log, h₁.log]
    cases hmade : (Minter.buildEntry C self.minter entry).1 with
    | ok note =>
      obtain ⟨a, rfl⟩ : ∃ a, entry = .attestation a := by
        cases entry with
        | attestation a => exact ⟨a, rfl⟩
        | undecodable => cases hmade
      refine ensures_seq (ih hw₂ hquiet₂ fun built w' hk hq hw' hdealt hfrom => ?_)
      refine ensures_pure hw' (hok _ _ (hkept.trans hk) hq hw' (fun e he => ?_) fun m hm => ?_)
      · rcases List.mem_cons.1 he with rfl | he
        · exact .inl ⟨a, self.minter, note, List.mem_cons_self, rfl, hmade⟩
        · rcases hdealt e he with ⟨a', minter, m, hm, rfl, hbuilt⟩ | hskip
          · exact .inl ⟨a', minter, m, List.mem_cons_of_mem _ hm, rfl, hbuilt⟩
          · exact .inr (hserved ▸ hskip)
      · rcases List.mem_cons.1 hm with rfl | hm
        · exact ⟨a, self.minter, List.mem_cons_self, hmade⟩
        · obtain ⟨a', minter, hmem, hbuilt⟩ := hfrom m hm
          exact ⟨a', minter, List.mem_cons_of_mem _ hmem, hbuilt⟩
    | error reason =>
      have hbad : Unbuildable C entry := ⟨self.minter, reason, hmade⟩
      refine ensures_seq (runs_skip hw₂ hquiet₂ hbad fun w₃ hk₃ hs₃ hlog₃ hw₃ => ?_)
      have hquiet₃ : Quiet w₃.log := hlog₃ ▸ .same (by simp)
      refine ensures_seq (ih hw₃ hquiet₃ fun built w' hk hq hw' hdealt hfrom => ?_)
      refine ensures_pure hw' (hok _ _ ((hkept.trans hk₃).trans hk) hq hw' (fun e he => ?_) fun m hm => ?_)
      · rcases List.mem_cons.1 he with rfl | he
        · refine .inr ⟨hk.log _ ?_, hbad⟩
          rw [hlog₃, hserved]
          exact List.mem_cons_self
        · rw [← hserved, ← hs₃]
          exact hdealt e he
      · obtain ⟨a', minter, hmem, hbuilt⟩ := hfrom m hm
        exact ⟨a', minter, List.mem_cons_of_mem _ hmem, hbuilt⟩

/-! ## One page -/

/-- Where the scan stands. The file is what the position would save. -/
structure OnTrack (F : Feed C) (w : World) (pos : Position) : Prop where
  state : pos.state = w.state
  below : ∀ c, pos.resume = some c → F.names c ≤ w.length ∧
    ∀ hash p, pos.watermark = some hash → F.hashAt p = some hash → p < F.names c
  resumed : ∀ hash, pos.head = some hash → ∃ c, pos.resume = some c
  quiet : Quiet w.log

variable {pos : Position}

theorem OnTrack.pageAt {page : Page} (h : OnTrack F w pos) (hw : Sound F w') (hsame : Same w w')
    (htop : w'.served = F.top w'.length pos.resume) (hserves : F.Serves w'.served page) :
    PageAt F pos w'.length w'.served page := by
  have hstate : pos.state = w'.state := h.state.trans hsame.kept.state.symm
  have hplaced : Placed F w'.length pos.state := hstate ▸ hw.placed
  refine ⟨htop, ?_, hserves, hplaced, fun hash p hmark hp => ?_, h.resumed⟩
  · cases hresume : pos.resume with
    | none => simp [htop, hresume, Feed.top]
    | some c =>
      rw [htop, hresume]
      exact (h.below c hresume).1.trans hsame.length
  · cases hresume : pos.resume with
    | none =>
      obtain ⟨p', hlt, hp'⟩ := hplaced.watermark hash hmark
      obtain rfl := F.unique _ _ _ hp hp'
      simpa [htop, hresume, Feed.top] using hlt
    | some c =>
      rw [htop, hresume]
      exact (h.below c hresume).2 hash p hmark hp

/-- What a finished page leaves. -/
structure Processed (F : Feed C) (pos : Position) (n top : Nat) (page : Page) (w : World) : Prop where
  pageAt : PageAt F pos n top page
  length : n ≤ w.length
  handled : ∀ q, Fresh F pos.watermark top page.entries.length q → Handled F w.log q
  /-- Either nothing was submitted, or the last thing done is the submission of notes of the page. -/
  last : Quiet w.log ∨ ∃ notes earlier, w.log = .submitted notes :: earlier ∧ notes ≠ [] ∧
    ∀ note ∈ notes, ∃ q, NoteOf F q note ∧ Fresh F pos.watermark top page.entries.length q

theorem runs_submitPage {entries : List Entry} {built : Nat} {notes : List XUsdcMintNote}
    {Q : Except Failure Unit → World → Prop} (hw : Sound F w) (hquiet : Quiet w.log) (hbuilt : notes ≠ [] → built ≠ 0)
    (hnew : ∀ note ∈ notes, ∃ q, NoteOf F q note ∧ ¬ Covered F (stored w.log) q)
    (hnone : notes = [] → Q (.ok ()) w)
    (hok : ∀ w', notes ≠ [] → Kept w w' → w'.log = .submitted notes :: w.log → Sound F w' → Q (.ok ()) w')
    (herr : ∀ e w', Same w w' → Sound F w' → Q (.error e) w') : Runs F (submitPage entries built notes) Q w := by
  unfold submitPage
  by_cases hempty : notes = []
  · split
    · exact ensures_pure hw (hnone hempty)
    · split
      · exact ensures_pure hw (hnone hempty)
      · rw [if_neg (not_not.2 hempty)]
        exact ensures_pure hw (hnone hempty)
  · rw [if_neg (fun h => hbuilt hempty h.1), if_neg (fun h => hempty h.1), if_pos hempty]
    refine ensures_seq (runs_submitNotes hw hquiet hnew (fun w₁ hk₁ hlog₁ hw₁ => ?_) herr)
    refine ensures_seq (runs_plain rfl hw₁ fun _ w₂ h₂ _ hw₂ => ?_)
    refine ensures_seq (runs_plain rfl hw₂ fun _ w₃ h₃ _ hw₃ => ?_)
    refine runs_plain rfl hw₃ fun _ w₄ h₄ _ hw₄ => ?_
    refine hok w₄ hempty (((hk₁.trans h₂.kept).trans h₃.kept).trans h₄.kept) ?_ hw₄
    rw [h₄.log, h₃.log, h₂.log, hlog₁]

/-- The note of a fresh entry is submitted or was minted. -/
theorem fresh_handled {n top q : Nat} {page : Page} {L : List Act} {notes : List XUsdcMintNote}
    {nonces unminted : List DepositNonce} (hat : PageAt F pos n top page)
    (hdealt : ∀ entry ∈ fresh pos.watermark page, Dealt C top L notes entry)
    (hchecked : .checked nonces unminted ∈ L) (hasked : ∀ note ∈ notes, note.nonce ∈ nonces)
    (hsubmitted : ∀ note ∈ notes, note.nonce ∈ unminted → ∃ sent, .submitted sent ∈ L ∧ note ∈ sent)
    (hq : Fresh F pos.watermark top page.entries.length q) : Handled F L q := by
  obtain ⟨i, hi⟩ : ∃ i, q + i + 1 = top := ⟨top - 1 - q, by have := hq.high; omega⟩
  have hmem := (mem_fresh hat.serves hat.below).2 ⟨q, i, hi, hq, rfl⟩
  rcases hdealt _ hmem with ⟨a, minter, note, hnote, hentry, hbuilt⟩ | ⟨hskip, hbad⟩
  · have hown : NoteOf F q note := ⟨a, minter, decode_attestation.1 hentry, hbuilt⟩
    by_cases hun : note.nonce ∈ unminted
    · obtain ⟨sent, hsent, hin⟩ := hsubmitted note hnote hun
      exact .submitted hown hsent hin
    · exact .minted hown hchecked (hasked note hnote) hun
  · exact .skipped (i := i) (hi ▸ hskip) hbad

theorem made_fresh {n top : Nat} {page : Page} {note : XUsdcMintNote} (hat : PageAt F pos n top page)
    (hmade : Made C (fresh pos.watermark page) note) :
    ∃ q, NoteOf F q note ∧ Fresh F pos.watermark top page.entries.length q := by
  obtain ⟨a, minter, hmem, hbuilt⟩ := hmade
  obtain ⟨q, i, _, hq, hentry⟩ := (mem_fresh hat.serves hat.below).1 hmem
  exact ⟨q, ⟨a, minter, decode_attestation.1 hentry.symm, hbuilt⟩, hq⟩

theorem runs_processPage {Q : Except Failure PageOutcome → World → Prop} (hw : Sound F w) (htrack : OnTrack F w pos)
    (hok : ∀ n top page w', w.length ≤ n → Kept w w' → Sound F w' → Processed F pos n top page w' →
      Q (.ok (outcomeOf pos.watermark page)) w')
    (herr : ∀ e w', Sound F w' → Quiet w'.log → Q (.error e) w') :
    Runs F (processPage C pos.resume pos.watermark) Q w := by
  refine ensures_seq (runs_plain rfl hw fun self w₁ h₁ _ hw₁ => ?_)
  have hquiet₁ : Quiet w₁.log := h₁.log ▸ htrack.quiet
  refine ensures_seq (runs_fetchPage hw₁ (fun page w₂ h₂ hw₂ htop hserves => ?_) fun e w₂ h₂ hw₂ =>
    herr e w₂ hw₂ (h₂.log ▸ hquiet₁))
  have hsame : Same w w₂ := ⟨h₁.length.trans h₂.length, h₂.file.trans h₁.file, h₂.log.trans h₁.log⟩
  have hat := htrack.pageAt hw₂ hsame htop hserves
  refine ensures_seq (runs_buildNotes hw₂ (h₂.log ▸ hquiet₁) fun built w₃ hk₃ hq₃ hw₃ hdealt hmade => ?_)
  refine ensures_seq (runs_plain rfl hw₃ fun self w₄ h₄ _ hw₄ => ?_)
  refine ensures_seq (runs_retainUnminted hw₄ (h₄.log ▸ hq₃) (fun unminted w₅ hk₅ hlog₅ hw₅ => ?_) fun e w₅ h₅ hw₅ =>
    herr e w₅ hw₅ (by rw [h₅.log, h₄.log]; exact hq₃))
  refine ensures_seq (runs_plain rfl hw₅ fun _ w₆ h₆ _ hw₆ => ?_)
  have hkept : Kept w w₆ := (((hsame.kept.trans hk₃).trans h₄.kept).trans hk₅).trans h₆.kept
  have hlog₆ : w₆.log = .checked (built.notes.map (·.nonce) ++ self.unminted.nonces) unminted :: w₃.log := by
    rw [h₆.log, hlog₅, h₄.log]
  have hquiet₆ : Quiet w₆.log := hlog₆ ▸ .same (by simp)
  have hstored : stored w₆.log = pos.state := by rw [hw₆.state, hkept.state, htrack.state]
  have hasked : ∀ note ∈ built.notes, note.nonce ∈ built.notes.map (·.nonce) ++ self.unminted.nonces :=
    fun note hnote => List.mem_append_left _ (List.mem_map_of_mem hnote)
  have hlen₃ : w₂.length ≤ w₆.length := ((hk₃.trans h₄.kept).trans (hk₅.trans h₆.kept)).length
  -- What is left to show once the log holds the submission, if there was one.
  have hdone : ∀ w', Kept w₆ w' → (∀ note ∈ built.notes, note.nonce ∈ unminted →
      ∃ sent, .submitted sent ∈ w'.log ∧ note ∈ sent) →
      ∀ q, Fresh F pos.watermark w₂.served page.entries.length q → Handled F w'.log q := by
    intro w' hk hsent q hq
    refine fresh_handled hat (fun entry hentry => ?_) (hk.log _ ?_) hasked hsent hq
    · rcases hdealt entry hentry with hmade | ⟨hskip, hbad⟩
      · exact .inl hmade
      · refine .inr ⟨hk.log _ ?_, hbad⟩
        rw [hlog₆]
        exact List.mem_cons_of_mem _ hskip
    · rw [hlog₆]
      exact List.mem_cons_self
  refine ensures_seq (runs_submitPage hw₆ hquiet₆ ?_ (fun note hnote => ?_) (fun hnone => ?_) (fun w₇ hne hk₇ hlog₇ hw₇ => ?_)
    fun e w₇ h₇ hw₇ => herr e w₇ hw₇ (h₇.log ▸ hquiet₆))
  · intro hne hzero
    rw [List.length_eq_zero_iff] at hzero
    exact hne (by rw [hzero]; rfl)
  · obtain ⟨q, hown, hq⟩ := made_fresh hat (hmade note (List.mem_of_mem_filter hnote))
    exact ⟨q, hown, hstored ▸ hat.fresh_not_covered hq⟩
  · refine ensures_pure hw₆ (hok _ _ page w₆ hsame.length hkept hw₆ ⟨hat, hlen₃, hdone w₆ .refl fun note hnote hun => ?_, .inl hquiet₆⟩)
    have : note ∈ built.notes.filter fun note => decide (note.nonce ∈ unminted) :=
      List.mem_filter.2 ⟨hnote, decide_eq_true hun⟩
    rw [hnone] at this
    cases this
  · refine ensures_pure hw₇ (hok _ _ page w₇ hsame.length (hkept.trans hk₇) hw₇
      ⟨hat, hlen₃.trans hk₇.length, hdone w₇ hk₇ fun note hnote hun => ?_, .inr ⟨_, w₆.log, hlog₇, hne, fun note hnote => ?_⟩⟩)
    · exact ⟨_, hlog₇ ▸ List.mem_cons_self, List.mem_filter.2 ⟨hnote, decide_eq_true hun⟩⟩
    · exact made_fresh hat (hmade note (List.mem_of_mem_filter hnote))

/-! ## The scan -/

/-- What a page saves is an advance. -/
theorem Processed.advance {n top : Nat} {page : Page} (h : Processed F pos n top page w) (hw : Sound F w)
    (hstate : pos.state = w.state) : Advance F w.log (advance pos (outcomeOf pos.watermark page)).2 := by
  have hstored : stored w.log = pos.state := hw.state.trans hstate.symm
  refine ⟨fun q hq => ?_, fun q hq => ?_, ?_, fun notes earlier hlog note hnote => ?_⟩
  · rcases h.pageAt.advance_covered hq with hold | hfresh
    · exact hw.legal.handled q (hstored ▸ hold)
    · exact h.handled q hfresh
  · rw [hstored] at hq
    exact h.pageAt.advance_keeps hq
  · rw [hstored]
    exact h.pageAt.advance_newer
  · rcases h.last with hquiet | ⟨notes', earlier', hlog', _, hfresh⟩
    · exact absurd hlog (hquiet notes earlier)
    · rw [hlog] at hlog'
      cases hlog'
      obtain ⟨q, hown, hq⟩ := hfresh note hnote
      obtain ⟨hash, hread⟩ := hown.readable
      exact ⟨q, hown, h.pageAt.advance_page hq hread⟩

/-- A write is skipped only if the page submitted nothing. -/
theorem Processed.quiet {n top : Nat} {page : Page} (h : Processed F pos n top page w)
    (hsame : (DepositRelayer.advance pos (outcomeOf pos.watermark page)).2 = pos.state) : Quiet w.log := by
  rcases h.last with hquiet | ⟨notes, earlier, hlog, hne, hfresh⟩
  · exact hquiet
  · obtain ⟨note, hnote⟩ := List.exists_mem_of_ne_nil _ hne
    obtain ⟨q, hown, hq⟩ := hfresh note hnote
    obtain ⟨hash, hread⟩ := hown.readable
    have hcov := h.pageAt.advance_page hq hread
    rw [hsame] at hcov
    exact absurd hcov (h.pageAt.fresh_not_covered hq)

/-- The next position is on track once the file holds what it saves. -/
theorem Processed.onTrack {n top : Nat} {page : Page} (h : Processed F pos n top page w) (hlen : w.length ≤ w'.length)
    (hquiet : Quiet w'.log) (hfile : w'.state = (DepositRelayer.advance pos (outcomeOf pos.watermark page)).2)
    {next : Position} (hnext : (DepositRelayer.advance pos (outcomeOf pos.watermark page)).1 = some next) :
    OnTrack F w' next := by
  cases hcursor : (outcomeOf pos.watermark page).next with
  | none => simp [DepositRelayer.advance, hcursor] at hnext
  | some c =>
    obtain ⟨hc, hmark⟩ := h.pageAt.goes_on hcursor
    simp only [DepositRelayer.advance, hcursor, Option.some.injEq] at hnext hfile
    subst hnext
    refine ⟨hfile.symm, fun c' hc' => ?_, fun hash _ => ⟨c, rfl⟩, hquiet⟩
    cases hc'
    have := h.pageAt.top_le
    have := h.length
    exact ⟨by omega, hmark⟩

theorem runs_finishPage {Q : Except Failure (Option Position) → World → Prop} (hw : Sound F w) (htrack : OnTrack F w pos)
    (hok : ∀ next w', Sound F w' → Quiet w'.log → (∀ pos', next = some pos' → OnTrack F w' pos') → Q (.ok next) w')
    (herr : ∀ e w', Sound F w' → Quiet w'.log → Q (.error e) w') : Runs F (finishPage C pos) Q w := by
  refine ensures_seq (runs_processPage hw htrack (fun n top page w₁ _ hk₁ hw₁ hdone => ?_) herr)
  have hstate : pos.state = w₁.state := htrack.state.trans hk₁.state.symm
  refine ensures_seq ?_
  unfold saveChange
  split
  case isTrue hne =>
    refine runs_saveState hw₁ (hdone.advance hw₁ hstate) (hdone.pageAt.advance_placed.mono hdone.length)
      (fun w₂ hlen hfile hlog hw₂ => ?_) herr
    have hquiet : Quiet w₂.log := hlog ▸ .same (by simp)
    exact ensures_pure hw₂ (hok _ _ hw₂ hquiet fun pos' hnext => hdone.onTrack hlen hquiet hfile hnext)
  case isFalse hsame =>
    rw [not_not] at hsame
    have hquiet := hdone.quiet hsame
    refine ensures_pure hw₁ (ensures_pure hw₁ (hok _ _ hw₁ hquiet fun pos' hnext => ?_))
    exact hdone.onTrack (Nat.le_refl _) hquiet (hstate.symm.trans hsame.symm) hnext

theorem runs_runPage {Q : Except Failure (Option Position) → World → Prop} (hw : Sound F w) (htrack : OnTrack F w pos)
    (hok : ∀ next w', Sound F w' → Quiet w'.log → (∀ pos', next = some pos' → OnTrack F w' pos') → Q (.ok next) w')
    (herr : ∀ e w', Sound F w' → Quiet w'.log → Q (.error e) w') : Runs F (runPage C pos) Q w := by
  refine ensures_seq (ensures_lift (runs_finishPage hw htrack (fun next w₁ hw₁ hq₁ hnext => ?_) fun e w₁ hw₁ hq₁ => ?_))
  · exact ensures_pure hw₁ (hok next w₁ hw₁ hq₁ hnext)
  · refine ensures_seq ?_
    unfold limitAfter
    split
    · refine ensures_seq (runs_plain rfl hw₁ fun _ w₂ h₂ _ hw₂ => runs_plain rfl hw₂ fun _ w₃ h₃ _ hw₃ => ?_)
      exact ensures_throw hw₃ (herr e w₃ hw₃ (by rw [h₃.log, h₂.log]; exact hq₁))
    · exact ensures_pure hw₁ (ensures_throw hw₁ (herr e w₁ hw₁ hq₁))

theorem OnTrack.same (h : OnTrack F w pos) (hsame : Same w w') : OnTrack F w' pos where
  state := h.state.trans hsame.kept.state.symm
  below c hc := ⟨(h.below c hc).1.trans hsame.length, (h.below c hc).2⟩
  resumed := h.resumed
  quiet := hsame.log ▸ h.quiet

theorem runs_scanFrom {pages : Nat} (hw : Sound F w) (htrack : OnTrack F w pos) :
    Runs F (scanFrom C pages pos) (fun _ w' => Quiet w'.log) w := by
  induction pages generalizing w pos with
  | zero => exact ensures_pure hw htrack.quiet
  | succ pages ih =>
    refine ensures_seq (runs_plain rfl hw fun stop w₁ h₁ _ hw₁ => ?_)
    have htrack₁ := htrack.same h₁
    cases stop with
    | true => exact ensures_pure hw₁ htrack₁.quiet
    | false =>
      refine ensures_seq (runs_runPage hw₁ htrack₁ (fun next w₂ hw₂ hq₂ hnext => ?_) fun _ _ _ hq₂ => hq₂)
      refine ensures_seq (runs_plain rfl hw₂ fun stop w₃ h₃ _ hw₃ => ?_)
      have hq₃ : Quiet w₃.log := h₃.log ▸ hq₂
      cases stop with
      | true => exact ensures_pure hw₃ hq₃
      | false =>
        cases next with
        | none => exact ensures_pure hw₃ hq₃
        | some pos' => exact ih hw₃ ((hnext pos' rfl).same h₃)

/-- A scan starts from what the file says. -/
theorem onTrack_fromState (hw : Sound F w) (hquiet : Quiet w.log) : OnTrack F w (.fromState w.state) := by
  have hplaced := hw.placed
  refine ⟨?_, fun c hc => ?_, fun hash hh => ?_, hquiet⟩
  · cases hscan : w.state.scan with
    | none =>
      rw [Position.state, Position.fromState, hscan]
      exact congrArg (State.mk w.state.watermark) hscan.symm
    | some r =>
      rw [Position.state, Position.fromState, hscan]
      exact congrArg (State.mk w.state.watermark) hscan.symm
  · obtain ⟨r, hr, rfl⟩ := Option.map_eq_some_iff.1 hc
    obtain ⟨p, hlt, _, hle⟩ := hplaced.scan r hr
    exact ⟨hle.trans hlt.le, fun hash p₀ hmark hp₀ => hplaced.apart hash p₀ r hmark hp₀ hr⟩
  · obtain ⟨r, hr, rfl⟩ := Option.map_eq_some_iff.1 hh
    exact ⟨r.resume, by simp [Position.fromState, hr]⟩

theorem runs_scan {pages : Nat} (hw : Sound F w) (hquiet : Quiet w.log) :
    Runs F (scan C pages) (fun _ w' => Quiet w'.log) w := by
  refine ensures_seq (runs_loadState hw (fun w₁ h₁ hw₁ => ?_) fun _ w₁ h₁ _ => ?_)
  · exact runs_scanFrom hw₁ (onTrack_fromState hw₁ (h₁.log ▸ hquiet))
  · show Quiet w₁.log
    rw [h₁.log]
    exact hquiet

theorem runs_runUntil {scans : List Nat} (hw : Sound F w) (hquiet : Quiet w.log) :
    Runs F (runUntil C scans) (fun _ _ => True) w := by
  induction scans generalizing w with
  | nil => exact ensures_pure hw trivial
  | cons pages rest ih =>
    refine ensures_seq (ensures_lift ((runs_scan hw hquiet).mono fun outcome w' hw' hq' => ?_))
    cases outcome with
    | error e => exact ih hw' hq'
    | ok outcome =>
      cases outcome with
      | complete => exact ih hw' hq'
      | stopped => exact ensures_pure hw' trivial

theorem runs_new {config : Config} {seed : RandomCoin} (hw : Sound F w) (hquiet : Quiet w.log) :
    Runs F (new config seed) (fun res w' => res = .ok () → Quiet w'.log) w := by
  refine ensures_seq (runs_attempt hw (fun _ _ => ?_) fun _ _ h => by cases h)
  refine ensures_seq (runs_loadState hw (fun w₁ h₁ hw₁ => ?_) fun _ _ _ _ h => by cases h)
  have hadv : Advance F w₁.log w₁.state := by
    rw [← hw₁.state]
    exact .same hw₁.legal.handled (h₁.log ▸ hquiet)
  refine ensures_seq (runs_saveState hw₁ hadv hw₁.placed (fun w₂ _ _ hlog hw₂ => ?_) fun _ _ _ _ h => by cases h)
  refine ensures_seq (runs_attempt hw₂ (fun _ _ => ?_) fun _ _ h => by cases h)
  refine runs_plain rfl hw₂ fun _ w₃ h₃ _ _ _ => ?_
  rw [h₃.log, hlog]
  exact .same (by simp)

theorem runs_serve {config : Config} {seed : RandomCoin} {scans : List Nat} (hw : Sound F w) :
    Runs F (serve C config seed scans) (fun _ _ => True) w := by
  refine ensures_seq (runs_call hw fun e w₁ h₁ _ _ hw₁ => ?_)
  have hsame : Same w₁ { w₁ with self := none } := ⟨Nat.le_refl _, rfl, rfl⟩
  have hsound := (hw₁.same hsame).record (a := .started) rfl trivial
  refine ⟨hsound, ensures_seq ((runs_new hsound (.same (by simp))).mono fun res w₂ hw₂ h₂ => ?_)⟩
  cases res with
  | error e => exact trivial
  | ok _ => exact runs_runUntil hw₂ (h₂ rfl)

/-! ## Runs -/

theorem begin_sound : Sound F .begin where
  legal := .nil
  state := rfl
  placed := ⟨fun _ h => (by cases h), fun _ h => (by cases h), fun _ _ _ h => (by cases h)⟩

/-- Every run, whatever its processes and wherever they end, is sound. -/
theorem runs_sound (F : Feed C) (lifetimes : List Lifetime) : Sound F (runAll F lifetimes) := by
  have hrun : ∀ (ls : List Lifetime) (w : World), Sound F w → Sound F (ls.foldl (Lifetime.run F) w) := by
    intro ls
    induction ls with
    | nil => exact fun w hw => hw
    | cons l ls ih => exact fun w hw => ih _ (Prog.Keeps.run l.env (runs_serve hw)).1
  exact hrun lifetimes .begin begin_sound

/-- The stored watermark and progress tell the truth about what was handled. -/
structure DepositsKept (F : Feed C) (w : World) : Prop where
  /-- Every entry at or older than the watermark was handled. -/
  watermark : ∀ hash, w.state.watermark = some hash → ∃ p, F.hashAt p = some hash ∧ ∀ q, q ≤ p → Handled F w.log q
  /-- Every entry from the head down to the one the cursor names was handled. -/
  progress : ∀ r, w.state.scan = some r → ∃ p, F.hashAt p = some r.head ∧ F.names r.resume ≤ p ∧
    ∀ q, F.names r.resume ≤ q → q ≤ p → Handled F w.log q
  /-- The watermark was never one of a newer entry before. -/
  forward : ∀ later earlier, w.log = later ++ earlier → Newer F (stored earlier) w.state

/-- **No deposit is lost.** -/
theorem deposits_kept (F : Feed C) (lifetimes : List Lifetime) : DepositsKept F (runAll F lifetimes) := by
  have hw := runs_sound F lifetimes
  have hhandled : ∀ q, Covered F (runAll F lifetimes).state q → Handled F (runAll F lifetimes).log q :=
    hw.state ▸ hw.legal.handled
  constructor
  · intro hash hmark
    obtain ⟨p, _, hp⟩ := hw.placed.watermark hash hmark
    exact ⟨p, hp, fun q hle => hhandled q (.below hmark hp hle)⟩
  · intro r hr
    obtain ⟨p, _, hp, hle⟩ := hw.placed.scan r hr
    exact ⟨p, hp, hle, fun q hlow hhigh => hhandled q (.walked hr hp hlow hhigh)⟩
  · intro later earlier hlog
    have hlegal := hw.legal
    rw [hlog] at hlegal
    rw [← hw.state, hlog]
    exact hlegal.onward.2

/-- No deposit is submitted again, except those of an interrupted page. -/
structure SubmittedOnce (F : Feed C) (w : World) : Prop where
  /-- If no submission is followed by a crash or a failed write, no entry's note is in two of them. -/
  once : (∀ later notes earlier, w.log = later ++ .submitted notes :: earlier → ¬ Interrupted later) →
    ∀ later notes' mid notes earlier q note note', w.log = later ++ .submitted notes' :: (mid ++ .submitted notes :: earlier) →
      NoteOf F q note → NoteOf F q note' → note ∈ notes → note' ∉ notes'
  /-- An entry with a note in two of them belongs to a page that was interrupted. -/
  again : ∀ later notes' mid notes earlier q note note', w.log = later ++ .submitted notes' :: (mid ++ .submitted notes :: earlier) →
    NoteOf F q note → NoteOf F q note' → note ∈ notes → note' ∈ notes' → Interrupted (later ++ .submitted notes' :: mid)

/-- **A deposit is submitted once**, unless the page it was on is interrupted before it is recorded. -/
theorem submitted_once (F : Feed C) (hN : UniqueNonces F) (lifetimes : List Lifetime) :
    SubmittedOnce F (runAll F lifetimes) := by
  have hlegal := (runs_sound F lifetimes).legal
  have hagain : ∀ later notes' mid notes earlier q note note',
      (runAll F lifetimes).log = later ++ .submitted notes' :: (mid ++ .submitted notes :: earlier) →
      NoteOf F q note → NoteOf F q note' → note ∈ notes → note' ∈ notes' → Interrupted (later ++ .submitted notes' :: mid) := by
    intro later notes' mid notes earlier q note note' hlog hq hq' hmem hmem'
    rw [hlog] at hlegal
    obtain ⟨mid', a, rfl, ha⟩ := hlegal.again hN hq hq' hmem hmem'
    exact ⟨later ++ .submitted notes' :: mid', a, by simp, ha⟩
  refine ⟨fun hnone later notes' mid notes earlier q note note' hlog hq hq' hmem hmem' => ?_, hagain⟩
  refine hnone (later ++ .submitted notes' :: mid) notes earlier (by simpa using hlog) ?_
  exact hagain later notes' mid notes earlier q note note' hlog hq hq' hmem hmem'

/-! A feed of two deposits, scanned one page each. -/

namespace Sample
open LightAttester (Json)

/-- The element at a position of the feed; there are two deposits. -/
def element : Nat → Json
  | 0 => .array [.string "pa", .string "ha", .string "sa"]
  | 1 => .array [.string "pb", .string "hb", .string "sb"]
  | _ => .null

/-- A body names a slice of the feed by its top and its length, a header is the token itself. -/
def crates : Crates where
  parseList body := match body with
    | [top, count] => some ((List.range count.toNat).map fun i => element (top.toNat - 1 - i))
    | _ => none
  jsonText _ := ""
  invalidType _ expected := expected
  hexDecode text := match text.toList with
    | ['p', c] => .ok [c.toNat.toUInt8]
    | ['h', c] => .ok (List.replicate 32 c.toNat.toUInt8)
    | ['s', c] => .ok (List.replicate 65 c.toNat.toUInt8)
    | _ => .error "not hex"
  parseWithRel header := some [("next", [("pageAfter", header)])]
  statusText _ := ""
  depositIntent payload := some ⟨payload⟩
  drawSerial coin := (0, coin)
  buildMintNote parts := some ⟨⟨.ofNat 256 parts.depositIntent.encoded.head!.toNat⟩, []⟩

theorem hash_element : ∀ p h, hashOf crates (element p) = some h → p = h.bytes.head!.toNat - 97
  | 0, h, hh => by cases hh; decide
  | 1, h, hh => by cases hh; decide
  | p + 2, h, hh => by cases hh

def feed : Feed crates where
  entry := element
  names cursor := cursor.token.length
  unique p q h hp hq := (hash_element p h hp).trans (hash_element q h hq).symm

theorem payload_element : ∀ p a, Attestation.deserialize crates (element p) = .ok a → p = a.payload.head!.toNat - 97
  | 0, a, ha => by cases ha; decide
  | 1, a, ha => by cases ha; decide
  | p + 2, a, ha => by cases ha

theorem nonce_element {p : Nat} {note : XUsdcMintNote} (h : NoteOf feed p note) : p = note.nonce.word.toNat - 97 := by
  obtain ⟨a, minter, ha, hnote⟩ := h
  cases hnote
  have hbyte := a.payload.head!.toNat_lt
  show p = (BitVec.ofNat 256 a.payload.head!.toNat).toNat - 97
  rw [BitVec.toNat_ofNat, Nat.mod_eq_of_lt (by omega), ← payload_element p a ha]

theorem feed_nonces : UniqueNonces feed := by
  intro p q note note' hp hq hnonce
  rw [nonce_element hp, nonce_element hq, hnonce]

def config : Config where
  pageSize := ⟨1, by decide⟩
  requestTimeout := 1
  remoteDomain := 7
  proverUrl := none
  proverTimeout := 1
  faucetAccountId := ⟨1⟩
  relayerAccountId := ⟨2⟩
  attesterPublicKey := [2]

def reply (top : UInt8) (link : Option String) : HttpReply :=
  .response { status := .ok, link := link.map some, chunks := [[top, 1]], complete := true }

/-- The head page when both deposits are there, then the page after the newer one. -/
def scanned : Lifetime where
  config := config
  seed := ⟨[]⟩
  scans := [3]
  env := List.replicate 7 {} ++ { arrivals := 2, reply := reply 2 (some "x") } :: List.replicate 13 {} ++
    { reply := reply 1 none } :: List.replicate 11 {}

def submissions (w : World) : List Nat :=
  w.log.filterMap fun a => match a with
    | .submitted notes => some notes.length
    | _ => none

end Sample

/-- Both deposits are submitted, on their own pages, and the file ends at the newer one. -/
theorem submitted_once_two_pages : UniqueNonces Sample.feed ∧
    Sample.submissions (runAll Sample.feed [Sample.scanned]) = [1, 1] ∧
    (runAll Sample.feed [Sample.scanned]).state.scan = none ∧
    SubmittedOnce Sample.feed (runAll Sample.feed [Sample.scanned]) :=
  ⟨Sample.feed_nonces, by decide +kernel, by decide +kernel, submitted_once _ Sample.feed_nonces _⟩

end DepositRelayer
