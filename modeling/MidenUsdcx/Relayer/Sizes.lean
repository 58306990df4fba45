import MidenUsdcx.Lib.Trace
import MidenUsdcx.Relayer.Scan
/-!
# How large a page is (`config.rs:84`, `circle.rs:296`, `lib.rs:270-291`)

One page is one transaction, so the size of the pages a process asks for bounds what it has to prove at a time.

| here | there |
| --- | --- |
| `Call.expires` | the failures `run_page` looks at (`lib.rs:281`) |
| `sizeAfter` | the page size of the Circle client, after the calls so far |
| `Asks` | what a call may ask for, given the calls before it |

`PagesSized` says so of all the calls of a process, wherever it is cut off.
-/
namespace DepositRelayer
open Checked Interact

/-! ## What a call may ask for -/

/-- The calls so far, newest first. -/
abbrev Past := List (Event calls World)

def failedExpired {α : Type} : Except Failure α → Bool
  | .error failure => isExpiredSubmission failure.error
  | .ok _ => false

/-- The answer fails the page because the node found a transaction expired. -/
def Call.expires : (o : Call) → o.Answer → Bool
  | .retainUnminted _, answer => failedExpired (answer : Except Failure (List DepositNonce))
  | .submitNotes _, answer => failedExpired (answer : Except Failure Unit)
  | .setState _, answer => failedExpired (answer : Except Failure Unit)
  | _, _ => false

/-- The size a process asks for: its own until a transaction expired, the local cap at most from then on. -/
def sizeAfter (config : Config) (past : Past) : PageSize :=
  if past.any fun x => Call.expires x.op x.answer then config.effectivePageSize.min .localProvingMax
  else config.effectivePageSize

/-- What may be asked for after these calls. -/
def Asks (config : Config) (past : Past) : Call → Prop
  | .fetch _ size => size = sizeAfter config past
  | .submitNotes notes => notes ≠ [] ∧ notes.length ≤ (sizeAfter config past).value
  | _ => True

/-- Every call was one that may follow those before it. -/
def Sized (config : Config) : Past → Prop
  | [] => True
  | x :: past => Asks config past x.op ∧ Sized config past

theorem Sized.split {config : Config} {later past : Past} (h : Sized config (later ++ past)) : Sized config past := by
  induction later with
  | nil => exact h
  | cons x later ih => exact ih h.2

theorem PageSize.min_min (a b : PageSize) : (a.min b).min b = a.min b := by
  by_cases hab : a.value ≤ b.value <;> simp [PageSize.min, hab]

theorem PageSize.min_le (a b : PageSize) : (a.min b).value ≤ a.value ∧ (a.min b).value ≤ b.value := by
  unfold PageSize.min
  split <;> omega

/-- What the process can prove in one transaction (`config.rs:85-89`). -/
def provingCap (config : Config) : PageSize :=
  if config.proverUrl.isSome then .remoteProvingMax else .localProvingMax

theorem sizeAfter_le (config : Config) (past : Past) : (sizeAfter config past).value ≤ (provingCap config).value := by
  have hcap : config.effectivePageSize.value ≤ (provingCap config).value := (PageSize.min_le _ _).2
  unfold sizeAfter
  split
  · have hle := (PageSize.min_le config.effectivePageSize .localProvingMax).1
    omega
  · exact hcap

/-- Whatever was asked before, an expired transaction leaves the local cap. -/
theorem sizeAfter_expired (config : Config) {past : Past} {x : Event calls World}
    (h : Call.expires x.op x.answer = true) :
    sizeAfter config (x :: past) = (sizeAfter config past).min .localProvingMax := by
  have hany : ((x :: past).any fun y => Call.expires y.op y.answer) = true := by simp [h]
  by_cases hpast : (past.any fun y => Call.expires y.op y.answer) = true
  · simp only [sizeAfter, hany, hpast, if_true, PageSize.min_min]
  · simp only [sizeAfter, hany, if_true, if_neg hpast]

theorem sizeAfter_plain (config : Config) {past : Past} {x : Event calls World}
    (h : Call.expires x.op x.answer = false) : sizeAfter config (x :: past) = sizeAfter config past := by
  simp [sizeAfter, h]

/-! ## The size a process works with -/

/-- The world, and the calls that led to it. -/
abbrev Traced := World × Past

section
variable {C : Crates} {F : Feed C} {config : Config} {size : PageSize} {s : Traced} {ρ α β : Type}

/-- The process runs with the size its calls have left it. -/
structure Working (config : Config) (size : PageSize) (s : Traced) : Prop where
  sized : Sized config s.2
  asked : sizeAfter config s.2 = size
  running : ∃ relayer, s.1.self = some relayer ∧ relayer.pageSize = size

/-- A transaction of the page expired, and the size is still the old one. -/
structure Expired (config : Config) (size : PageSize) (s : Traced) : Prop where
  sized : Sized config s.2
  asked : sizeAfter config s.2 = size.min .localProvingMax
  running : ∃ relayer, s.1.self = some relayer ∧ relayer.pageSize = size

/-- Where a part of a page leaves the process. -/
def Paged (config : Config) (size : PageSize) (r : Except Failure α) (s : Traced) : Prop :=
  if failedExpired r = true then Expired config size s else Working config size s

abbrev Sizes (F : Feed C) (config : Config) (t : Task ρ α) (Q : Except ρ α → Traced → Prop) (s : Traced) : Prop :=
  Ensures (handler F).traced (fun s => Sized config s.2) t Q s

theorem Paged.sized {r : Except Failure α} (h : Paged config size r s) : Sized config s.2 := by
  unfold Paged at h
  split at h
  · exact h.sized
  · exact h.sized

theorem Paged.working {r : Except Failure α} (h : Paged config size r s) (hr : failedExpired r = false) :
    Working config size s := by
  unfold Paged at h
  rwa [if_neg (by simp [hr])] at h

theorem Paged.expired {r : Except Failure α} (h : Paged config size r s) (hr : failedExpired r = true) :
    Expired config size s := by
  unfold Paged at h
  rwa [if_pos hr] at h

theorem Working.paged {r : Except Failure α} (h : Working config size s) (hr : failedExpired r = false) :
    Paged config size r s := by
  unfold Paged
  rwa [if_neg (by simp [hr])]

theorem Expired.paged {r : Except Failure α} (h : Expired config size s) (hr : failedExpired r = true) :
    Paged config size r s := by
  unfold Paged
  rwa [if_pos hr]

/-- The calls that leave the relayer in place. -/
def Call.keeps : Call → Bool
  | .start | .update _ => false
  | _ => true

theorem answer_keeps {o : Call} (ho : o.keeps = true) (e : Env) (w : World) :
    ((handler F).step o e w).2.self = w.self := by
  show (answer F o e (w.arrive e.arrivals)).2.self = w.self
  cases o with
  | start | update => cases ho
  | self | isCancelled | skip | now | state => rfl
  | fetch cursor size =>
    simp only [answer]
    split <;> rfl
  | retainUnminted | submitNotes | setState =>
    simp only [answer]
    cases e.failure <;> rfl

/-- A call is made, and what is known after it. -/
theorem sizes_call {o : Call} {Q : Except ρ o.Answer → Traced → Prop} (h : Sized config s.2) (hasks : Asks config s.2 o)
    (hQ : ∀ e, Q (.ok ((handler F).traced.step o e s).1) ((handler F).traced.step o e s).2) :
    Sizes F config (call o) Q s := ensures_call h fun e => ⟨⟨hasks, h⟩, hQ e⟩

theorem Working.step {o : Call} (h : Working config size s) (ho : o.keeps = true) (hasks : Asks config s.2 o) (e : Env)
    (hplain : o.expires ((handler F).step o e s.1).1 = false) :
    Working config size ((handler F).traced.step o e s).2 where
  sized := ⟨hasks, h.sized⟩
  asked := (sizeAfter_plain config hplain).trans h.asked
  running := by
    obtain ⟨relayer, hself, hsize⟩ := h.running
    exact ⟨relayer, (answer_keeps ho e s.1).trans hself, hsize⟩

theorem Working.expire {o : Call} (h : Working config size s) (ho : o.keeps = true) (hasks : Asks config s.2 o)
    (e : Env) (hexpired : o.expires ((handler F).step o e s.1).1 = true) :
    Expired config size ((handler F).traced.step o e s).2 where
  sized := ⟨hasks, h.sized⟩
  asked := by rw [← h.asked]; exact sizeAfter_expired config hexpired
  running := by
    obtain ⟨relayer, hself, hsize⟩ := h.running
    exact ⟨relayer, (answer_keeps ho e s.1).trans hself, hsize⟩

/-- A call that cannot expire anything. -/
theorem sizes_plain {o : Call} {Q : Except ρ o.Answer → Traced → Prop} (h : Working config size s) (ho : o.keeps = true)
    (hasks : Asks config s.2 o) (hplain : ∀ a, o.expires a = false)
    (hQ : ∀ a s', Working config size s' → Q (.ok a) s') : Sizes F config (call o) Q s :=
  sizes_call h.sized hasks fun e => hQ _ _ (h.step ho hasks e (hplain _))

theorem sizes_of {r : Except Failure α} (h : Paged config size r s) :
    Sizes F config (attempt r) (Paged config size) s := by
  cases r with
  | ok a => exact ensures_pure h.sized h
  | error failure => exact ensures_throw h.sized h

/-- `?` on an answer that tells whether a transaction expired. -/
theorem sizes_attempt {o : Call} {r : o.Answer → Except Failure α} (h : Working config size s) (ho : o.keeps = true)
    (hasks : Asks config s.2 o) (hr : ∀ a, o.expires a = failedExpired (r a)) :
    Sizes F config (do let a ← call o; attempt (r a) : Task Failure α) (Paged config size) s := by
  refine ensures_seq (sizes_call h.sized hasks fun e => ?_)
  have hexpires := hr ((handler F).step o e s.1).1
  have hpaged : Paged config size (r ((handler F).step o e s.1).1) ((handler F).traced.step o e s).2 := by
    by_cases hexpired : o.expires ((handler F).step o e s.1).1 = true
    · exact (h.expire ho hasks e hexpired).paged (hexpires.symm.trans hexpired)
    · have hplain := Bool.eq_false_iff.2 hexpired
      exact (h.step ho hasks e hplain).paged (hexpires.symm.trans hplain)
  exact sizes_of hpaged

/-- One part of a page after another. -/
theorem sizes_seq {t : Task Failure α} {f : α → Task Failure β} (h : Sizes F config t (Paged config size) s)
    (hf : ∀ a s', Working config size s' → Sizes F config (f a) (Paged config size) s') :
    Sizes F config (t >>= f) (Paged config size) s :=
  h.seq (fun a s' _ h => hf a s' (h.working rfl)) fun _ _ _ h => h

/-- The relayer reads itself. -/
theorem sizes_self {Q : Except ρ Relayer → Traced → Prop} (h : Working config size s)
    (hQ : ∀ relayer s', Working config size s' → relayer.pageSize = size → Q (.ok relayer) s') :
    Sizes F config (call .self) Q s := by
  refine sizes_call h.sized trivial fun e => ?_
  obtain ⟨relayer, hself, hsize⟩ := h.running
  have hanswer : ((handler F).traced.step .self e s).1 = relayer := by
    show s.1.self.getD .absent = relayer
    rw [hself, Option.getD_some]
  rw [hanswer]
  exact hQ relayer _ (h.step (o := .self) rfl trivial e rfl) hsize

/-- The relayer changes in something else than the size. -/
theorem sizes_update {next : Relayer} {Q : Except ρ Unit → Traced → Prop} (h : Working config size s)
    (hnext : next.pageSize = size) (hQ : ∀ s', Working config size s' → Q (.ok ()) s') :
    Sizes F config (call (.update next)) Q s :=
  sizes_call h.sized trivial fun _ =>
    hQ _ { sized := ⟨trivial, h.sized⟩
           asked := (sizeAfter_plain config rfl).trans h.asked
           running := ⟨next, rfl, hnext⟩ }

/-! ## A page -/

abbrev Plain (failure : Failure) : Prop := isExpiredSubmission failure.error = false

theorem readBody_plain (complete : Bool) (body : LightAttester.Bytes) (chunks : List LightAttester.Bytes) :
    Refuses Plain (readBody complete body chunks) := by
  induction chunks generalizing body with
  | nil =>
    rintro failure hfailure
    cases complete <;> cases hfailure
    rfl
  | cons chunk chunks ih =>
    by_cases hlarge : (body ++ chunk).length > Page.maxResponseBytes
    · intro failure hfailure
      simp only [readBody, if_pos hlarge, Except.error.injEq] at hfailure
      subst hfailure
      rfl
    · simp only [readBody, if_neg hlarge]
      exact ih _

/-- What is done with a response of the right status, once its link is read. -/
def readRest (C : Crates) (size : PageSize) (r : Response) (link : Option String) : Except Failure Page := do
  let body ← readBody r.complete [] r.chunks
  let page ← (Page.decode C body link).mapError (.transient "invalid_response")
  if page.entries.length > size.value then
    throw (.transient "invalid_response" s!"circle returned more than the requested {size.value} deposits")
  else pure page

theorem readPage_cases (size : PageSize) (reply : HttpReply) :
    (∃ failure, Plain failure ∧ readPage C size reply = .error failure) ∨
      ∃ r link, readPage C size reply = readRest C size r link := by
  cases reply with
  | failed => exact .inl ⟨_, rfl, rfl⟩
  | response r =>
    by_cases hstatus : 200 ≤ r.status.code ∧ r.status.code < 300
    · cases hlink : r.link with
      | none => exact .inr ⟨r, none, by simp only [readPage, if_pos hstatus, hlink]; rfl⟩
      | some header =>
        cases header with
        | none => exact .inl ⟨.transient "invalid_response" "decoding the circle Link header", rfl, by
            simp only [readPage, if_pos hstatus, hlink]; rfl⟩
        | some text => exact .inr ⟨r, some text, by simp only [readPage, if_pos hstatus, hlink]; rfl⟩
    · refine .inl ⟨_, ?_, by simp only [readPage, if_neg hstatus]; rfl⟩
      rfl

/-- What Circle answers is never taken for an expired transaction. -/
theorem readPage_plain (size : PageSize) (reply : HttpReply) : Refuses Plain (readPage C size reply) := by
  rcases readPage_cases (C := C) size reply with ⟨failure, hplain, hread⟩ | ⟨r, link, hread⟩
  · rw [hread]
    rintro _ ⟨⟩
    exact hplain
  · rw [hread]
    refine refuses_bind (readBody_plain _ _ _) fun body => refuses_bind ?_ fun page => ?_
    · exact refuses_mapError (refuses_any _) fun _ _ => rfl
    · split
      · rintro _ ⟨⟩
        rfl
      · exact refuses_pure

theorem readPage_length {reply : HttpReply} {page : Page} (h : readPage C size reply = .ok page) :
    page.entries.length ≤ size.value := by
  rcases readPage_cases (C := C) size reply with ⟨failure, -, hread⟩ | ⟨r, link, hread⟩
  · cases hread.symm.trans h
  · rw [hread, readRest] at h
    simp only [bind_ok] at h
    obtain ⟨body, -, decoded, -, hpage⟩ := h
    split at hpage
    · cases hpage
    · cases hpage
      omega

/-- A page that is asked for holds no more than was asked. -/
theorem sizes_fetchPage {cursor : Option CircleCursor} (h : Working config size s) :
    Sizes F config (fetchPage C cursor size)
      (fun r s' => Paged config size r s' ∧ ∀ page, r = .ok page → page.entries.length ≤ size.value) s := by
  refine ensures_seq (sizes_plain h rfl h.asked.symm (fun _ => rfl) fun reply s₁ h₁ => ?_)
  show Sizes F config (attempt (readPage C size reply)) _ _
  cases hread : readPage C size reply with
  | ok page =>
    have hlength : ∀ page', Except.ok page = (.ok page' : Except Failure Page) → page'.entries.length ≤ size.value := by
      rintro _ ⟨⟩
      exact readPage_length hread
    exact ensures_pure h₁.sized (And.intro (h₁.paged rfl) hlength)
  | error failure =>
    exact ensures_throw h₁.sized (And.intro (h₁.paged (readPage_plain size reply failure hread)) nofun)

theorem sizes_buildNotes {entries : List Entry} (h : Working config size s) :
    Sizes F config (buildNotes C entries)
      (fun r s' => ∃ built, r = .ok built ∧ built.notes.length ≤ entries.length ∧ Working config size s') s := by
  induction entries generalizing s with
  | nil => exact ensures_pure h.sized ⟨_, rfl, Nat.le_refl _, h⟩
  | cons entry rest ih =>
    refine ensures_seq (sizes_self h fun relayer s₁ h₁ hsize => ensures_seq (sizes_update h₁ hsize fun s₂ h₂ => ?_))
    cases (relayer.minter.buildEntry C entry).1 with
    | ok note =>
      refine (ih h₂).seq (fun built s₃ hsized hbuilt => ?_) fun e s₃ _ hbuilt => ?_
      · obtain ⟨_, heq, hlength, h₃⟩ := hbuilt
        cases heq
        exact ensures_pure hsized ⟨_, rfl, Nat.succ_le_succ hlength, h₃⟩
      · obtain ⟨_, heq, -⟩ := hbuilt
        cases heq
    | error reason =>
      refine ensures_seq (sizes_plain h₂ rfl trivial (fun _ => rfl) fun _ s₃ h₃ => ?_)
      refine (ih h₃).seq (fun built s₄ hsized hbuilt => ?_) fun e s₄ _ hbuilt => ?_
      · obtain ⟨_, heq, hlength, h₄⟩ := hbuilt
        cases heq
        exact ensures_pure hsized ⟨_, rfl, Nat.le_succ_of_le hlength, h₄⟩
      · obtain ⟨_, heq, -⟩ := hbuilt
        cases heq

theorem sizes_submitPage {fresh : List Entry} {built : Nat} {notes : List XUsdcMintNote} (h : Working config size s)
    (hnotes : notes.length ≤ size.value) : Sizes F config (submitPage fresh built notes) (Paged config size) s := by
  have hdone : Sizes F config (pure () : Task Failure Unit) (Paged config size) s := ensures_pure h.sized (h.paged rfl)
  unfold submitPage
  split
  · exact hdone
  split
  · exact hdone
  split
  · rename_i hsome
    have hsubmit : Sizes F config (submitNotes notes) (Paged config size) s :=
      sizes_attempt h rfl ⟨hsome, by rw [h.asked]; exact hnotes⟩ fun _ => rfl
    refine sizes_seq hsubmit fun _ s₁ h₁ => ?_
    refine ensures_seq (sizes_plain h₁ rfl trivial (fun _ => rfl) fun now s₂ h₂ => ?_)
    refine ensures_seq (sizes_self h₂ fun relayer s₃ h₃ hsize => sizes_update h₃ hsize fun s₄ h₄ => h₄.paged rfl)
  · exact hdone

theorem sizes_processPage {resume : Option CircleCursor} {watermark : Option MessageHash} (h : Working config size s) :
    Sizes F config (processPage C resume watermark) (Paged config size) s := by
  refine ensures_seq (sizes_self h fun relayer s₁ h₁ hsize => ?_)
  subst hsize
  refine (sizes_fetchPage h₁).seq (fun page s₂ _ hpage => ?_) fun e s₂ _ hpage => hpage.1
  obtain ⟨hpaged, hlength⟩ := hpage
  refine (sizes_buildNotes (hpaged.working rfl)).seq (fun built s₃ _ hbuilt => ?_) fun e s₃ _ hbuilt => ?_
  · obtain ⟨_, heq, hmade, h₃⟩ := hbuilt
    cases heq
    refine ensures_seq (sizes_self h₃ fun self s₄ h₄ hself => ?_)
    refine sizes_seq (sizes_attempt h₄ rfl trivial fun _ => rfl) fun unminted s₅ h₅ => ?_
    refine ensures_seq (sizes_update h₅ hself fun s₆ h₆ => ?_)
    refine sizes_seq (sizes_submitPage h₆ ?_) fun _ s₇ h₇ => ensures_pure h₇.sized (h₇.paged rfl)
    have hfresh : (fresh watermark page).length ≤ page.entries.length := List.length_take_le' _ _
    have hkept := List.length_filter_le (fun note => decide (note.nonce ∈ unminted)) built.notes
    have := hlength page rfl
    omega
  · obtain ⟨_, heq, -⟩ := hbuilt
    cases heq

theorem sizes_finishPage {pos : Position} (h : Working config size s) :
    Sizes F config (finishPage C pos) (Paged config size) s := by
  refine sizes_seq (sizes_processPage h) fun outcome s₁ h₁ => ?_
  refine sizes_seq ?_ fun _ s₂ h₂ => ensures_pure h₂.sized (h₂.paged rfl)
  unfold saveChange
  split
  · exact sizes_attempt h₁ rfl trivial fun _ => rfl
  · exact ensures_pure h₁.sized (h₁.paged rfl)

/-! ## The process -/

/-- A process is between two pages. -/
def Between (config : Config) (s : Traced) : Prop := ∃ size, Working config size s

theorem Between.sized (h : Between config s) : Sized config s.2 := by
  obtain ⟨size, hworking⟩ := h
  exact hworking.sized

/-- A page that expired makes the later ones smaller. -/
theorem sizes_limitAfter {failure : Failure}
    (h : Paged (α := Option Position) config size (.error failure) s) :
    Sizes F config (limitAfter failure) (fun _ s' => Between config s') s := by
  unfold limitAfter
  split
  · rename_i hexpired
    obtain ⟨hsized, hasked, relayer, hself, hsize⟩ := h.expired hexpired
    refine ensures_seq (sizes_call hsized trivial fun e => ?_)
    have hanswer : ((handler F).traced.step .self e s).1 = relayer := by
      show s.1.self.getD .absent = relayer
      rw [hself, Option.getD_some]
    rw [hanswer]
    refine sizes_call ⟨trivial, hsized⟩ trivial fun e' =>
      ⟨size.min .localProvingMax, ⟨trivial, trivial, hsized⟩, ?_, ?_⟩
    · exact (sizeAfter_plain config rfl).trans ((sizeAfter_plain config rfl).trans hasked)
    · exact ⟨relayer.limitToLocalProving, rfl, congrArg (·.min .localProvingMax) hsize⟩
  · rename_i hplain
    have hworking := h.working (Bool.eq_false_iff.2 hplain)
    exact ensures_pure hworking.sized ⟨size, hworking⟩

theorem sizes_runPage {pos : Position} (h : Between config s) :
    Sizes F config (runPage C pos) (fun _ s' => Between config s') s := by
  obtain ⟨size, hworking⟩ := h
  refine ensures_seq (ensures_lift ((sizes_finishPage hworking).mono fun r s₁ _ hpaged => ?_))
  cases r with
  | ok next => exact ensures_pure hpaged.sized ⟨size, hpaged.working rfl⟩
  | error failure =>
    exact (sizes_limitAfter hpaged).seq (fun _ s₂ _ h₂ => ensures_throw h₂.sized h₂) fun _ _ _ h₂ => h₂

/-- A call between the pages. -/
theorem between_plain {o : Call} {Q : Except ρ o.Answer → Traced → Prop} (h : Between config s) (ho : o.keeps = true)
    (hasks : Asks config s.2 o) (hplain : ∀ a, o.expires a = false) (hQ : ∀ a s', Between config s' → Q (.ok a) s') :
    Sizes F config (call o) Q s := by
  obtain ⟨size, hworking⟩ := h
  exact sizes_plain hworking ho hasks hplain fun a s' h' => hQ a s' ⟨size, h'⟩

theorem sizes_scanFrom {pages : Nat} {pos : Position} (h : Between config s) :
    Sizes F config (scanFrom C pages pos) (fun _ s' => Between config s') s := by
  induction pages generalizing s pos with
  | zero => exact ensures_pure h.sized h
  | succ pages ih =>
    refine ensures_seq (between_plain h rfl trivial (fun _ => rfl) fun stop s₁ h₁ => ?_)
    change Bool at stop
    cases stop with
    | true => exact ensures_pure h₁.sized h₁
    | false =>
      refine (sizes_runPage h₁).seq (fun next s₂ _ h₂ => ?_) fun _ _ _ h₂ => h₂
      refine ensures_seq (between_plain h₂ rfl trivial (fun _ => rfl) fun stop s₃ h₃ => ?_)
      change Bool at stop
      cases stop with
      | true => exact ensures_pure h₃.sized h₃
      | false =>
        cases next with
        | none => exact ensures_pure h₃.sized h₃
        | some pos => exact ih h₃

/-- `?` on an answer outside the pages. -/
theorem between_attempt {o : Call} {r : o.Answer → Except Failure α} (h : Between config s) (ho : o.keeps = true)
    (hasks : Asks config s.2 o) (hplain : ∀ a, o.expires a = false) :
    Sizes F config (do let a ← call o; attempt (r a) : Task Failure α) (fun _ s' => Between config s') s := by
  refine ensures_seq (between_plain h ho hasks hplain fun a s₁ h₁ => ?_)
  show Sizes F config (attempt (r a)) _ _
  cases r a with
  | ok b => exact ensures_pure h₁.sized h₁
  | error failure => exact ensures_throw h₁.sized h₁

theorem sizes_runUntil {scans : List Nat} (h : Between config s) :
    Sizes F config (runUntil C scans) (fun _ s' => Between config s') s := by
  induction scans generalizing s with
  | nil => exact ensures_pure h.sized h
  | cons pages rest ih =>
    have hscan : Sizes F config (scan C pages) (fun _ s' => Between config s') s :=
      (between_attempt (o := .state) h rfl trivial fun _ => rfl).seq (fun _ _ _ h₁ => sizes_scanFrom h₁)
        fun _ _ _ h₁ => h₁
    refine ensures_seq (ensures_lift (hscan.mono fun outcome s₁ _ h₁ => ?_))
    cases outcome with
    | error failure => exact ih h₁
    | ok outcome =>
      cases outcome with
      | complete => exact ih h₁
      | stopped => exact ensures_pure h₁.sized h₁

/-- Nothing has expired before the relayer runs. -/
structure Starting (config : Config) (s : Traced) : Prop where
  sized : Sized config s.2
  asked : sizeAfter config s.2 = config.effectivePageSize

theorem Starting.step {o : Call} (h : Starting config s) (hasks : Asks config s.2 o) (e : Env)
    (hplain : o.expires ((handler F).step o e s.1).1 = false) :
    Starting config ((handler F).traced.step o e s).2 where
  sized := ⟨hasks, h.sized⟩
  asked := (sizeAfter_plain config hplain).trans h.asked

theorem sizes_require {check : Except String Unit} {Q : Except Failure Unit → Traced → Prop} (h : Starting config s)
    (hok : Q (.ok ()) s) (herr : ∀ failure, Q (.error failure) s) : Sizes F config (require check) Q s := by
  cases check with
  | ok _ => exact ensures_pure h.sized hok
  | error text => exact ensures_throw h.sized (herr _)

theorem starting_attempt {o : Call} {r : o.Answer → Except Failure α} (h : Starting config s)
    (hasks : Asks config s.2 o) (hr : ∀ a b, r a = .ok b → o.expires a = false) :
    Sizes F config (do let a ← call o; attempt (r a) : Task Failure α)
      (fun result s' => ∀ b, result = .ok b → Starting config s') s := by
  refine ensures_seq (sizes_call h.sized hasks fun e => ?_)
  have hsized : Sized config ((handler F).traced.step o e s).2.2 := ⟨hasks, h.sized⟩
  show Sizes F config (attempt (r ((handler F).step o e s.1).1)) _ _
  cases hanswer : r ((handler F).step o e s.1).1 with
  | error failure => exact ensures_throw hsized nofun
  | ok b => exact ensures_pure (a := b) hsized fun _ _ => h.step hasks e (hr _ b hanswer)

theorem sizes_new {seed : RandomCoin} (h : Starting config s) :
    Sizes F config (new config seed) (fun r s' => r = .ok () → Between config s') s := by
  have hload : Sizes F config loadState (fun r s' => ∀ b, r = .ok b → Starting config s') s :=
    starting_attempt (o := .state) h trivial fun _ _ _ => rfl
  refine ensures_seq (sizes_require h (hload.seq (fun state s₁ _ h₁ => ?_) fun _ _ _ _ => nofun) fun _ => nofun)
  have hsave : Sizes F config (saveState state) (fun r s' => ∀ b, r = .ok b → Starting config s') s₁ := by
    refine starting_attempt (o := .setState state) (h₁ state rfl) trivial fun a b hanswer => ?_
    show failedExpired _ = false
    rw [hanswer]
    rfl
  refine hsave.seq (fun _ s₂ _ h₂ => ?_) fun _ _ _ _ => nofun
  have hstarting := h₂ () rfl
  refine ensures_seq (sizes_require hstarting (sizes_call hstarting.sized trivial fun e _ => ?_) fun _ => nofun)
  refine ⟨config.effectivePageSize, ⟨trivial, hstarting.sized⟩, ?_, _, rfl, rfl⟩
  exact (sizeAfter_plain config rfl).trans hstarting.asked

theorem sizes_serve {seed : RandomCoin} {scans : List Nat} (w : World) :
    Sizes F config (serve C config seed scans) (fun _ _ => True) (w, []) := by
  have hstart : Starting config (w, []) := ⟨trivial, rfl⟩
  refine ensures_seq (sizes_call hstart.sized trivial fun e => ?_)
  refine (sizes_new (hstart.step (o := .start) trivial e rfl)).seq (fun _ s₁ _ h₁ => ?_) fun _ _ _ _ => trivial
  exact (sizes_runUntil (h₁ rfl)).mono fun _ _ _ _ => trivial

/-- Every call of a process fits those before it: a page is asked for in the size that is left, and a transaction has
something to mint and no more notes than that. -/
structure PagesSized (config : Config) (past : Past) : Prop where
  fetched : ∀ later cursor size answer w earlier, past = later ++ ⟨.fetch cursor size, answer, w⟩ :: earlier →
    size = sizeAfter config earlier
  submitted : ∀ later notes answer w earlier, past = later ++ ⟨.submitNotes notes, answer, w⟩ :: earlier →
    notes ≠ [] ∧ notes.length ≤ (sizeAfter config earlier).value ∧ notes.length ≤ (provingCap config).value

/-- **No transaction is larger than the process can prove**, and after one expired none is larger than it can prove
without help, until the process is started again. -/
theorem pages_sized (F : Feed C) (config : Config) (seed : RandomCoin) (scans : List Nat) (env : List Env) (w : World) :
    PagesSized config (Prog.trace (handler F) (serve C config seed scans).run env w) := by
  have hsized : Sized config (Prog.trace (handler F) (serve C config seed scans).run env w) :=
    (Prog.Keeps.run env (sizes_serve w)).1
  constructor
  · rintro later cursor size answer w' earlier hpast
    rw [hpast] at hsized
    exact hsized.split.1
  · rintro later notes answer w' earlier hpast
    rw [hpast] at hsized
    obtain ⟨hsome, hle⟩ := hsized.split.1
    exact ⟨hsome, hle, Nat.le_trans hle (sizeAfter_le config earlier)⟩

end

end DepositRelayer
