import MidenUsdcx.Relayer.Coverage
/-!
# One page of a scan (`lib.rs:297-450`)

`PageAt` is what the scan knows when a page was served for its position: the page is the feed's, the
watermark is below its top, and an unfinished scan's head is above. `Fresh` are the positions the page
adds. From these, what `advance` saves covers exactly what was covered before and what is fresh
(`advance_covered`, `advance_keeps`, `advance_page`), and the watermark only moves up (`advance_newer`).
-/
namespace DepositRelayer
open Checked

variable {C : Crates} {F : Feed C}

/-! ## Entries and their places -/

@[simp] theorem decode_messageHash (i : Nat) (value : LightAttester.Json) :
    (Entry.decode C i value).messageHash = hashOf C value := by
  unfold hashOf Entry.decode
  cases Attestation.deserialize C value <;> rfl

theorem decode_attestation {i : Nat} {value : LightAttester.Json} {a : Attestation} :
    Entry.decode C i value = .attestation a ↔ Attestation.deserialize C value = .ok a := by
  unfold Entry.decode
  cases Attestation.deserialize C value <;> simp

/-- An entry with a note has a readable message hash. -/
theorem NoteOf.readable {q : Nat} {note : XUsdcMintNote} (h : NoteOf F q note) : ∃ hash, F.hashAt q = some hash := by
  obtain ⟨a, _, ha, _⟩ := h
  refine ⟨a.messageHash, ?_⟩
  rw [← decode_attestation (i := 1)] at ha
  unfold Feed.hashAt hashOf
  rw [ha]
  rfl

@[simp] theorem length_slice (top count : Nat) : (F.slice top count).length = count := by
  simp [Feed.slice]

theorem slice_get {top count i : Nat} (hi : i < count) :
    (F.slice top count)[i]? = some (Entry.decode C (i + 1) (F.entry (top - 1 - i))) := by
  simp [Feed.slice, hi]

/-- The positions a page below `top` adds to what is below the watermark. -/
structure Fresh (F : Feed C) (watermark : Option MessageHash) (top count q : Nat) : Prop where
  low : top - count ≤ q
  high : q < top
  above : ∀ h p, watermark = some h → F.hashAt p = some h → p < q

variable {watermark : Option MessageHash} {top q : Nat} {page : Page}

theorem serves_get (hs : F.Serves top page) {i : Nat} (hi : i < page.entries.length) :
    page.entries[i]? = some (Entry.decode C (i + 1) (F.entry (top - 1 - i))) := by
  rw [hs.2.1]
  exact slice_get hi

/-- The watermark is on the page exactly where the scan finds it. -/
theorem reached_some (hs : F.Serves top page) {k : Nat} (h : reached watermark page = some k) :
    k < page.entries.length ∧ ∃ hash, watermark = some hash ∧ F.hashAt (top - 1 - k) = some hash := by
  obtain ⟨hk, hmark, _⟩ := List.findIdx?_eq_some_iff_getElem.1 h
  refine ⟨hk, ?_⟩
  have hget := serves_get hs hk
  rw [List.getElem?_eq_getElem hk, Option.some.injEq] at hget
  rw [hget, isWatermark, decode_messageHash] at hmark
  unfold Feed.hashAt
  cases hhash : hashOf C (F.entry (top - 1 - k)) with
  | none => simp [hhash] at hmark
  | some hash =>
    simp only [hhash, decide_eq_true_eq] at hmark
    exact ⟨hash, hmark.symm, rfl⟩

/-- If it is not found, the watermark is below the page. -/
theorem reached_none (hs : F.Serves top page) (h : reached watermark page = none) {hash : MessageHash} {p : Nat}
    (hw : watermark = some hash) (hp : F.hashAt p = some hash) (hlt : p < top) : p < top - page.entries.length := by
  by_contra hge
  have hi : top - 1 - p < page.entries.length := by omega
  have hpos : top - 1 - (top - 1 - p) = p := by omega
  have hget := serves_get hs hi
  rw [hpos] at hget
  have hfalse := List.findIdx?_eq_none_iff.1 h _ (List.mem_of_getElem? hget)
  rw [isWatermark, decode_messageHash] at hfalse
  rw [show hashOf C (F.entry p) = some hash from hp, hw] at hfalse
  simp at hfalse

/-- The fresh entries of a page are those at the fresh positions. -/
theorem mem_fresh (hs : F.Serves top page) (hbelow : ∀ h p, watermark = some h → F.hashAt p = some h → p < top)
    {entry : Entry} : entry ∈ fresh watermark page ↔
      ∃ q i, q + i + 1 = top ∧ Fresh F watermark top page.entries.length q ∧
        entry = Entry.decode C (i + 1) (F.entry q) := by
  unfold fresh
  have hlen := hs.1
  constructor
  · intro hmem
    obtain ⟨i, hi⟩ := List.mem_iff_getElem?.1 hmem
    rw [List.getElem?_take] at hi
    split at hi
    case isFalse => cases hi
    case isTrue hlt =>
      have hlt' : i < page.entries.length := (List.getElem?_eq_some_iff.1 hi).1
      rw [serves_get hs hlt', Option.some.injEq] at hi
      refine ⟨top - 1 - i, i, by omega, ⟨by omega, by omega, ?_⟩, hi.symm⟩
      intro h p hw hp
      cases hr : reached watermark page with
      | none =>
        have := reached_none hs hr hw hp (hbelow h p hw hp)
        omega
      | some k =>
        obtain ⟨hk, hash, hw', hp'⟩ := reached_some hs hr
        rw [hw] at hw'
        cases hw'
        obtain rfl := F.unique _ _ _ hp hp'
        simp only [hr, Option.getD_some] at hlt
        omega
  · rintro ⟨q, i, htop, hfresh, rfl⟩
    have hi : i < page.entries.length := by
      have := hfresh.low
      omega
    refine List.mem_iff_getElem?.2 ⟨i, ?_⟩
    rw [List.getElem?_take, if_pos, serves_get hs hi]
    · congr 3
      omega
    · cases hr : reached watermark page with
      | none => simpa using hi
      | some k =>
        obtain ⟨hk, hash, hw, hp⟩ := reached_some hs hr
        have := hfresh.above hash _ hw hp
        simp only [Option.getD_some]
        omega

/-- The newest readable entry of the page. -/
theorem newest_spec (hs : F.Serves top page) {hash : MessageHash}
    (h : page.entries.findSome? Entry.messageHash = some hash) :
    ∃ p, top - page.entries.length ≤ p ∧ p < top ∧ F.hashAt p = some hash ∧
      ∀ q hash', p < q → q < top → F.hashAt q ≠ some hash' := by
  obtain ⟨l, entry, r, hsplit, hread, hbefore⟩ := List.findSome?_eq_some_iff.1 h
  have hlen := hs.1
  have hi : l.length < page.entries.length := by rw [hsplit]; simp
  have hget := serves_get hs hi
  rw [hsplit, List.getElem?_append_right (Nat.le_refl _)] at hget
  simp only [Nat.sub_self, List.getElem?_cons_zero, Option.some.injEq] at hget
  rw [hget, decode_messageHash] at hread
  refine ⟨top - 1 - l.length, by omega, by omega, hread, ?_⟩
  intro q hash' hlt hq hhash
  have hj : top - 1 - q < l.length := by omega
  have hget' := serves_get hs (i := top - 1 - q) (by omega)
  rw [hsplit, List.getElem?_append_left hj] at hget'
  have hnone := hbefore _ (List.mem_of_getElem? hget')
  rw [decode_messageHash] at hnone
  rw [show top - 1 - (top - 1 - q) = q by omega] at hnone
  unfold Feed.hashAt at hhash
  rw [hnone] at hhash
  cases hhash

theorem newest_of_readable (hs : F.Serves top page) {q : Nat} {hash : MessageHash}
    (hlow : top - page.entries.length ≤ q) (hhigh : q < top) (hq : F.hashAt q = some hash) :
    ∃ hash', page.entries.findSome? Entry.messageHash = some hash' := by
  have hlen := hs.1
  have hget := serves_get hs (i := top - 1 - q) (by omega)
  rw [show top - 1 - (top - 1 - q) = q by omega] at hget
  rw [← Option.isSome_iff_exists, List.findSome?_isSome_iff]
  refine ⟨_, List.mem_of_getElem? hget, ?_⟩
  rw [decode_messageHash]
  unfold Feed.hashAt at hq
  rw [hq]
  rfl

/-! ## What a page moves -/

/-- The markers of a state are in the feed, the walk between them above the watermark. -/
structure Placed (F : Feed C) (n : Nat) (s : State) : Prop where
  watermark : ∀ h, s.watermark = some h → ∃ p, p < n ∧ F.hashAt p = some h
  scan : ∀ r, s.scan = some r → ∃ p, p < n ∧ F.hashAt p = some r.head ∧ F.names r.resume ≤ p
  apart : ∀ h p r, s.watermark = some h → F.hashAt p = some h → s.scan = some r → p < F.names r.resume

/-- A page served for a position, when the feed has `n` entries. -/
structure PageAt (F : Feed C) (pos : Position) (n top : Nat) (page : Page) : Prop where
  top_eq : top = F.top n pos.resume
  top_le : top ≤ n
  serves : F.Serves top page
  placed : Placed F n pos.state
  below : ∀ h p, pos.watermark = some h → F.hashAt p = some h → p < top
  resumed : ∀ h, pos.head = some h → ∃ c, pos.resume = some c

/-- What `process_page` reports of a page. -/
def outcomeOf (watermark : Option MessageHash) (page : Page) : PageOutcome where
  newest := page.entries.findSome? Entry.messageHash
  next := if (reached watermark page).isSome then none else page.next

namespace PageAt
variable {pos : Position} {n : Nat}

/-- An unfinished scan's head is above the page. -/
theorem head_above (h : PageAt F pos n top page) {hash : MessageHash} (hhead : pos.head = some hash) :
    ∃ c p, pos.resume = some c ∧ F.names c = top ∧ p < n ∧ F.hashAt p = some hash ∧ top ≤ p := by
  obtain ⟨c, hc⟩ := h.resumed hash hhead
  have htop : F.names c = top := by rw [h.top_eq, hc, Feed.top]
  obtain ⟨p, hp, hplace, hle⟩ := h.placed.scan ⟨hash, c⟩ (by simp [Position.state, hhead, hc])
  exact ⟨c, p, hc, htop, hp, hplace, htop ▸ hle⟩

/-- What the scan has as its head after the page: it is at or above every readable fresh entry. -/
theorem head_after (h : PageAt F pos n top page) {hash : MessageHash}
    (hhead : pos.head.or (outcomeOf pos.watermark page).newest = some hash) :
    ∃ p, p < n ∧ F.hashAt p = some hash ∧ top - page.entries.length ≤ p ∧
      ∀ q hash', p < q → q < top → F.hashAt q ≠ some hash' := by
  cases hold : pos.head with
  | some old =>
    rw [hold, Option.some_or] at hhead
    cases hhead
    obtain ⟨_, p, _, _, hp, hplace, hle⟩ := h.head_above hold
    exact ⟨p, hp, hplace, by omega, fun q _ hlt hq => by omega⟩
  | none =>
    rw [hold, Option.none_or] at hhead
    obtain ⟨p, hlow, hhigh, hplace, hmax⟩ := newest_spec h.serves hhead
    exact ⟨p, by have := h.top_le; omega, hplace, hlow, hmax⟩

/-- A readable fresh entry gives the scan a head. -/
theorem head_of_readable (h : PageAt F pos n top page) (hf : Fresh F pos.watermark top page.entries.length q)
    {hash : MessageHash} (hq : F.hashAt q = some hash) :
    ∃ hash', pos.head.or (outcomeOf pos.watermark page).newest = some hash' := by
  obtain ⟨hash', hnew⟩ := newest_of_readable h.serves hf.low hf.high hq
  cases hold : pos.head with
  | some old => exact ⟨old, by simp⟩
  | none => exact ⟨hash', by simpa [outcomeOf] using hnew⟩

/-- When the walk goes on, the watermark is below where it goes on. -/
theorem goes_on (h : PageAt F pos n top page) {c : CircleCursor} (hnext : (outcomeOf pos.watermark page).next = some c) :
    F.names c = top - page.entries.length ∧
      ∀ hash p, pos.watermark = some hash → F.hashAt p = some hash → p < F.names c := by
  have hserves := h.serves.2.2
  cases hr : reached pos.watermark page with
  | some k => simp [outcomeOf, hr] at hnext
  | none =>
    have hpage : page.next = some c := by simpa [outcomeOf, hr] using hnext
    simp only [hpage] at hserves
    refine ⟨hserves.2, fun hash p hw hp => ?_⟩
    rw [hserves.2]
    exact reached_none h.serves hr hw hp (h.below hash p hw hp)

/-- When it ends, the page and what is below the watermark are all there is. -/
theorem ends (h : PageAt F pos n top page) (hnext : (outcomeOf pos.watermark page).next = none) (hq : q < top) :
    Fresh F pos.watermark top page.entries.length q ∨
      ∃ hash p, pos.watermark = some hash ∧ F.hashAt p = some hash ∧ q ≤ p := by
  by_cases hle : ∃ hash p, pos.watermark = some hash ∧ F.hashAt p = some hash ∧ q ≤ p
  · exact .inr hle
  · refine .inl ⟨?_, hq, fun hash p hw hp => ?_⟩
    · cases hr : reached pos.watermark page with
      | some k =>
        obtain ⟨hk, hash, hw, hp⟩ := reached_some h.serves hr
        by_contra hlow
        exact hle ⟨hash, _, hw, hp, by omega⟩
      | none =>
        have hpage : page.next = none := by simpa [outcomeOf, hr] using hnext
        have hserves := h.serves.2.2
        simp only [hpage] at hserves
        omega
    · by_contra hge
      exact hle ⟨hash, p, hw, hp, by omega⟩

theorem fresh_not_covered (h : PageAt F pos n top page) (hf : Fresh F pos.watermark top page.entries.length q) :
    ¬ Covered F pos.state q := by
  intro hcov
  cases hcov with
  | below stored place le =>
    have := hf.above _ _ stored place
    omega
  | @walked r p stored place low le =>
    -- The walk has come down to the top of the page.
    obtain ⟨hash, hhead, hr⟩ := Option.bind_eq_some_iff.1 stored
    obtain ⟨c, _, hc, htop, _⟩ := h.head_above hhead
    rw [hc] at hr
    cases hr
    have := hf.high
    simp only [htop] at low
    omega

/-- A head at or above the top of the page is the one the scan came with. -/
theorem old_head (h : PageAt F pos n top page) {hash : MessageHash} {p : Nat}
    (hhead : pos.head.or (outcomeOf pos.watermark page).newest = some hash) (hp : F.hashAt p = some hash)
    (hle : top ≤ p) : pos.head = some hash := by
  cases hold : pos.head with
  | some old => simpa [hold] using hhead
  | none =>
    rw [hold, Option.none_or] at hhead
    obtain ⟨p', _, hhigh, hplace, _⟩ := newest_spec h.serves hhead
    have := F.unique _ _ _ hp hplace
    omega

/-- The watermark is at or below the head the scan has after the page. -/
theorem watermark_le (h : PageAt F pos n top page) {hash mark : MessageHash} {p p₀ : Nat}
    (hhead : pos.head.or (outcomeOf pos.watermark page).newest = some hash) (hp : F.hashAt p = some hash)
    (hw : pos.watermark = some mark) (hp₀ : F.hashAt p₀ = some mark) : p₀ ≤ p := by
  obtain ⟨p', _, hplace, _, hmax⟩ := h.head_after hhead
  obtain rfl := F.unique _ _ _ hp hplace
  by_contra hlt
  exact hmax p₀ mark (by omega) (h.below mark p₀ hw hp₀) hp₀

/-- What a scan's head covers that the page does not reach was covered before. -/
theorem covered_above (h : PageAt F pos n top page) {hash : MessageHash} {p : Nat}
    (hhead : pos.head.or (outcomeOf pos.watermark page).newest = some hash) (hp : F.hashAt p = some hash)
    (hq : top ≤ q) (hle : q ≤ p) : Covered F pos.state q := by
  have hold := h.old_head hhead hp (hq.trans hle)
  obtain ⟨c, _, hc, htop, _⟩ := h.head_above hold
  exact .walked (r := ⟨hash, c⟩) (by simp [Position.state, hold, hc]) hp (htop ▸ hq) hle

theorem advance_covered (h : PageAt F pos n top page)
    (hcov : Covered F (advance pos (outcomeOf pos.watermark page)).2 q) :
    Covered F pos.state q ∨ Fresh F pos.watermark top page.entries.length q := by
  cases hnext : (outcomeOf pos.watermark page).next with
  | some c =>
    obtain ⟨hc, hmark⟩ := h.goes_on hnext
    simp only [advance, hnext, Position.state] at hcov
    cases hcov with
    | below stored place le => exact .inl (.below stored place le)
    | @walked r p stored place low le =>
      obtain ⟨hash, hhead, hr⟩ := Option.bind_eq_some_iff.1 stored
      cases hr
      rcases Nat.lt_or_ge q top with hlt | hge
      · refine .inr ⟨hc ▸ low, hlt, fun mark p₀ hw hp₀ => ?_⟩
        exact Nat.lt_of_lt_of_le (hmark mark p₀ hw hp₀) low
      · exact .inl (h.covered_above hhead place hge le)
  | none =>
    simp only [advance, hnext] at hcov
    cases hcov with
    | walked stored => cases stored
    | @below hash p stored place le =>
      cases hhead : pos.head.or (outcomeOf pos.watermark page).newest with
      | none =>
        rw [hhead, Option.none_or] at stored
        exact .inl (.below stored place le)
      | some hash' =>
        rw [hhead, Option.some_or] at stored
        cases stored
        rcases Nat.lt_or_ge q top with hlt | hge
        · rcases h.ends hnext hlt with hf | ⟨mark, p₀, hw, hp₀, hle⟩
          · exact .inr hf
          · exact .inl (.below hw hp₀ hle)
        · exact .inl (h.covered_above hhead place hge le)

theorem advance_keeps (h : PageAt F pos n top page) (hcov : Covered F pos.state q) :
    Covered F (advance pos (outcomeOf pos.watermark page)).2 q := by
  cases hnext : (outcomeOf pos.watermark page).next with
  | some c =>
    obtain ⟨hc, _⟩ := h.goes_on hnext
    simp only [advance, hnext, Position.state]
    cases hcov with
    | below stored place le => exact .below stored place le
    | @walked r p stored place low le =>
      obtain ⟨hash, hhead, hr⟩ := Option.bind_eq_some_iff.1 stored
      obtain ⟨c₀, _, hc₀, htop, _⟩ := h.head_above hhead
      rw [hc₀] at hr
      cases hr
      refine .walked (r := ⟨hash, c⟩) (p := p) (by simp [hhead]) place ?_ le
      simp only [htop] at low
      simp only [hc]
      omega
  | none =>
    simp only [advance, hnext]
    cases hcov with
    | @below mark p₀ stored place le =>
      cases hhead : pos.head.or (outcomeOf pos.watermark page).newest with
      | none => exact .below stored place le
      | some hash =>
        obtain ⟨p, _, hplace, _, _⟩ := h.head_after hhead
        exact .below rfl hplace (le.trans (h.watermark_le hhead hplace stored place))
    | @walked r p stored place low le =>
      obtain ⟨hash, hhead, hr⟩ := Option.bind_eq_some_iff.1 stored
      obtain ⟨c₀, _, hc₀, _⟩ := h.head_above hhead
      rw [hc₀] at hr
      cases hr
      exact .below (h := hash) (by simp [hhead]) place le

theorem advance_newer (h : PageAt F pos n top page) :
    Newer F pos.state (advance pos (outcomeOf pos.watermark page)).2 := by
  cases hnext : (outcomeOf pos.watermark page).next with
  | some c =>
    simp only [advance, hnext]
    exact fun mark hw => ⟨mark, hw, .inl rfl⟩
  | none =>
    simp only [advance, hnext]
    intro mark hw
    cases hhead : pos.head.or (outcomeOf pos.watermark page).newest with
    | none => exact ⟨mark, hw, .inl rfl⟩
    | some hash =>
      obtain ⟨p₀, _, hp₀⟩ := h.placed.watermark mark hw
      obtain ⟨p, _, hp, _, _⟩ := h.head_after hhead
      refine ⟨hash, rfl, ?_⟩
      rcases Nat.lt_or_eq_of_le (h.watermark_le hhead hp hw hp₀) with hlt | rfl
      · exact .inr ⟨p₀, p, hp₀, hp, hlt⟩
      · rw [hp] at hp₀
        cases hp₀
        exact .inl rfl

/-- A fresh entry with a readable hash is covered by what is saved. -/
theorem advance_page (h : PageAt F pos n top page) (hf : Fresh F pos.watermark top page.entries.length q)
    {hash : MessageHash} (hq : F.hashAt q = some hash) :
    Covered F (advance pos (outcomeOf pos.watermark page)).2 q := by
  obtain ⟨head, hhead⟩ := h.head_of_readable hf hq
  obtain ⟨p, _, hp, _, hmax⟩ := h.head_after hhead
  have hle : q ≤ p := by
    by_contra hlt
    exact hmax q hash (by omega) hf.high hq
  cases hnext : (outcomeOf pos.watermark page).next with
  | some c =>
    obtain ⟨hc, _⟩ := h.goes_on hnext
    simp only [advance, hnext, Position.state, hhead]
    exact .walked (r := ⟨head, c⟩) rfl hp (hc ▸ hf.low) hle
  | none =>
    simp only [advance, hnext, hhead]
    exact .below rfl hp hle

theorem advance_placed (h : PageAt F pos n top page) :
    Placed F n (advance pos (outcomeOf pos.watermark page)).2 := by
  cases hnext : (outcomeOf pos.watermark page).next with
  | some c =>
    obtain ⟨hc, hmark⟩ := h.goes_on hnext
    simp only [advance, hnext, Position.state]
    refine ⟨h.placed.watermark, fun r hr => ?_, fun mark p₀ r hw hp₀ hr => ?_⟩
    · obtain ⟨hash, hhead, hr⟩ := Option.bind_eq_some_iff.1 hr
      cases hr
      obtain ⟨p, hlt, hp, hlow, _⟩ := h.head_after hhead
      exact ⟨p, hlt, hp, hc ▸ hlow⟩
    · obtain ⟨hash, hhead, hr⟩ := Option.bind_eq_some_iff.1 hr
      cases hr
      exact hmark mark p₀ hw hp₀
  | none =>
    simp only [advance, hnext]
    refine ⟨fun hash hw => ?_, fun r hr => (by cases hr), fun _ _ r _ _ hr => (by cases hr)⟩
    cases hhead : pos.head.or (outcomeOf pos.watermark page).newest with
    | none =>
      rw [hhead, Option.none_or] at hw
      exact h.placed.watermark hash hw
    | some head =>
      rw [hhead, Option.some_or] at hw
      cases hw
      obtain ⟨p, hlt, hp, _⟩ := h.head_after hhead
      exact ⟨p, hlt, hp⟩

end PageAt

end DepositRelayer
