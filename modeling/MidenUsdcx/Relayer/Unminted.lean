import MidenUsdcx.Relayer.Mint
import MidenUsdcx.Lib.Stay
import Mathlib.Data.Set.Card
/-!
# Deposits waiting for the faucet (`unminted.rs`)

| here | there |
| --- | --- |
| `Unminted`, `submitted`, `retain` | `unminted.rs:22-46`, in `Relayer.Mint` |
| `count`, `oldestAge` | `unminted.rs:48-58` |
| `CheckedPage`, `Unminted.page` | what `process_page` does to the list (`lib.rs:401-439`) |

A deposit waits once its note is on chain, until a check finds it minted. Pages are replayed, so its note
may be submitted again while it waits, and one that was dropped may come back.
-/
namespace DepositRelayer
open Stays

/-- What a page tells the list: what the faucet reports unminted, then which notes landed, and when. -/
structure CheckedPage where
  unminted : List DepositNonce
  landed : List DepositNonce
  time : Nat

namespace Unminted

/-- `count` (`unminted.rs:48`). -/
def count (u : Unminted) : Nat := u.deposits.length

/-- `oldest_age` (`unminted.rs:53`). -/
def oldestAge (u : Unminted) (now : Nat) : Nat :=
  match u.deposits.head? with
  | some oldest => now - oldest.2
  | none => 0

/-- One page (`lib.rs:411,438`). -/
def page (u : Unminted) (p : CheckedPage) : Unminted := (u.retain p.unminted).submitted p.time p.landed

/-- Any number of pages, from the empty list of a relayer just started. -/
def pages (ps : List CheckedPage) : Unminted := ps.foldl page {}

end Unminted

/-- The page as a round: what is reported unminted stays, what landed arrives. -/
def CheckedPage.round (p : CheckedPage) : Round DepositNonce Nat := ⟨(· ∈ p.unminted), (· ∈ p.landed), p.time⟩

/-- The deposit was submitted, and every check since reported it unminted. -/
def Waiting (ps : List CheckedPage) (nonce : DepositNonce) : Prop := Present (ps.map (·.round)) nonce

/-- It has been waiting without a break since it landed at `t`. -/
def WaitingSince (ps : List CheckedPage) (nonce : DepositNonce) (t : Nat) : Prop :=
  Since (ps.map (·.round)) nonce t

theorem waitingSince_concat {ps : List CheckedPage} {p : CheckedPage} {nonce : DepositNonce} {t : Nat} :
    WaitingSince (ps ++ [p]) nonce t ↔ (WaitingSince ps nonce t ∧ nonce ∈ p.unminted) ∨
      (nonce ∈ p.landed ∧ ¬ (Waiting ps nonce ∧ nonce ∈ p.unminted) ∧ p.time = t) := by
  unfold WaitingSince
  rw [List.map_append]
  exact since_concat

namespace Unminted
variable {u : Unminted} {ps : List CheckedPage} {nonces : List DepositNonce} {d : DepositNonce × Nat} {t : Nat}

theorem mem_nonces {nonce : DepositNonce} : nonce ∈ u.nonces ↔ ∃ t, (nonce, t) ∈ u.deposits := by
  simp [nonces]

theorem mem_retain : d ∈ (u.retain nonces).deposits ↔ d ∈ u.deposits ∧ d.1 ∈ nonces := by
  simp [retain]

theorem retain_sublist (u : Unminted) (nonces : List DepositNonce) :
    (u.retain nonces).deposits.Sublist u.deposits := List.filter_sublist

/-- What is recorded: whatever was there, and at the time given what was not. -/
theorem mem_submitted :
    d ∈ (u.submitted t nonces).deposits ↔ d ∈ u.deposits ∨ (d.1 ∈ nonces ∧ d.1 ∉ u.nonces ∧ d.2 = t) := by
  induction nonces generalizing u with
  | nil => simp [submitted]
  | cons nonce rest ih =>
    by_cases hin : nonce ∈ u.nonces
    · rw [submitted, if_pos hin, ih, List.mem_cons]
      constructor
      · rintro (h | ⟨hrest, h⟩)
        · exact .inl h
        · exact .inr ⟨.inr hrest, h⟩
      · rintro (h | ⟨rfl | hrest, hnew, h⟩)
        · exact .inl h
        · exact absurd hin hnew
        · exact .inr ⟨hrest, hnew, h⟩
    · have hmore : ∀ n, n ∈ (Unminted.mk (u.deposits ++ [(nonce, t)])).nonces ↔ n ∈ u.nonces ∨ n = nonce := by
        simp [Unminted.nonces]
      rw [submitted, if_neg hin, ih, hmore, List.mem_append, List.mem_singleton, List.mem_cons]
      constructor
      · rintro ((h | rfl) | ⟨hrest, hnew, h⟩)
        · exact .inl h
        · exact .inr ⟨.inl rfl, hin, rfl⟩
        · exact .inr ⟨.inr hrest, fun h => hnew (.inl h), h⟩
      · rintro (h | ⟨hd, hnew, htime⟩)
        · exact .inl (.inl h)
        · by_cases heq : d.1 = nonce
          · exact .inl (.inr (Prod.ext heq htime))
          · exact .inr ⟨hd.resolve_left heq, fun h => h.elim hnew heq, htime⟩

/-- Every deposit once, and none before one that landed earlier. -/
structure Ordered (u : Unminted) : Prop where
  once : u.nonces.Nodup
  times : (u.deposits.map (·.2)).Pairwise (· ≤ ·)

theorem Ordered.retain (h : u.Ordered) (nonces : List DepositNonce) : (u.retain nonces).Ordered where
  once := h.once.sublist ((retain_sublist u nonces).map _)
  times := h.times.sublist ((retain_sublist u nonces).map _)

theorem Ordered.submitted (h : u.Ordered) (hpast : ∀ d ∈ u.deposits, d.2 ≤ t) : (u.submitted t nonces).Ordered := by
  induction nonces generalizing u with
  | nil => exact h
  | cons nonce rest ih =>
    by_cases hin : nonce ∈ u.nonces
    · rw [Unminted.submitted, if_pos hin]
      exact ih h hpast
    · rw [Unminted.submitted, if_neg hin]
      apply ih
      · refine ⟨?_, ?_⟩
        · show (List.map _ (u.deposits ++ [(nonce, t)])).Nodup
          rw [List.map_append, List.nodup_append]
          refine ⟨h.once, List.nodup_singleton _, fun a ha b hb => ?_⟩
          rw [List.mem_singleton.mp hb]
          rintro rfl
          exact hin ha
        · show (List.map _ (u.deposits ++ [(nonce, t)])).Pairwise _
          rw [List.map_append, List.pairwise_append]
          refine ⟨h.times, List.pairwise_singleton _ _, fun a ha b hb => ?_⟩
          obtain ⟨d, hd, rfl⟩ := List.mem_map.mp ha
          rw [List.mem_singleton.mp hb]
          exact hpast d hd
      · intro d hd
        rcases List.mem_append.mp hd with hd | hd
        · exact hpast d hd
        · rw [List.mem_singleton.mp hd]

theorem pages_concat (ps : List CheckedPage) (p : CheckedPage) : pages (ps ++ [p]) = (pages ps).page p := by
  rw [pages, List.foldl_append]
  rfl

/-- An entry of the list is a deposit that waits, with the time its stay began. -/
theorem mem_pages {nonce : DepositNonce} : (nonce, t) ∈ (pages ps).deposits ↔ WaitingSince ps nonce t := by
  induction ps using List.reverseRecOn generalizing nonce t with
  | nil => exact iff_of_false (by simp [pages]) not_since_nil
  | append_singleton ps p ih =>
    have hstays : nonce ∈ ((pages ps).retain p.unminted).nonces ↔ Waiting ps nonce ∧ nonce ∈ p.unminted := by
      rw [mem_nonces, Waiting, present_iff_since]
      simp only [mem_retain, ih]
      exact exists_and_right
    rw [pages_concat, page, mem_submitted, mem_retain, ih, hstays, waitingSince_concat, @eq_comm _ p.time]

theorem mem_nonces_pages {nonce : DepositNonce} : nonce ∈ (pages ps).nonces ↔ Waiting ps nonce := by
  rw [mem_nonces, Waiting, present_iff_since]
  simp only [mem_pages]
  rfl

theorem pages_ordered (hclock : (ps.map (·.time)).Pairwise (· ≤ ·)) : (pages ps).Ordered := by
  induction ps using List.reverseRecOn with
  | nil => exact ⟨List.nodup_nil, List.Pairwise.nil⟩
  | append_singleton ps p ih =>
    rw [List.map_append, List.pairwise_append] at hclock
    obtain ⟨hbefore, -, hlater⟩ := hclock
    rw [pages_concat, page]
    refine ((ih hbefore).retain p.unminted).submitted fun d hd => ?_
    -- what is kept landed at the time of an earlier page
    have hsince : WaitingSince ps d.1 d.2 := mem_pages.mp (mem_retain.mp hd).1
    have htime : d.2 ∈ ps.map (·.time) := by
      have hmem := hsince.mem_times
      rwa [List.map_map] at hmem
    exact hlater d.2 htime p.time List.mem_cons_self

theorem Ordered.count_eq (h : u.Ordered) : u.count = {nonce | nonce ∈ u.nonces}.ncard := by
  have hset : {nonce | nonce ∈ u.nonces} = (u.nonces.toFinset : Set DepositNonce) := by
    ext nonce
    simp
  rw [hset, Set.ncard_coe_finset, List.toFinset_card_of_nodup h.once, nonces, List.length_map, count]

/-- The front is the oldest. -/
theorem Ordered.oldestAge_greatest (h : u.Ordered) (hsome : u.deposits ≠ []) (now : Nat) :
    IsGreatest {age | ∃ d ∈ u.deposits, age = now - d.2} (u.oldestAge now) := by
  obtain ⟨oldest, rest, hdeposits⟩ := List.exists_cons_of_ne_nil hsome
  have htimes := h.times
  rw [hdeposits, List.map_cons, List.pairwise_cons] at htimes
  have hage : u.oldestAge now = now - oldest.2 := by rw [oldestAge, hdeposits, List.head?_cons]
  rw [hage]
  refine ⟨⟨oldest, hdeposits ▸ List.mem_cons_self, rfl⟩, ?_⟩
  rintro age ⟨d, hd, rfl⟩
  rw [hdeposits] at hd
  rcases List.mem_cons.mp hd with rfl | hd
  · exact le_refl _
  · exact Nat.sub_le_sub_left (htimes.1 d.2 (List.mem_map_of_mem hd)) now

/-- After any pages, the list is the waiting deposits, each once and with the time its stay began, oldest first;
so it counts them, and reads the greatest of their ages off its front. -/
theorem unminted_exact (ps : List CheckedPage) (hclock : (ps.map (·.time)).Pairwise (· ≤ ·)) :
    (pages ps).nonces.Nodup ∧
    (∀ nonce, nonce ∈ (pages ps).nonces ↔ Waiting ps nonce) ∧
    (∀ nonce t, (nonce, t) ∈ (pages ps).deposits ↔ WaitingSince ps nonce t) ∧
    ((pages ps).deposits.map (·.2)).Pairwise (· ≤ ·) ∧
    (pages ps).count = {nonce | Waiting ps nonce}.ncard ∧
    ∀ now, ((∃ nonce, Waiting ps nonce) →
        IsGreatest {age | ∃ nonce t, WaitingSince ps nonce t ∧ age = now - t} ((pages ps).oldestAge now)) ∧
      ((∀ nonce, ¬ Waiting ps nonce) → (pages ps).oldestAge now = 0) := by
  have hordered := pages_ordered hclock
  refine ⟨hordered.once, fun _ => mem_nonces_pages, fun _ _ => mem_pages, hordered.times, ?_, fun now => ⟨?_, ?_⟩⟩
  · rw [hordered.count_eq]
    simp only [mem_nonces_pages]
  · rintro ⟨nonce, hwaiting⟩
    obtain ⟨t, hin⟩ := mem_nonces.mp (mem_nonces_pages.mpr hwaiting)
    have hgreatest := hordered.oldestAge_greatest (List.ne_nil_of_mem hin) now
    simpa only [Prod.exists, mem_pages] using hgreatest
  · intro hnone
    have hempty : (pages ps).deposits = [] := by
      apply List.eq_nil_iff_forall_not_mem.mpr
      intro d hd
      exact hnone d.1 (mem_nonces_pages.mp (List.mem_map_of_mem hd))
    rw [oldestAge, hempty]
    rfl

end Unminted

namespace Replay

def nonce (n : Nat) : DepositNonce := ⟨.ofNat 256 n⟩

/-- The second page submits the first one's deposit again; the third finds it minted. -/
def pages : List CheckedPage :=
  [⟨[nonce 1], [nonce 1], 3⟩, ⟨[nonce 1, nonce 2], [nonce 1, nonce 2], 5⟩, ⟨[nonce 2], [], 9⟩]

end Replay

theorem unminted_exact_replay :
    (Unminted.pages Replay.pages).deposits = [(Replay.nonce 2, 5)] ∧
      (Unminted.pages Replay.pages).count = {nonce | Waiting Replay.pages nonce}.ncard :=
  ⟨by decide, (Unminted.unminted_exact Replay.pages (by decide)).2.2.2.2.1⟩

end DepositRelayer
