import MidenUsdcx.Lib.Hex
import MidenUsdcx.Lib.Lines
import MidenUsdcx.Attester.Listing
/-!
# The hold list as a file of note IDs (`store.rs:61-74`, `config.rs:509-526`, `service.rs:144-156`)

| here | there |
| --- | --- |
| `Hold.display` | `impl Display for Hold` (`store.rs:61`) |
| `printHolds` | what `release-holds` prints without note IDs (`service.rs:151-153`) |
| `parseNoteIds` | `parse_note_ids` (`config.rs:509`) |

An operator edits the printed list and passes it back as `--note-ids-file`. Circle chose the text at the end of each
line. It was joined from its words, so it ends no line, and the reader does not look past the first word.
`NoteId::try_from_hex` is not in the repository and is left arbitrary.
-/
namespace LightAttester
open Checked Keyed Lines Store

/-! ## Printing -/

def HoldKind.text : HoldKind → String
  | .burn => "burn"
  | .withdrawal => "withdrawal"

/-- `impl Display for Hold` (`store.rs:61`). -/
def Hold.display (hold : Hold) : String :=
  hold.noteId.toHex ++ "\t" ++ hold.kind.text ++ "\t" ++ hold.reason ++ "\t" ++
    (hold.httpStatus.map Nat.repr).getD "-" ++ "\t" ++ hold.circleMessage.getD "-"

/-- `println!` of every hold (`service.rs:151`). -/
def printHolds (holds : List Hold) : String := String.join (holds.map fun hold => hold.display ++ "\n")

/-! ## Reading -/

/-- The file of `--note-ids-file`, with what `read_to_string` gives if it can be read. -/
structure NoteIdsFile where
  path : String
  text : Option String

/-- The first word of each line that is not empty (`config.rs:515-518`). -/
def listedWords (listed : String) : List String :=
  (lines listed.toList).filterMap fun line => (firstWord isWhitespace line).map String.ofList

section
variable (tryFromHex : String → Option NoteId)

/-- `parse_note_ids` (`config.rs:509`). -/
def parseNoteIds (noteIds : List String) (file : Option NoteIdsFile) : Except String (List NoteId) := do
  let listed ← match file with
    | none => pure []
    | some file => do
      let listed ← orThrow file.text ("failed to read note IDs from " ++ file.path)
      pure (listedWords listed)
  let words := noteIds ++ listed
  ensure (words ≠ []) "no note IDs given"
  words.mapM fun id => orThrow (tryFromHex id) ("note id " ++ id ++ " is invalid")

end

/-! ## One line a hold -/

/-- A reason the code writes, and a message of any text at all, joined from its words. -/
structure Hold.Listed (hold : Hold) : Prop where
  reason : (∃ r : BurnHoldReason, hold.reason = r.debug) ∨ (∃ r : HoldReason, hold.reason = r.debug) ∨ hold.reason = "-"
  message : ∀ message, hold.circleMessage = some message → ∃ text, message = String.ofList (joinWords text)

/-- Ends no line. -/
def OnLine (text : List Char) : Prop := '\n' ∉ text ∧ '\r' ∉ text

theorem onLine_append {a b : List Char} (ha : OnLine a) (hb : OnLine b) : OnLine (a ++ b) :=
  ⟨fun h => (List.mem_append.1 h).elim ha.1 hb.1, fun h => (List.mem_append.1 h).elim ha.2 hb.2⟩

theorem onLine_of_noSpace {text : List Char} (h : ∀ c ∈ text, isWhitespace c = false) : OnLine text :=
  ⟨fun hmem => absurd (h _ hmem) (by decide), fun hmem => absurd (h _ hmem) (by decide)⟩

theorem hexDigit_noSpace : ∀ n < 16, isWhitespace (Hex.digit n) = false := by decide

theorem hexDigits_noSpace (len n : Nat) : ∀ c ∈ hexDigits len n, isWhitespace c = false := by
  induction len generalizing n with
  | zero => exact fun c hc => by cases hc
  | succ len ih =>
    intro c hc
    rcases List.mem_append.1 hc with hc | hc
    · exact ih _ c hc
    · rw [List.mem_singleton.1 hc]
      exact hexDigit_noSpace _ (Nat.mod_lt n (by decide))

theorem toHex_noSpace (n : NoteId) : ∀ c ∈ n.toHex.toList, isWhitespace c = false := by
  intro c hc
  rw [NoteId.toHex, String.toList_ofList] at hc
  rcases List.mem_cons.1 hc with rfl | hc
  · decide
  · rcases List.mem_cons.1 hc with rfl | hc
    · decide
    · exact hexDigits_noSpace _ _ c hc

theorem repr_onLine (n : Nat) : OnLine n.repr.toList := by
  have hdigit : ∀ c ∈ n.repr.toList, c.isDigit = true := fun c hc => by
    rw [Nat.toList_repr] at hc
    exact Nat.isDigit_of_mem_toDigits (by decide) (by decide) hc
  exact ⟨fun h => absurd (hdigit _ h) (by decide), fun h => absurd (hdigit _ h) (by decide)⟩

theorem joinWords_onLine (text : List Char) : OnLine (joinWords text) := by
  have hmem : ∀ {c : Char}, c ∈ joinWords text → c = ' ' ∨ isWhitespace c = false := of_mem_intercalate
  constructor
  · intro h
    rcases hmem h with h | h <;> revert h <;> decide
  · intro h
    rcases hmem h with h | h <;> revert h <;> decide

theorem Hold.Listed.display_onLine {hold : Hold} (h : hold.Listed) : OnLine hold.display.toList := by
  have htab : OnLine "\t".toList := ⟨by decide, by decide⟩
  have hdash : OnLine "-".toList := ⟨by decide, by decide⟩
  have hkind : OnLine hold.kind.text.toList := by cases hold.kind <;> exact ⟨by decide, by decide⟩
  have hreason : OnLine hold.reason.toList := by
    rcases h.reason with ⟨r, hr⟩ | ⟨r, hr⟩ | hr
    · rw [hr]; cases r <;> exact ⟨by decide, by decide⟩
    · rw [hr]; cases r; exact ⟨by decide, by decide⟩
    · rw [hr]; exact hdash
  have hstatus : OnLine ((hold.httpStatus.map Nat.repr).getD "-").toList := by
    cases hold.httpStatus with
    | none => exact hdash
    | some status => exact repr_onLine status
  have hmessage : OnLine (hold.circleMessage.getD "-").toList := by
    cases hm : hold.circleMessage with
    | none => exact hdash
    | some message =>
      obtain ⟨text, rfl⟩ := h.message message hm
      rw [Option.getD_some, String.toList_ofList]
      exact joinWords_onLine text
  simp only [Hold.display, String.toList_append]
  exact onLine_append (onLine_append (onLine_append (onLine_append (onLine_append (onLine_append (onLine_append
    (onLine_append (onLine_of_noSpace (toHex_noSpace hold.noteId)) htab) hkind) htab) hreason) htab) hstatus) htab)
    hmessage

theorem firstWord_display (hold : Hold) :
    firstWord isWhitespace hold.display.toList = some hold.noteId.toHex.toList := by
  have hsplit : hold.display.toList = hold.noteId.toHex.toList ++ '\t' :: (hold.kind.text ++ "\t" ++ hold.reason ++
      "\t" ++ (hold.httpStatus.map Nat.repr).getD "-" ++ "\t" ++ hold.circleMessage.getD "-").toList := by
    simp [Hold.display]
  rw [hsplit]
  refine firstWord_append ?_ (toHex_noSpace hold.noteId) (by decide) _
  rw [NoteId.toHex, String.toList_ofList]
  exact List.cons_ne_nil _ _

/-! ## The holds of a store -/

variable {C : Crates} {s : Store}

theorem oneLine_listed {answer : Option Bytes} {message : String}
    (h : (answer.bind (oneLineCircleMessage C)).map String.ofList = some message) :
    ∃ text, message = String.ofList (joinWords text) := by
  obtain ⟨chars, hchars, rfl⟩ := Option.map_eq_some_iff.1 h
  obtain ⟨response, -, hline⟩ := Option.bind_eq_some_iff.1 hchars
  obtain ⟨text, -, rfl⟩ := Option.map_eq_some_iff.1 hline
  exact ⟨text.toList, rfl⟩

theorem listedBurn_listed {b : BurnRow} {hold : Hold} (h : s.listedBurn C b = some hold) : hold.Listed := by
  obtain ⟨reason, -, rfl⟩ := Option.map_eq_some_iff.1 h
  refine ⟨.inl ⟨reason, rfl⟩, fun message hmessage => ?_⟩
  simp only at hmessage
  split at hmessage
  · cases hmessage
  · exact oneLine_listed hmessage

theorem listedWithdrawal_listed (r : SavedSubmission) : (listedWithdrawal C r).Listed := by
  refine ⟨?_, fun message hmessage => oneLine_listed hmessage⟩
  unfold listedWithdrawal
  cases r.holdReason with
  | none => exact .inr (.inr rfl)
  | some reason => exact .inr (.inl ⟨reason, rfl⟩)

theorem holds_listed {holds : List Hold} (h : s.holds C = .ok holds) : ∀ hold ∈ holds, hold.Listed := by
  rw [Store.holds, bind_ok] at h
  obtain ⟨held, -, h⟩ := h
  obtain rfl := pure_ok.1 h
  intro hold hmem
  rcases List.mem_append.1 hmem with hmem | hmem
  · obtain ⟨b, -, hb⟩ := List.mem_filterMap.1 hmem
    exact listedBurn_listed hb
  · obtain ⟨r, -, rfl⟩ := List.mem_map.1 hmem
    exact listedWithdrawal_listed r

/-! ## The round trip -/

theorem printHolds_lines {holds : List Hold} (h : ∀ hold ∈ holds, hold.Listed) :
    lines (printHolds holds).toList = holds.map fun hold => hold.display.toList := by
  have htext : (printHolds holds).toList = (holds.map fun hold => hold.display.toList).flatMap (· ++ ['\n']) := by
    simp [printHolds, String.toList_join, List.flatMap_map, String.toList_append]
  rw [htext, lines_text]
  intro line hline
  obtain ⟨hold, hmem, rfl⟩ := List.mem_map.1 hline
  exact (h hold hmem).display_onLine

theorem listedWords_printHolds {holds : List Hold} (h : ∀ hold ∈ holds, hold.Listed) :
    listedWords (printHolds holds) = holds.map fun hold => hold.noteId.toHex := by
  have hfirst : ((fun line => (firstWord isWhitespace line).map String.ofList) ∘ fun hold : Hold =>
      hold.display.toList) = some ∘ fun hold => hold.noteId.toHex := by
    funext hold
    simp only [Function.comp, firstWord_display, Option.map_some, String.ofList_toList]
  rw [listedWords, printHolds_lines h, List.filterMap_map, hfirst, ← List.filterMap_map, List.filterMap_some]

section
variable {tryFromHex : String → Option NoteId} (hround : ∀ n : NoteId, tryFromHex n.toHex = some n)
include hround

theorem parse_printHolds {holds : List Hold} (h : ∀ hold ∈ holds, hold.Listed) (path : String) :
    parseNoteIds tryFromHex [] (some ⟨path, some (printHolds holds)⟩) =
      if holds = [] then .error "no note IDs given" else .ok (holds.map (·.noteId)) := by
  have hids : (holds.map fun hold => hold.noteId.toHex).mapM
      (fun id => orThrow (tryFromHex id) ("note id " ++ id ++ " is invalid")) = .ok (holds.map (·.noteId)) := by
    rw [mapM_ok, List.forall₂_map_left_iff, List.forall₂_map_right_iff, List.forall₂_same]
    intro hold _
    rw [hround]
    rfl
  have hparse : parseNoteIds tryFromHex [] (some ⟨path, some (printHolds holds)⟩) = (do
      ensure (listedWords (printHolds holds) ≠ []) "no note IDs given"
      (listedWords (printHolds holds)).mapM fun id =>
        orThrow (tryFromHex id) ("note id " ++ id ++ " is invalid")) := rfl
  rw [hparse, listedWords_printHolds h]
  by_cases hempty : holds = []
  · rw [if_pos hempty, hempty]
    rfl
  · rw [if_neg hempty, ensure, if_pos fun h => hempty (List.map_eq_nil_iff.1 h)]
    exact hids

end

/-- What the printed hold list gives back. -/
structure ReadsBack (C : Crates) (tryFromHex : String → Option NoteId) (s : Store) (path : String) : Prop where
  /-- Whatever Circle wrote, each hold gives its own note ID and nothing else; a list without holds names no note. -/
  printed : ∀ holds : List Hold, (∀ hold ∈ holds, hold.Listed) →
    parseNoteIds tryFromHex [] (some ⟨path, some (printHolds holds)⟩) =
      if holds = [] then .error "no note IDs given" else .ok (holds.map (·.noteId))
  /-- The holds of the store are such a list. -/
  stored : ∃ holds, s.holds C = .ok holds ∧ (∀ hold ∈ holds, hold.Listed) ∧ (holds ≠ [] →
    parseNoteIds tryFromHex [] (some ⟨path, some (printHolds holds)⟩) = .ok (holds.map (·.noteId)))

/-- **A printed hold list reads back as its note IDs**, in every state a run can reach. -/
theorem hold_list_reads_back (C : Crates) (tryFromHex : String → Option NoteId)
    (hround : ∀ n : NoteId, tryFromHex n.toHex = some n) (lifetimes : List Lifetime) (path : String) :
    ReadsBack C tryFromHex (runAll C lifetimes).store path where
  printed _ h := parse_printHolds hround h path
  stored := by
    obtain ⟨holds, hholds, -⟩ := holds_rows (legal_inv (runs_legal (C := C) lifetimes))
    have hlisted := holds_listed hholds
    refine ⟨holds, hholds, hlisted, fun hsome => ?_⟩
    rw [parse_printHolds hround hlisted, if_neg hsome]

/-! ## Reading an ID -/

/-- `0x` and 64 hexadecimal digits, as `NoteId::try_from_hex` reads a note ID in use. -/
def Sample.tryFromHex (text : String) : Option NoteId :=
  match text.toList with
  | '0' :: 'x' :: digits =>
    if digits.length = 64 then
      (digits.foldlM (fun n c => (Hex.digitValue c).map fun d => 16 * n + d) 0).map fun n => ⟨BitVec.ofNat 256 n⟩
    else none
  | _ => none

theorem hexDigits_read (len n : Nat) (hn : n < Nat.pow 16 len) :
    (hexDigits len n).length = len ∧
      (hexDigits len n).foldlM (fun n c => (Hex.digitValue c).map fun d => 16 * n + d) 0 = some n := by
  induction len generalizing n with
  | zero =>
    obtain rfl : n = 0 := Nat.lt_one_iff.1 hn
    exact ⟨rfl, rfl⟩
  | succ len ih =>
    obtain ⟨hlen, hread⟩ := ih (n / 16) (Nat.div_lt_of_lt_mul (lt_of_lt_of_eq hn (Nat.mul_comm _ _)))
    have hdigit : Hex.digitValue (Hex.digit (n % 16)) = some (n % 16) :=
      Hex.digitValue_digit _ (Nat.mod_lt n (by decide))
    constructor
    · rw [hexDigits, List.length_append, hlen]
      rfl
    · rw [hexDigits, List.foldlM_append, hread]
      simp only [List.foldlM_cons, List.foldlM_nil, Option.bind_eq_bind, Option.bind_some, hdigit, Option.map_some,
        Option.pure_def, Nat.div_add_mod]

theorem tryFromHex_toHex (n : NoteId) : Sample.tryFromHex n.toHex = some n := by
  obtain ⟨hlen, hread⟩ := hexDigits_read 64 n.word.toNat (lt_of_lt_of_eq n.word.isLt (by decide))
  simp only [Sample.tryFromHex, NoteId.toHex, String.toList_ofList, hlen, if_true, hread, Option.map_some,
    BitVec.ofNat_toNat, BitVec.setWidth_eq]

/-- A preparation was refused, and the operator asks for the holds. -/
def Sample.refused : List Lifetime :=
  [.serve Sample.config 1 (Sample.starting ++ Sample.scanning ++ Sample.still 4 ++
    [Sample.answers .badRequest Sample.prepared] ++ Sample.still 3)]

/-- The list of that one hold gives its note back. -/
theorem hold_list_reads_back_held : ∃ hold : Hold,
    (runAll Sample.crates Sample.refused).store.holds Sample.crates = .ok [hold] ∧
      parseNoteIds Sample.tryFromHex [] (some ⟨"holds.txt", some (printHolds [hold])⟩) = .ok [hold.noteId] := by
  have hone : ((runAll Sample.crates Sample.refused).store.holds Sample.crates).toOption.map List.length = some 1 := by
    decide +kernel
  obtain ⟨holds, hholds, -, hread⟩ :=
    (hold_list_reads_back Sample.crates Sample.tryFromHex tryFromHex_toHex Sample.refused "holds.txt").stored
  rw [hholds] at hone
  obtain ⟨hold, rfl⟩ := List.length_eq_one_iff.1 (Option.some.inj hone)
  exact ⟨hold, hholds, hread (List.cons_ne_nil _ _)⟩

/-- A store without holds prints a list that is refused. -/
theorem empty_hold_list_refused : ¬ ∀ (tryFromHex : String → Option NoteId),
    (∀ n : NoteId, tryFromHex n.toHex = some n) → ∀ (lifetimes : List Lifetime) (holds : List Hold) (path : String),
      (runAll Sample.crates lifetimes).store.holds Sample.crates = .ok holds →
        parseNoteIds tryFromHex [] (some ⟨path, some (printHolds holds)⟩) = .ok (holds.map (·.noteId)) := by
  intro h
  have hnone : (runAll Sample.crates [.serve Sample.config 1 Sample.starting]).store.holds Sample.crates = .ok [] := by
    decide +kernel
  have hread := h Sample.tryFromHex tryFromHex_toHex _ [] "holds.txt" hnone
  cases hread

end LightAttester
