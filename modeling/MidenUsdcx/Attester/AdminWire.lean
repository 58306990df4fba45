import Mathlib.Algebra.GroupWithZero.Nat
import MidenUsdcx.Attester.HoldList
/-!
# The admin command and its socket (`admin.rs:53-121`, `351-424`, `admin/client.rs`)

| here | there |
| --- | --- |
| `Json.compact`, `utf8` | `serde_json::to_vec` |
| `AdminRequest.serialize`, `AdminRequest.deserialize` | the derives of `Request` (`admin.rs:66`) |
| `replyOf`, `encode` | the derives of `Reply` (`admin.rs:89`), `encode` (`admin.rs:416`) |
| `readRequest`, `serveLine` | `read_request` and `handle`, once the line is in (`admin.rs:376-413`) |
| `parseCursor`, `parseSelection`, `exchange`, `AdminOperation.run` | `admin/client.rs:45-141` |

`serde_json::from_slice` is left arbitrary but for one thing: it reads a line that `to_vec` wrote. `NoteId::try_from_hex`
reads what `NoteId` prints.
-/
namespace LightAttester
open Checked Keyed Store

/-! ## JSON text -/

/-- The bytes of a text. -/
def utf8 (text : List Char) : Bytes := text.flatMap String.utf8EncodeChar

namespace Json

def quote : Char := Char.ofNat 0x22

def backslash : Char := Char.ofNat 0x5C

/-- A character of a string: quotes, backslashes and the controls below the space are escaped. -/
def escape (c : Char) : List Char :=
  match c.toNat with
  | 0x22 | 0x5C => [backslash, c]
  | 0x08 => [backslash, 'b']
  | 0x09 => [backslash, 't']
  | 0x0A => [backslash, 'n']
  | 0x0C => [backslash, 'f']
  | 0x0D => [backslash, 'r']
  | n => if n < 0x20 then [backslash, 'u', '0', '0', Hex.digit (n / 16), Hex.digit (n % 16)] else [c]

def quoted (text : String) : List Char := quote :: text.toList.flatMap escape ++ [quote]

def boolText (b : Bool) : List Char := if b then ['t', 'r', 'u', 'e'] else ['f', 'a', 'l', 's', 'e']

mutual

/-- `serde_json::to_vec`: no blanks between tokens. -/
def compact : Json → List Char
  | .null => ['n', 'u', 'l', 'l']
  | .bool b => boolText b
  | .number text => text.toList
  | .string text => quoted text
  | .array items => '[' :: compactItems items ++ [']']
  | .object fields => '{' :: compactFields fields ++ ['}']

def compactItems : List Json → List Char
  | [] => []
  | [item] => item.compact
  | item :: items => item.compact ++ ',' :: compactItems items

def compactFields : List (String × Json) → List Char
  | [] => []
  | [(key, value)] => quoted key ++ ':' :: value.compact
  | (key, value) :: fields => quoted key ++ ':' :: value.compact ++ ',' :: compactFields fields

end

/-- A document as a line. -/
def line (document : Json) : Bytes := utf8 document.compact ++ [10]

def ofNat (n : Nat) : Json := .number n.repr

def ofOption {α : Type} (write : α → Json) : Option α → Json
  | none => .null
  | some value => write value

/-- A run of decimal digits. -/
def decimal (digits : List Char) : Option Nat :=
  if digits ≠ [] ∧ digits.all Char.isDigit = true then some (Nat.ofDigitChars 10 digits 0) else none

/-- An unsigned integer below `bound`, as JSON writes one. -/
def asNat (bound : Nat) : Json → Option Nat
  | .number text => (decimal text.toList).filter fun n => decide (n < bound)
  | _ => none

/-- `i64::deserialize`; `-0` is no integer to `serde_json`. -/
def asI64 : Json → Option Int
  | .number text => match text.toList with
    | '-' :: digits => ((decimal digits).filter fun n => decide (0 < n ∧ n ≤ I64.MAX + 1)).map fun n : Nat => -(n : Int)
    | digits => ((decimal digits).filter fun n => decide (n ≤ I64.MAX)).map fun n : Nat => (n : Int)
  | _ => none

def asBool : Json → Option Bool
  | .bool b => some b
  | _ => none

def asList {α : Type} (read : Json → Option α) : Json → Option (List α)
  | .array items => items.mapM read
  | _ => none

end Json

namespace Admin

/-! ## Requests -/

/-- The derived `Serialize` of `Request` (`admin.rs:66`): the tag, then the fields. -/
def AdminRequest.serialize : AdminRequest → Json
  | .holds after => .object [("op", .string "holds"), ("after", Json.ofOption .string after)]
  | .release noteId expectedEventSeq circleNotAccepted =>
    .object [("op", .string "release"), ("note_id", .string noteId),
      ("expected_event_seq", .number (toString expectedEventSeq)), ("circle_not_accepted", .bool circleNotAccepted)]

/-- A field with `#[serde(default)]`. -/
def defaulted {α : Type} (default : α) (read : Json → Option α) : Option Json → Option α
  | none => some default
  | some value => read value

/-- The fields after the tag: named ones and no others, or their array, which may end before a defaulted one. -/
def variantFields (names : List String) (required : Nat) :
    List (String × Json) ⊕ List Json → Option (List (Option Json))
  | .inl fields =>
    if fields.all fun field => names.contains field.1 then names.mapM fun name => Json.fieldOf name fields else none
  | .inr items =>
    if required ≤ items.length ∧ items.length ≤ names.length then
      some (items.map some ++ List.replicate (names.length - items.length) none)
    else none

abbrev VariantFields := List (String × Json) ⊕ List Json

def readHolds (fields : VariantFields) : Option AdminRequest := do
  match ← variantFields ["after"] 0 fields with
  | [after] => return .holds (← Json.optional Json.asStr after)
  | _ => none

def readRelease (fields : VariantFields) : Option AdminRequest := do
  match ← variantFields ["note_id", "expected_event_seq", "circle_not_accepted"] 2 fields with
  | [noteId, expectedEventSeq, circleNotAccepted] =>
    return .release (← noteId >>= Json.asStr) (← expectedEventSeq >>= Json.asI64)
      (← defaulted false Json.asBool circleNotAccepted)
  | _ => none

/-- The derived `Deserialize` of `Request`: internally tagged, unknown fields denied. -/
def AdminRequest.deserialize (document : Json) : Option AdminRequest := do
  let (tag, fields) ← match document with
    | .object fields => do
      let tag ← (← Json.fieldOf "op" fields)
      pure (tag, Sum.inl (fields.filter (·.1 != "op")))
    | .array (tag :: items) => some (tag, Sum.inr items)
    | _ => none
  match tag with
  | .string "holds" => readHolds fields
  | .string "release" => readRelease fields
  | _ => none

/-! ## Replies -/

/-- `HoldEntry` as it goes over the socket (`store.rs:78`). -/
structure ShownHold where
  noteId : String
  kind : String
  reason : String
  httpStatus : Option Nat
  circleMessage : Option String
  eventSeq : Int
deriving DecidableEq, Repr

/-- `HoldsPage` as it goes over the socket (`admin.rs:107`). -/
structure ShownPage where
  faucetAccountId : String
  trustedAnchorBlock : Nat
  trustedAnchorCommitment : String
  holds : List ShownHold
  nextAfter : Option String
deriving DecidableEq, Repr

/-- What the client reads a successful answer as. -/
inductive Shown where
  | page (page : ShownPage)
  | released (burns withdrawals : Nat)
deriving DecidableEq, Repr

/-- `to_hex` of the account and of the anchor's commitment (`attester.rs:252-257`). -/
def hexText (digits n : Nat) : String := String.ofList ('0' :: 'x' :: hexDigits digits n)

def ShownHold.of (entry : HoldEntry) : ShownHold where
  noteId := entry.noteId.toHex
  kind := entry.kind.text
  reason := entry.reason
  httpStatus := entry.httpStatus
  circleMessage := entry.circleMessage
  eventSeq := entry.eventSeq

def Shown.of : Answer → Shown
  | .page listed => .page
    { faucetAccountId := hexText 30 listed.faucetAccountId.raw.toNat
      trustedAnchorBlock := listed.trustedAnchor.blockNum
      trustedAnchorCommitment := hexText 64 listed.trustedAnchor.commitment.toNat
      holds := listed.holds.map ShownHold.of
      nextAfter := listed.nextAfter.map NoteId.toHex }
  | .released burns withdrawals => .released burns withdrawals

def ShownHold.serialize (hold : ShownHold) : Json :=
  .object [("note_id", .string hold.noteId), ("kind", .string hold.kind), ("reason", .string hold.reason),
    ("http_status", Json.ofOption Json.ofNat hold.httpStatus),
    ("circle_message", Json.ofOption .string hold.circleMessage), ("event_seq", .number (toString hold.eventSeq))]

def ShownPage.serialize (page : ShownPage) : Json :=
  .object [("faucet_account_id", .string page.faucetAccountId),
    ("trusted_anchor_block", Json.ofNat page.trustedAnchorBlock),
    ("trusted_anchor_commitment", .string page.trustedAnchorCommitment),
    ("holds", .array (page.holds.map ShownHold.serialize)), ("next_after", Json.ofOption .string page.nextAfter)]

def Shown.serialize : Shown → Json
  | .page listed => listed.serialize
  | .released burns withdrawals => .object [("burns", Json.ofNat burns), ("withdrawals", Json.ofNat withdrawals)]

/-- `Reply` (`admin.rs:91`) under its one key. -/
def replyOf : Except AdminError Answer → Json
  | .ok answer => .object [("ok", (Shown.of answer).serialize)]
  | .error error =>
    .object [("error", .object [("code", .string error.body.code), ("message", .string error.body.message)])]

/-- `encode` (`admin.rs:416`). -/
def encode (result : Except AdminError Answer) : Bytes := (replyOf result).line

def ShownHold.deserialize (document : Json) : Option ShownHold := do
  match ← document.columns ["note_id", "kind", "reason", "http_status", "circle_message", "event_seq"] with
  | [noteId, kind, reason, httpStatus, circleMessage, eventSeq] =>
    return ⟨← noteId >>= Json.asStr, ← kind >>= Json.asStr, ← reason >>= Json.asStr,
      ← Json.optional (Json.asNat (2 ^ 16)) httpStatus, ← Json.optional Json.asStr circleMessage,
      ← eventSeq >>= Json.asI64⟩
  | _ => none

def ShownPage.deserialize (document : Json) : Option ShownPage := do
  match ← document.columns ["faucet_account_id", "trusted_anchor_block", "trusted_anchor_commitment", "holds",
    "next_after"] with
  | [faucet, block, commitment, holds, nextAfter] =>
    return ⟨← faucet >>= Json.asStr, ← block >>= Json.asNat (2 ^ 32), ← commitment >>= Json.asStr,
      ← holds >>= Json.asList ShownHold.deserialize, ← Json.optional Json.asStr nextAfter⟩
  | _ => none

/-- `Released` as `exchange` reads it. -/
def readReleased (document : Json) : Option Shown := do
  match ← document.columns ["burns", "withdrawals"] with
  | [burns, withdrawals] =>
    return .released (← burns >>= Json.asNat (2 ^ 64)) (← withdrawals >>= Json.asNat (2 ^ 64))
  | _ => none

def readErrorBody (document : Json) : Option ErrorBody := do
  match ← document.columns ["code", "message"] with
  | [code, message] => return ⟨← code >>= Json.asStr, ← message >>= Json.asStr⟩
  | _ => none

/-- The derived `Deserialize` of `Reply`: externally tagged. -/
def readReply {α : Type} (read : Json → Option α) : Json → Option (α ⊕ ErrorBody)
  | .object [("ok", value)] => (read value).map .inl
  | .object [("error", value)] => (readErrorBody value).map .inr
  | _ => none

/-! ## The two ends -/

/-- `REQUEST_LIMIT` (`admin.rs:41`). -/
def REQUEST_LIMIT : Nat := 16 * 1024

/-- `REPLY_LIMIT` (`client.rs:12`). -/
def REPLY_LIMIT : Nat := 256 * 1024

/-- What the `admin` command asks for (`client.rs:27`). -/
inductive AdminOperation where
  | holds (after : Option String)
  | releaseHolds (hold : String × Int) (circleNotAccepted : Bool)

section
variable (C : Crates) (config : Config) (tryFromHex : String → Option NoteId) (parse : Bytes → Option Json)

/-- `read_request` (`admin.rs:376-379`), once the line is in. -/
def readRequest (line : Bytes) : Except AdminError AdminRequest := do
  ensure (line.length ≤ REQUEST_LIMIT) .requestTooLarge
  orThrow (parse line >>= AdminRequest.deserialize) (.invalidInput "invalid request")

/-- A connection whose command is taken up at once: the store after it, and the reply line. -/
def serveLine (s : Store) (line : Bytes) : Store × Bytes :=
  match readRequest parse line >>= handle tryFromHex with
  | .error error => (s, encode (.error error))
  | .ok operation =>
    let (s', result) := perform C config s operation
    (s', encode (result.mapError .release))

/-- `parse_cursor` (`client.rs:46`), with the texts of `parse_note_id`. -/
def parseCursor (value : String) : Except String String := do
  let id ← orThrow (tryFromHex value) "invalid note ID"
  ensure (id.toHex = value) "note ID must use canonical lowercase hex"
  pure value

/-- `str::rsplit_once`. -/
def rsplitOnce (separator : Char) (text : List Char) : Option (List Char × List Char) :=
  match text.reverse.dropWhile (· != separator) with
  | [] => none
  | _ :: before => some (before.reverse, (text.reverse.takeWhile (· != separator)).reverse)

/-- `str::parse::<i64>`. -/
def parseI64 : List Char → Option Int
  | '-' :: digits => ((Json.decimal digits).filter fun n => decide (n ≤ I64.MAX + 1)).map fun n : Nat => -(n : Int)
  | '+' :: digits => ((Json.decimal digits).filter fun n => decide (n ≤ I64.MAX)).map fun n : Nat => (n : Int)
  | digits => ((Json.decimal digits).filter fun n => decide (n ≤ I64.MAX)).map fun n : Nat => (n : Int)

/-- `parse_selection` (`client.rs:52`). -/
def parseSelection (value : String) : Except String (String × Int) := do
  let (id, seq) ← orThrow (rsplitOnce ':' value.toList) "hold must be NOTE_ID:EVENT_SEQ"
  let id ← parseCursor tryFromHex (String.ofList id)
  let revision ← orThrow (parseI64 seq) "event sequence must be a positive integer"
  ensure (0 < revision) "event sequence must be positive"
  pure (id, revision)

namespace AdminOperation

def request : AdminOperation → AdminRequest
  | .holds after => .holds after
  | .releaseHolds (noteId, expectedEventSeq) circleNotAccepted => .release noteId expectedEventSeq circleNotAccepted

/-- What `exchange` sends (`client.rs:72-73`). -/
def line (operation : AdminOperation) : Bytes := operation.request.serialize.line

/-- What it makes of a reply that came in time (`client.rs:86-93`). -/
def answer {α : Type} (read : Json → Option α) (reply : Bytes) : Except String α := do
  ensure (reply.length ≤ REPLY_LIMIT) "admin reply exceeds limit; list holds before selecting another release"
  match ← orThrow (parse reply >>= readReply read) "invalid admin reply" with
  | .inl value => pure value
  | .inr error => throw ("admin request failed (" ++ error.code ++ "): " ++ error.message)

def readPage (document : Json) : Option Shown := (ShownPage.deserialize document).map .page

/-- `run` (`client.rs:97`) up to what it prints. -/
def run (operation : AdminOperation) (reply : Bytes) : Except String Shown :=
  match operation with
  | .holds _ => answer parse readPage reply
  | .releaseHolds _ _ => answer parse readReleased reply

end AdminOperation

end

/-- What `run` prints (`client.rs:104-137`). -/
def Shown.printed : Shown → List String
  | .page listed =>
    ["faucet " ++ listed.faucetAccountId,
      "trusted anchor " ++ listed.trustedAnchorBlock.repr ++ " " ++ listed.trustedAnchorCommitment] ++
    listed.holds.map (fun hold => hold.noteId ++ "\t" ++ hold.kind ++ "\t" ++ hold.reason ++ "\t" ++
      (hold.httpStatus.map Nat.repr).getD "-" ++ "\t" ++ hold.circleMessage.getD "-" ++ "\tevent_seq=" ++
      toString hold.eventSeq) ++
    (listed.nextAfter.map fun after => "next_after=" ++ after).toList
  | .released burns withdrawals =>
    ["released burns=" ++ burns.repr ++ " withdrawals=" ++ withdrawals.repr ++
      " (release committed; payout is not confirmed)"]

/-! ## Reading back -/

/-- `serde_json` reads the document from the line it wrote. -/
def ReadsLine (parse : Bytes → Option Json) (document : Json) : Prop := parse document.line = some document

theorem decimal_repr (n : Nat) : Json.decimal n.repr.toList = some n := by
  have hdigits : (Nat.toDigits 10 n).all Char.isDigit = true :=
    List.all_eq_true.2 fun c hc => Nat.isDigit_of_mem_toDigits (by decide) (by decide) hc
  have hne : Nat.toDigits 10 n ≠ [] := List.ne_nil_of_length_pos Nat.length_toDigits_pos
  rw [Nat.toList_repr, Json.decimal, if_pos ⟨hne, hdigits⟩, Nat.ofDigitChars_ten_toDigits]

theorem asNat_ofNat {bound n : Nat} (h : n < bound) : (Json.ofNat n).asNat bound = some n := by
  rw [Json.ofNat, Json.asNat, decimal_repr, Option.filter_some, if_pos (by simpa using h)]

theorem toString_natCast (n : Nat) : toString (n : Int) = n.repr := rfl

/-- No digit is a sign. -/
theorem repr_ne_cons {n : Nat} {c : Char} {rest : List Char} (hc : c.isDigit = false) : n.repr.toList ≠ c :: rest := by
  intro h
  have hmem : c ∈ Nat.toDigits 10 n := by
    rw [← Nat.toList_repr, h]
    exact List.mem_cons_self
  rw [Nat.isDigit_of_mem_toDigits (by decide) (by decide) hmem] at hc
  cases hc

theorem asI64_natCast {n : Nat} (h : n ≤ I64.MAX) : Json.asI64 (.number (toString (n : Int))) = some (n : Int) := by
  rw [toString_natCast, Json.asI64]
  split
  · rename_i digits hdigits
    exact absurd hdigits (repr_ne_cons (by decide))
  · rw [decimal_repr, Option.filter_some, if_pos (by simpa using h)]
    rfl

theorem parseI64_repr {n : Nat} (h : n ≤ I64.MAX) : parseI64 n.repr.toList = some (n : Int) := by
  rw [parseI64]
  · rw [decimal_repr, Option.filter_some, if_pos (by simpa using h)]
    rfl
  · exact fun digits hdigits => repr_ne_cons (by decide) hdigits
  · exact fun digits hdigits => repr_ne_cons (by decide) hdigits

theorem optional_ofOption {α : Type} {write : α → Json} {read : Json → Option α} {value : Option α}
    (hnull : ∀ a, write a ≠ .null) (h : ∀ a, value = some a → read (write a) = some a) :
    Json.optional read (some (Json.ofOption write value)) = some value := by
  cases value with
  | none => rfl
  | some a =>
    show Json.optional read (some (write a)) = _
    have hread := h a rfl
    cases hdoc : write a with
    | null => exact absurd hdoc (hnull a)
    | _ =>
      rw [hdoc] at hread
      show (read _).map some = _
      rw [hread]
      rfl

theorem asList_map {α : Type} {write : α → Json} {read : Json → Option α} {values : List α}
    (h : ∀ a ∈ values, read (write a) = some a) : Json.asList read (.array (values.map write)) = some values := by
  show (values.map write).mapM read = some values
  induction values with
  | nil => rfl
  | cons a values ih =>
    rw [List.map_cons, List.mapM_cons, h a List.mem_cons_self, ih fun b hb => h b (List.mem_cons_of_mem _ hb)]
    rfl

/-- The numbers are of the types of the source's columns. -/
structure ShownHold.Typed (hold : ShownHold) : Prop where
  status : ∀ status, hold.httpStatus = some status → status < 2 ^ 16
  seq : ∃ n : Nat, hold.eventSeq = n ∧ n ≤ I64.MAX

theorem ShownHold.read {hold : ShownHold} (h : hold.Typed) : ShownHold.deserialize hold.serialize = some hold := by
  obtain ⟨noteId, kind, reason, httpStatus, circleMessage, eventSeq⟩ := hold
  obtain ⟨n, hn, hmax⟩ := h.seq
  obtain rfl : eventSeq = n := hn
  have hcolumns : (ShownHold.serialize ⟨noteId, kind, reason, httpStatus, circleMessage, n⟩).columns
      ["note_id", "kind", "reason", "http_status", "circle_message", "event_seq"] =
        some [some (.string noteId), some (.string kind), some (.string reason),
          some (Json.ofOption Json.ofNat httpStatus), some (Json.ofOption .string circleMessage),
          some (.number (toString (n : Int)))] := rfl
  have hstatus : Json.optional (Json.asNat (2 ^ 16)) (some (Json.ofOption Json.ofNat httpStatus)) = some httpStatus :=
    optional_ofOption (fun _ => nofun) fun a ha => asNat_ofNat (h.status a ha)
  have hmessage : Json.optional Json.asStr (some (Json.ofOption .string circleMessage)) = some circleMessage :=
    optional_ofOption (fun _ => nofun) fun a _ => rfl
  simp only [ShownHold.deserialize, hcolumns, Option.bind_eq_bind, Option.bind_some, Json.asStr, hstatus, hmessage,
    asI64_natCast hmax, Option.pure_def]

def Shown.Typed : Shown → Prop
  | .page listed => listed.trustedAnchorBlock < 2 ^ 32 ∧ ∀ hold ∈ listed.holds, hold.Typed
  | .released burns withdrawals => burns < 2 ^ 64 ∧ withdrawals < 2 ^ 64

theorem ShownPage.read {listed : ShownPage} (h : (Shown.page listed).Typed) :
    ShownPage.deserialize listed.serialize = some listed := by
  obtain ⟨faucet, block, commitment, holds, nextAfter⟩ := listed
  have hcolumns : (ShownPage.serialize ⟨faucet, block, commitment, holds, nextAfter⟩).columns
      ["faucet_account_id", "trusted_anchor_block", "trusted_anchor_commitment", "holds", "next_after"] =
        some [some (.string faucet), some (Json.ofNat block), some (.string commitment),
          some (.array (holds.map ShownHold.serialize)), some (Json.ofOption .string nextAfter)] := rfl
  have hholds : Json.asList ShownHold.deserialize (.array (holds.map ShownHold.serialize)) = some holds :=
    asList_map fun hold hhold => ShownHold.read (h.2 hold hhold)
  have hnext : Json.optional Json.asStr (some (Json.ofOption .string nextAfter)) = some nextAfter :=
    optional_ofOption (fun _ => nofun) fun a _ => rfl
  simp only [ShownPage.deserialize, hcolumns, Option.bind_eq_bind, Option.bind_some, Json.asStr, asNat_ofNat h.1, hholds,
    hnext, Option.pure_def]

theorem readReleased_serialize {burns withdrawals : Nat} (h : (Shown.released burns withdrawals).Typed) :
    readReleased (Shown.released burns withdrawals).serialize = some (.released burns withdrawals) := by
  have hcolumns : (Shown.serialize (.released burns withdrawals)).columns ["burns", "withdrawals"] =
      some [some (Json.ofNat burns), some (Json.ofNat withdrawals)] := rfl
  simp only [readReleased, hcolumns, Option.bind_eq_bind, Option.bind_some, asNat_ofNat h.1, asNat_ofNat h.2,
    Option.pure_def]

section
variable {parse : Bytes → Option Json} {α : Type} {read : Json → Option α}

theorem answer_ok {a : Answer} {value : α} (hline : ReadsLine parse (replyOf (.ok a)))
    (hsize : (encode (.ok a)).length ≤ REPLY_LIMIT) (hread : read (Shown.of a).serialize = some value) :
    AdminOperation.answer parse read (encode (.ok a)) = .ok value := by
  have hreply : readReply read (replyOf (.ok a)) = some (.inl value) := by
    show (read (Shown.of a).serialize).map Sum.inl = _
    rw [hread]
    rfl
  have hparse : parse (encode (.ok a)) = some (replyOf (.ok a)) := hline
  simp only [AdminOperation.answer, ensure, if_pos hsize, hparse, Option.bind_eq_bind, Option.bind_some, hreply]
  rfl

/-- What the operator is told of an error. -/
def AdminError.told (error : AdminError) : String :=
  "admin request failed (" ++ error.body.code ++ "): " ++ error.body.message

theorem answer_error {error : AdminError} (hline : ReadsLine parse (replyOf (.error error)))
    (hsize : (encode (.error error)).length ≤ REPLY_LIMIT) :
    AdminOperation.answer parse read (encode (.error error)) = .error error.told := by
  have hreply : readReply read (replyOf (.error error)) = some (.inr error.body) := rfl
  have hparse : parse (encode (.error error)) = some (replyOf (.error error)) := hline
  simp only [AdminOperation.answer, ensure, if_pos hsize, hparse, Option.bind_eq_bind, Option.bind_some, hreply]
  rfl

end

/-- A request reads back. -/
theorem request_read {request : AdminRequest}
    (h : ∀ noteId seq flag, request = .release noteId seq flag → ∃ n : Nat, seq = n ∧ n ≤ I64.MAX) :
    AdminRequest.deserialize request.serialize = some request := by
  cases request with
  | holds after =>
    have hafter : Json.optional Json.asStr (some (Json.ofOption .string after)) = some after :=
      optional_ofOption (fun _ => nofun) fun a _ => rfl
    have hfields : variantFields ["after"] 0 (.inl [("after", Json.ofOption .string after)]) =
        some [some (Json.ofOption .string after)] := rfl
    show readHolds (.inl [("after", Json.ofOption .string after)]) = _
    simp only [readHolds, hfields, Option.bind_eq_bind, Option.bind_some, hafter, Option.pure_def]
  | release noteId seq flag =>
    obtain ⟨n, rfl, hmax⟩ := h noteId seq flag rfl
    have hfields : variantFields ["note_id", "expected_event_seq", "circle_not_accepted"] 2
        (.inl [("note_id", .string noteId), ("expected_event_seq", .number (toString (n : Int))),
          ("circle_not_accepted", .bool flag)]) =
        some [some (.string noteId), some (.number (toString (n : Int))), some (.bool flag)] := rfl
    show readRelease (.inl [("note_id", .string noteId), ("expected_event_seq", .number (toString (n : Int))),
      ("circle_not_accepted", .bool flag)]) = _
    simp only [readRelease, hfields, Option.bind_eq_bind, Option.bind_some, Json.asStr, asI64_natCast hmax, defaulted,
      Json.asBool, Option.pure_def]

/-! ## Sizes -/

/-- The bytes a text takes. -/
def size (text : List Char) : Nat := (text.map Char.utf8Size).sum

theorem utf8_length (text : List Char) : (utf8 text).length = size text := by
  simp only [utf8, size, List.length_flatMap, String.length_utf8EncodeChar]

@[simp] theorem size_nil : size [] = 0 := rfl

@[simp] theorem size_cons (c : Char) (text : List Char) : size (c :: text) = c.utf8Size + size text := by
  simp [size]

@[simp] theorem size_append (a b : List Char) : size (a ++ b) = size a + size b := by
  simp [size]

theorem line_length (document : Json) : document.line.length = size document.compact + 1 := by
  rw [Json.line, List.length_append, utf8_length]
  rfl

/-- A printed ASCII character that no string escapes. -/
def Plain (c : Char) : Prop := 0x20 ≤ c.toNat ∧ c.toNat < 0x7F ∧ c.toNat ≠ 0x22 ∧ c.toNat ≠ 0x5C

instance (c : Char) : Decidable (Plain c) := inferInstanceAs (Decidable (_ ∧ _ ∧ _ ∧ _))

theorem plain_of_all {text : List Char} (h : (text.all fun c => decide (Plain c)) = true) : ∀ c ∈ text, Plain c :=
  fun c hc => of_decide_eq_true (List.all_eq_true.1 h c hc)

theorem utf8Size_ascii {c : Char} (h : c.toNat < 0x80) : c.utf8Size = 1 := by
  have hval : c.val ≤ 0x7F := UInt32.le_iff_toNat_le.2 (Nat.le_of_lt_succ h)
  exact if_pos hval

theorem size_ascii {text : List Char} (h : ∀ c ∈ text, c.toNat < 0x80) : size text = text.length := by
  induction text with
  | nil => rfl
  | cons c text ih =>
    rw [size_cons, utf8Size_ascii (h c List.mem_cons_self), ih fun d hd => h d (List.mem_cons_of_mem _ hd),
      List.length_cons, Nat.add_comm]

theorem Plain.escape {c : Char} (h : Plain c) : Json.escape c = [c] := by
  obtain ⟨hlow, -, hquote, hslash⟩ := h
  unfold Json.escape
  split
  all_goals first | omega | skip
  rw [if_neg (by omega)]

theorem Plain.escaped_size {text : List Char} (h : ∀ c ∈ text, Plain c) :
    size (text.flatMap Json.escape) = text.length := by
  have hsame : text.flatMap Json.escape = text := by
    induction text with
    | nil => rfl
    | cons c text ih =>
      rw [List.flatMap_cons, (h c List.mem_cons_self).escape, ih fun d hd => h d (List.mem_cons_of_mem _ hd)]
      rfl
  rw [hsame, size_ascii fun c hc => Nat.lt_trans (h c hc).2.1 (by decide)]

/-- A character that is no control takes four bytes at most. -/
theorem escape_size {c : Char} (h : isControl c = false) : size (Json.escape c) ≤ 4 := by
  have hlow : ¬ c.toNat ≤ 0x1F := by
    intro hle
    simp [isControl, hle] at h
  have hfour : c.utf8Size ≤ 4 := Char.utf8Size_le_four c
  unfold Json.escape
  split
  · have hone : c.utf8Size = 1 := utf8Size_ascii (by omega)
    rw [size_cons, size_cons, hone]
    decide
  · have hone : c.utf8Size = 1 := utf8Size_ascii (by omega)
    rw [size_cons, size_cons, hone]
    decide
  all_goals first | omega | skip
  rw [if_neg (by omega), size_cons, size_nil]
  exact hfour

theorem escaped_size {text : List Char} (h : ∀ c ∈ text, isControl c = false) :
    size (text.flatMap Json.escape) ≤ 4 * text.length := by
  induction text with
  | nil => exact Nat.le_refl 0
  | cons c text ih =>
    have hfirst := escape_size (h c List.mem_cons_self)
    have hrest := ih fun d hd => h d (List.mem_cons_of_mem _ hd)
    rw [List.flatMap_cons, size_append, List.length_cons]
    omega

theorem quoted_size (text : String) : size (Json.quoted text) = size (text.toList.flatMap Json.escape) + 2 := by
  have hquote : Json.quote.utf8Size = 1 := by decide
  simp only [Json.quoted, size_cons, size_append, size_nil, hquote, List.cons_append]
  omega

theorem quoted_plain {text : String} (h : ∀ c ∈ text.toList, Plain c) :
    size (Json.quoted text) = text.toList.length + 2 := by
  rw [quoted_size, Plain.escaped_size h]

theorem repr_size {n k : Nat} (hk : 0 < k) (h : n < 10 ^ k) : size n.repr.toList ≤ k := by
  have hascii : ∀ c ∈ Nat.toDigits 10 n, c.toNat < 0x80 := by
    intro c hc
    have hdigit := Nat.isDigit_of_mem_toDigits (by decide) (by decide) hc
    simp only [Char.isDigit, Bool.and_eq_true, decide_eq_true_eq] at hdigit
    exact Nat.lt_of_le_of_lt (UInt32.le_iff_toNat_le.1 hdigit.2) (by decide)
  have hlength := (Nat.length_repr_le_iff hk).2 h
  rw [← String.length_toList, Nat.toList_repr] at hlength
  rw [Nat.toList_repr, size_ascii hascii]
  exact hlength

theorem items_size {items : List Json} {bound : Nat} (h : ∀ item ∈ items, size item.compact ≤ bound) :
    size (Json.compactItems items) ≤ items.length * (bound + 1) := by
  induction items with
  | nil => exact Nat.zero_le _
  | cons item items ih =>
    have hitem := h item List.mem_cons_self
    have hitems := ih fun other hother => h other (List.mem_cons_of_mem _ hother)
    have hcomma : ','.utf8Size = 1 := by decide
    cases items with
    | nil =>
      rw [Json.compactItems, List.length_singleton]
      omega
    | cons second rest =>
      rw [Json.compactItems, size_append, size_cons, hcomma, List.length_cons, Nat.succ_mul]
      · omega
      · exact nofun

/-! ## What is listed is short -/

/-- What is known of a listed hold: Circle's message is cut to 200 characters and has no controls, and the numbers are
of the types of their columns. -/
structure Short (entry : HoldEntry) : Prop where
  reason : ∀ c ∈ entry.reason.toList, Plain c
  reasonLength : entry.reason.toList.length ≤ 17
  message : ∀ message, entry.circleMessage = some message →
    message.toList.length ≤ 200 ∧ ∀ c ∈ message.toList, isControl c = false
  status : ∀ status, entry.httpStatus = some status → status < 2 ^ 16
  seq : entry.eventSeq ≤ I64.MAX

theorem hexDigits_plain (len n : Nat) : ∀ c ∈ '0' :: 'x' :: hexDigits len n, Plain c := by
  have hdigit : ∀ n < 16, Plain (Hex.digit n) := by decide
  have hdigits : ∀ c ∈ hexDigits len n, Plain c := by
    induction len generalizing n with
    | zero => exact fun c hc => by cases hc
    | succ len ih =>
      intro c hc
      rcases List.mem_append.1 hc with hc | hc
      · exact ih _ c hc
      · rw [List.mem_singleton.1 hc]
        exact hdigit _ (Nat.mod_lt n (by decide))
  intro c hc
  rcases List.mem_cons.1 hc with rfl | hc
  · decide
  · rcases List.mem_cons.1 hc with rfl | hc
    · decide
    · exact hdigits c hc

theorem toHex_plain (n : NoteId) : ∀ c ∈ n.toHex.toList, Plain c := by
  rw [NoteId.toHex, String.toList_ofList]
  exact hexDigits_plain 64 _

theorem toHex_length (n : NoteId) : n.toHex.toList.length = 66 := by
  rw [NoteId.toHex, String.toList_ofList, List.length_cons, List.length_cons,
    (hexDigits_read 64 _ (lt_of_lt_of_eq n.word.isLt (by decide))).1]

theorem Short.compact_size {entry : HoldEntry} (h : Short entry) :
    size (ShownHold.of entry).serialize.compact ≤ 1100 := by
  have hid : size (Json.quoted entry.noteId.toHex) = 68 := by
    rw [quoted_plain (toHex_plain _), toHex_length]
  have hkind : size (Json.quoted entry.kind.text) ≤ 12 := by
    cases entry.kind <;> decide
  have hreason : size (Json.quoted entry.reason) ≤ 19 := by
    rw [quoted_plain h.reason]
    exact Nat.add_le_add_right h.reasonLength 2
  have hstatus : size (Json.ofOption Json.ofNat entry.httpStatus).compact ≤ 5 := by
    cases hs : entry.httpStatus with
    | none => decide
    | some status => exact repr_size (by decide) (Nat.lt_trans (h.status status hs) (by decide))
  have hmessage : size (Json.ofOption Json.string entry.circleMessage).compact ≤ 802 := by
    cases hm : entry.circleMessage with
    | none => decide
    | some message =>
      obtain ⟨hlength, hcontrol⟩ := h.message message hm
      have hescaped := escaped_size hcontrol
      show size (Json.quoted message) ≤ 802
      rw [quoted_size]
      omega
  have hseq : size (Json.number (toString (entry.eventSeq : Int))).compact ≤ 19 :=
    repr_size (by decide) (Nat.lt_of_le_of_lt h.seq (by decide))
  have hkeys : size (Json.quoted "note_id") = 9 ∧ size (Json.quoted "kind") = 6 ∧ size (Json.quoted "reason") = 8 ∧
      size (Json.quoted "http_status") = 13 ∧ size (Json.quoted "circle_message") = 16 ∧
      size (Json.quoted "event_seq") = 11 := by decide
  have hmarks : '{'.utf8Size = 1 ∧ '}'.utf8Size = 1 ∧ ','.utf8Size = 1 ∧ ':'.utf8Size = 1 := by decide
  simp only [Json.compact] at hseq
  simp only [ShownHold.serialize, ShownHold.of, Json.compact, Json.compactFields, size_append, size_cons, size_nil]
  omega

theorem hexText_size {digits n : Nat} (h : n < Nat.pow 16 digits) :
    size (Json.quoted (hexText digits n)) = digits + 4 := by
  have hplain : ∀ c ∈ (hexText digits n).toList, Plain c := by
    rw [hexText, String.toList_ofList]
    exact hexDigits_plain digits n
  rw [quoted_plain hplain, hexText, String.toList_ofList, List.length_cons, List.length_cons,
    (hexDigits_read digits n h).1]

/-- A page fits, whatever Circle wrote about its holds. -/
theorem page_fits {listed : HoldsPage} (hblock : listed.trustedAnchor.blockNum < 2 ^ 32)
    (hcount : listed.holds.length ≤ HOLDS_PAGE) (hshort : ∀ entry ∈ listed.holds, Short entry) :
    (encode (.ok (.page listed))).length ≤ REPLY_LIMIT := by
  have hfaucet : size (Json.quoted (hexText 30 listed.faucetAccountId.raw.toNat)) = 34 :=
    hexText_size (lt_of_lt_of_eq listed.faucetAccountId.raw.isLt (by decide))
  have hcommitment : size (Json.quoted (hexText 64 listed.trustedAnchor.commitment.toNat)) = 68 :=
    hexText_size (lt_of_lt_of_eq listed.trustedAnchor.commitment.isLt (by decide))
  have hblockText : size listed.trustedAnchor.blockNum.repr.toList ≤ 10 :=
    repr_size (by decide) (Nat.lt_trans hblock (by decide))
  have hitems : size (Json.compactItems (listed.holds.map fun entry => (ShownHold.of entry).serialize)) ≤
      100 * 1101 := by
    have hitem : ∀ item ∈ listed.holds.map (fun entry => (ShownHold.of entry).serialize), size item.compact ≤ 1100 := by
      intro item hitem
      obtain ⟨entry, hentry, rfl⟩ := List.mem_map.1 hitem
      exact (hshort entry hentry).compact_size
    have hitems := items_size hitem
    rw [List.length_map] at hitems
    exact Nat.le_trans hitems (Nat.mul_le_mul_right _ hcount)
  have hnext : size (Json.ofOption Json.string (listed.nextAfter.map NoteId.toHex)).compact ≤ 68 := by
    cases listed.nextAfter with
    | none => decide
    | some n =>
      show size (Json.quoted n.toHex) ≤ 68
      rw [quoted_plain (toHex_plain n), toHex_length]
  have hkeys : size (Json.quoted "ok") = 4 ∧ size (Json.quoted "faucet_account_id") = 19 ∧
      size (Json.quoted "trusted_anchor_block") = 22 ∧ size (Json.quoted "trusted_anchor_commitment") = 27 ∧
      size (Json.quoted "holds") = 7 ∧ size (Json.quoted "next_after") = 12 := by decide
  have hmarks : '{'.utf8Size = 1 ∧ '}'.utf8Size = 1 ∧ '['.utf8Size = 1 ∧ ']'.utf8Size = 1 ∧ ','.utf8Size = 1 ∧
      ':'.utf8Size = 1 := by decide
  rw [encode, line_length]
  simp only [replyOf, Shown.of, Shown.serialize, ShownPage.serialize, Json.ofNat, Json.compact, Json.compactFields,
    List.map_map, Function.comp_def, size_append, size_cons, size_nil, REPLY_LIMIT]
  omega

theorem released_fits {burns withdrawals : Nat} (hb : burns < 2 ^ 64) (hw : withdrawals < 2 ^ 64) :
    (encode (.ok (.released burns withdrawals))).length ≤ REPLY_LIMIT := by
  have hburns : size burns.repr.toList ≤ 20 := repr_size (by decide) (Nat.lt_trans hb (by decide))
  have hwithdrawals : size withdrawals.repr.toList ≤ 20 := repr_size (by decide) (Nat.lt_trans hw (by decide))
  have hkeys : size (Json.quoted "ok") = 4 ∧ size (Json.quoted "burns") = 7 ∧ size (Json.quoted "withdrawals") = 13 := by
    decide
  have hmarks : '{'.utf8Size = 1 ∧ '}'.utf8Size = 1 ∧ ','.utf8Size = 1 ∧ ':'.utf8Size = 1 := by decide
  rw [encode, line_length]
  simp only [replyOf, Shown.of, Shown.serialize, Json.ofNat, Json.compact, Json.compactFields, size_append, size_cons,
    size_nil, REPLY_LIMIT]
  omega

/-- What a refused operation is answered with. -/
theorem error_fits (error : StoreError) : (encode (.error (.release error))).length ≤ REPLY_LIMIT := by
  obtain ⟨hcode, hmessage⟩ : size (Json.quoted (AdminError.release error).body.code) ≤ 64 ∧
      size (Json.quoted (AdminError.release error).body.message) ≤ 128 := by
    cases error with
    | release refusal =>
      cases refusal with
      | notHeld n =>
        have hbefore : ∀ c ∈ "no hold for note ".toList, Plain c := plain_of_all (by decide)
        have hafter : ∀ c ∈ "; list holds to find it".toList, Plain c := plain_of_all (by decide)
        have hplain : ∀ c ∈ ("no hold for note " ++ n.toHex ++ "; list holds to find it").toList, Plain c := by
          intro c hc
          rw [String.toList_append, String.toList_append, List.mem_append, List.mem_append] at hc
          rcases hc with (hc | hc) | hc
          · exact hbefore c hc
          · exact toHex_plain n c hc
          · exact hafter c hc
        have hcode : size (Json.quoted "hold_not_found") ≤ 64 := by decide
        refine ⟨hcode, ?_⟩
        show size (Json.quoted ("no hold for note " ++ n.toHex ++ "; list holds to find it")) ≤ 128
        rw [quoted_plain hplain, String.toList_append, String.toList_append, List.length_append, List.length_append,
          toHex_length]
        decide
      | _ => decide
    | _ =>
      show size (Json.quoted "store_failed") ≤ 64 ∧ size (Json.quoted "attester store failed") ≤ 128
      decide
  have hkeys : size (Json.quoted "error") = 7 ∧ size (Json.quoted "code") = 6 ∧ size (Json.quoted "message") = 9 := by
    decide
  have hmarks : '{'.utf8Size = 1 ∧ '}'.utf8Size = 1 ∧ ','.utf8Size = 1 ∧ ':'.utf8Size = 1 := by decide
  rw [encode, line_length]
  simp only [replyOf, Json.compact, Json.compactFields, size_append, size_cons, size_nil, REPLY_LIMIT]
  omega

/-! ## What a reachable store lists -/

/-- The columns hold what SQLite and the source's types let them: `u16` statuses, and an `i64` for each row's number. -/
structure Columns (s : Store) : Prop where
  status : ∀ row ∈ s.heldRows, ∀ status, row.httpStatus = some status → status < 2 ^ 16
  seq : s.events.length ≤ I64.MAX

variable {C : Crates} {s : Store}

theorem heldRow_reason {row : HeldRow} (h : row ∈ s.heldRows) :
    (∀ c ∈ row.reason.toList, Plain c) ∧ row.reason.toList.length ≤ 17 := by
  have htexts : ∀ reason ∈ ["PrepareRejected", "TooSmallToForward", "HttpRejected", "-"],
      (reason.toList.all fun c => decide (Plain c)) = true ∧ reason.toList.length ≤ 17 := by decide
  suffices hreason : row.reason ∈ ["PrepareRejected", "TooSmallToForward", "HttpRejected", "-"] from
    ⟨plain_of_all (htexts row.reason hreason).1, (htexts row.reason hreason).2⟩
  rcases List.mem_append.1 h with h | h
  · obtain ⟨b, -, hheld⟩ := List.mem_filterMap.1 h
    obtain ⟨reason, -, rfl⟩ := Option.map_eq_some_iff.1 hheld
    cases reason <;> simp [BurnHoldReason.debug]
  · obtain ⟨r, -, hheld⟩ := List.mem_filterMap.1 h
    rw [heldSubmission] at hheld
    split at hheld
    · cases hheld
      cases r.holdReason <;> simp [HoldReason.debug]
    · cases hheld

/-- Circle's message as it is listed. -/
theorem message_short {response : Bytes} {words : List Char} (h : oneLineCircleMessage C response = some words) :
    words.length ≤ 200 := by
  obtain ⟨message, hmessage, rfl⟩ := Option.map_eq_some_iff.1 h
  obtain ⟨whole, -, rfl⟩ := Option.map_eq_some_iff.1 hmessage
  rw [String.toList_ofList]
  exact Nat.le_trans (Lines.length_join_words ' ' _) (List.length_take_le _ _)

theorem entry_short (hcolumns : Columns s) {row : HeldRow} (hrow : row ∈ s.heldRows) : Short (entryOf C s row) where
  reason := (heldRow_reason hrow).1
  reasonLength := (heldRow_reason hrow).2
  message message h := by
    obtain ⟨words, hwords, rfl⟩ := Option.map_eq_some_iff.1 h
    obtain ⟨response, -, hresponse⟩ := Option.bind_eq_some_iff.1 hwords
    rw [String.toList_ofList]
    refine ⟨Nat.le_trans (List.length_filter_le _ _) (message_short hresponse), fun c hc => ?_⟩
    simpa using (List.mem_filter.1 hc).2
  status := hcolumns.status row hrow
  seq := by
    show (s.revision row.noteId).getD 0 ≤ I64.MAX
    cases hrev : s.revision row.noteId with
    | none => exact Nat.zero_le _
    | some k => exact Nat.le_trans (revision_le hrev) hcolumns.seq

/-! ## The exchange -/

section
variable {config : Config} {tryFromHex : String → Option NoteId} {parse : Bytes → Option Json}

/-- What a command line stands for. -/
inductive Means : AdminOperation → Operation → Prop where
  | all : Means (.holds none) (.list none)
  | after (n : NoteId) : Means (.holds (some n.toHex)) (.list (some n))
  | release (n : NoteId) (seq : Nat) (flag : Bool) : 0 < seq → seq ≤ I64.MAX →
      Means (.releaseHolds (n.toHex, seq) flag) (.release ⟨n, seq, flag⟩)

theorem rsplitOnce_append {before after : List Char} {separator : Char} (h : separator ∉ after) :
    rsplitOnce separator (before ++ separator :: after) = some (before, after) := by
  have hreverse : (before ++ separator :: after).reverse = after.reverse ++ separator :: before.reverse := by simp
  have hmem : ∀ c ∈ after.reverse, (c != separator) = true := by
    intro c hc
    have hne : c ≠ separator := fun heq => h (heq ▸ List.mem_reverse.1 hc)
    simpa using hne
  have hdrop : (after.reverse ++ separator :: before.reverse).dropWhile (· != separator) =
      separator :: before.reverse := by
    rw [List.dropWhile_append_of_pos hmem]
    exact List.dropWhile_cons_of_neg (by simp)
  have htake : (after.reverse ++ separator :: before.reverse).takeWhile (· != separator) = after.reverse := by
    rw [List.takeWhile_append_of_pos hmem, List.takeWhile_cons_of_neg (by simp), List.append_nil]
  rw [rsplitOnce, hreverse, hdrop]
  simp only [htake, List.reverse_reverse]

theorem parseCursor_ok {value id : String} :
    parseCursor tryFromHex value = .ok id ↔ ∃ n, tryFromHex value = some n ∧ n.toHex = value ∧ value = id := by
  simp only [parseCursor, orThrow_bind_ok, ensure_bind_ok, pure_ok]

theorem parseSelection_ok {value id : String} {seq : Int} :
    parseSelection tryFromHex value = .ok (id, seq) ↔ ∃ text digits, rsplitOnce ':' value.toList = some (text, digits) ∧
      parseCursor tryFromHex (String.ofList text) = .ok id ∧ parseI64 digits = some seq ∧ 0 < seq := by
  simp only [parseSelection, bind_ok, orThrow_ok, ensure_ok, pure_ok, Prod.mk.injEq]
  constructor
  · rintro ⟨⟨text, digits⟩, hsplit, other, hid, revision, hseq, -, hpos, rfl, rfl⟩
    exact ⟨text, digits, hsplit, hid, hseq, hpos⟩
  · rintro ⟨text, digits, hsplit, hid, hseq, hpos⟩
    exact ⟨(text, digits), hsplit, id, hid, seq, hseq, (), hpos, rfl, rfl⟩

/-- A positive number that an `i64` holds. -/
theorem parseI64_positive {digits : List Char} {seq : Int} (h : parseI64 digits = some seq) (hpos : 0 < seq) :
    ∃ k : Nat, seq = k ∧ 0 < k ∧ k ≤ I64.MAX := by
  have hread : ∀ {digits : List Char}, ((Json.decimal digits).filter fun n => decide (n ≤ I64.MAX)).map
      (fun n : Nat => (n : Int)) = some seq → ∃ k : Nat, seq = k ∧ 0 < k ∧ k ≤ I64.MAX := by
    intro digits h
    obtain ⟨k, hk, rfl⟩ := Option.map_eq_some_iff.1 h
    obtain ⟨-, hmax⟩ := Option.filter_eq_some_iff.1 hk
    exact ⟨k, rfl, Int.natCast_pos.1 hpos, of_decide_eq_true hmax⟩
  rw [parseI64.eq_def] at h
  split at h
  · obtain ⟨k, -, rfl⟩ := Option.map_eq_some_iff.1 h
    omega
  · exact hread h
  · exact hread h

/-- A selection that parses names a note as the list prints it, and a positive number. -/
theorem parseSelection_means {value id : String} {seq : Int} (h : parseSelection tryFromHex value = .ok (id, seq))
    (flag : Bool) : ∃ operation, Means (.releaseHolds (id, seq) flag) operation := by
  obtain ⟨text, digits, -, hid, hseq, hpos⟩ := parseSelection_ok.1 h
  obtain ⟨n, -, hcanonical, rfl⟩ := parseCursor_ok.1 hid
  obtain ⟨k, rfl, hk, hmax⟩ := parseI64_positive hseq hpos
  rw [← hcanonical]
  exact ⟨_, .release n k flag hk hmax⟩

/-- A hold as it is printed is a selection of it. -/
theorem parseSelection_printed (hround : ∀ n : NoteId, tryFromHex n.toHex = some n) (n : NoteId) {seq : Nat}
    (hpos : 0 < seq) (hmax : seq ≤ I64.MAX) :
    parseSelection tryFromHex (n.toHex ++ ":" ++ seq.repr) = .ok (n.toHex, (seq : Int)) := by
  have hcolon : ':' ∉ seq.repr.toList := by
    intro h
    rw [Nat.toList_repr] at h
    have hdigit := Nat.isDigit_of_mem_toDigits (by decide) (by decide) h
    cases hdigit
  refine parseSelection_ok.2 ⟨n.toHex.toList, seq.repr.toList, ?_, ?_, parseI64_repr hmax, Int.natCast_pos.2 hpos⟩
  · rw [String.toList_append, String.toList_append, List.append_assoc]
    exact rsplitOnce_append hcolon
  · rw [String.ofList_toList]
    exact parseCursor_ok.2 ⟨n, hround n, rfl, rfl⟩

theorem line_fits {operation : AdminOperation} {op : Operation} (hmeans : Means operation op) :
    operation.line.length ≤ REQUEST_LIMIT := by
  have hid : ∀ n : NoteId, size (Json.quoted n.toHex) = 68 := by
    intro n
    rw [quoted_plain (toHex_plain n), toHex_length]
  have hmarks : '{'.utf8Size = 1 ∧ '}'.utf8Size = 1 ∧ ','.utf8Size = 1 ∧ ':'.utf8Size = 1 := by decide
  have hkeys : size (Json.quoted "op") = 4 ∧ size (Json.quoted "holds") = 7 ∧ size (Json.quoted "release") = 9 ∧
      size (Json.quoted "after") = 7 ∧ size (Json.quoted "note_id") = 9 ∧
      size (Json.quoted "expected_event_seq") = 20 ∧ size (Json.quoted "circle_not_accepted") = 21 := by decide
  rw [AdminOperation.line, line_length]
  cases hmeans with
  | all => decide
  | after n =>
    have hn := hid n
    simp only [AdminOperation.request, AdminRequest.serialize, Json.ofOption, Json.compact, Json.compactFields,
      size_append, size_cons, size_nil, REQUEST_LIMIT]
    omega
  | release n k flag _ hmax =>
    have hn := hid n
    have hseq : size (toString (k : Int)).toList ≤ 19 := repr_size (by decide) (Nat.lt_of_le_of_lt hmax (by decide))
    have hflag : size (Json.boolText flag) ≤ 5 := by
      cases flag <;> decide
    simp only [AdminOperation.request, AdminRequest.serialize, Json.compact, Json.compactFields, size_append,
      size_cons, size_nil, REQUEST_LIMIT]
    omega

theorem Means.handled (hround : ∀ n : NoteId, tryFromHex n.toHex = some n) {operation : AdminOperation}
    {op : Operation} (hmeans : Means operation op) : handle tryFromHex operation.request = .ok op := by
  have hnote : ∀ n : NoteId, parseNoteId tryFromHex n.toHex = some n := by
    intro n
    simp [parseNoteId, hround]
  cases hmeans with
  | all => rfl
  | after n =>
    simp only [AdminOperation.request, handle, orThrow_bind_ok, pure_ok]
    exact ⟨n, hnote n, rfl⟩
  | release n k flag hpos hmax =>
    simp only [AdminOperation.request, handle, orThrow_bind_ok, ensure_bind_ok, pure_ok]
    exact ⟨n, hnote n, Int.natCast_pos.2 hpos, rfl⟩

/-- The line of an operation fits, and the server reads it as what it means. -/
theorem request_handled (hround : ∀ n : NoteId, tryFromHex n.toHex = some n) {operation : AdminOperation}
    {op : Operation} (hmeans : Means operation op) (hline : ReadsLine parse operation.request.serialize) :
    operation.line.length ≤ REQUEST_LIMIT ∧ (readRequest parse operation.line >>= handle tryFromHex) = .ok op := by
  have hparsed : AdminRequest.deserialize operation.request.serialize = some operation.request := by
    refine request_read fun noteId seq flag hrequest => ?_
    cases hmeans with
    | all | after => cases hrequest
    | release n k _ _ hmax => exact ⟨k, (AdminRequest.release.inj hrequest).2.1.symm, hmax⟩
  have hread : readRequest parse operation.line = .ok operation.request := by
    have hparse : parse operation.line = some operation.request.serialize := hline
    simp only [readRequest, ensure_bind_ok, hparse, Option.bind_eq_bind, Option.bind_some, hparsed]
    exact ⟨line_fits hmeans, rfl⟩
  refine ⟨line_fits hmeans, ?_⟩
  rw [hread]
  exact hmeans.handled hround

/-- What the operator learns of a result. -/
def told (result : Except AdminError Answer) : Except String Shown :=
  match result with
  | .ok answer => .ok (.of answer)
  | .error error => .error error.told

/-- The reply fits, and the operator is told just what it says. -/
structure Delivered (parse : Bytes → Option Json) (operation : AdminOperation) (result : Except AdminError Answer) :
    Prop where
  fits : (encode result).length ≤ REPLY_LIMIT
  told : operation.run parse (encode result) = told result

theorem delivered_error {error : StoreError} (operation : AdminOperation)
    (hreply : ReadsLine parse (replyOf (.error (.release error)))) :
    Delivered parse operation (.error (.release error)) where
  fits := error_fits error
  told := by
    cases operation with
    | holds after => exact answer_error hreply (error_fits error)
    | releaseHolds hold flag => exact answer_error hreply (error_fits error)

theorem Short.typed {entry : HoldEntry} (h : Short entry) : (ShownHold.of entry).Typed where
  status := h.status
  seq := ⟨entry.eventSeq, rfl, h.seq⟩

theorem delivered_page {listed : HoldsPage} (after : Option String) (hblock : listed.trustedAnchor.blockNum < 2 ^ 32)
    (hcount : listed.holds.length ≤ HOLDS_PAGE) (hshort : ∀ entry ∈ listed.holds, Short entry)
    (hreply : ReadsLine parse (replyOf (.ok (.page listed)))) :
    Delivered parse (.holds after) (.ok (.page listed)) where
  fits := page_fits hblock hcount hshort
  told := by
    have htyped : (Shown.of (.page listed)).Typed := by
      refine ⟨hblock, fun hold hhold => ?_⟩
      obtain ⟨entry, hentry, rfl⟩ := List.mem_map.1 hhold
      exact (hshort entry hentry).typed
    have hread : AdminOperation.readPage (Shown.of (.page listed)).serialize = some (.of (.page listed)) :=
      congrArg (Option.map Shown.page) (ShownPage.read htyped)
    exact answer_ok hreply (page_fits hblock hcount hshort) hread

theorem delivered_released {burns withdrawals : Nat} (hold : String × Int) (flag : Bool) (h : burns + withdrawals = 1)
    (hreply : ReadsLine parse (replyOf (.ok (.released burns withdrawals)))) :
    Delivered parse (.releaseHolds hold flag) (.ok (.released burns withdrawals)) := by
  have hburns : burns < 2 ^ 64 := by omega
  have hwithdrawals : withdrawals < 2 ^ 64 := by omega
  exact ⟨released_fits hburns hwithdrawals,
    answer_ok hreply (released_fits hburns hwithdrawals) (readReleased_serialize ⟨hburns, hwithdrawals⟩)⟩

theorem page_short {L : List Entry} (h : Legal C L s) (hcolumns : Columns s) (after : Option NoteId) :
    ∃ entries, s.holdsPage C after = .ok entries ∧ ∀ entry ∈ entries, Short entry := by
  refine ⟨_, holdsPage_listed h after, fun entry hentry => ?_⟩
  obtain ⟨row, hrow, rfl⟩ := List.mem_map.1 (List.mem_of_mem_filter (List.mem_of_mem_take hentry))
  exact entry_short hcolumns ((List.mem_insertionSort _).1 hrow)

/-- One release is of one burn or of one withdrawal. -/
theorem releaseChecked_counts {sel : ReleaseSelection} {s' : Store} {b w : Nat}
    (h : s.releaseChecked sel = .ok (s', b, w)) : b + w = 1 := by
  have hone := releaseChecked_ok h
  unfold releaseHold at hone
  split at hone
  · simp only [bind_ok, pure_ok, Prod.mk.injEq] at hone
    obtain ⟨-, -, -, rfl, rfl⟩ := hone
    rfl
  · simp only [bind_ok, pure_ok, Prod.mk.injEq] at hone
    obtain ⟨-, -, -, -, -, -, -, rfl, rfl⟩ := hone
    rfl

/-- The answer to an operation that the attester ran. -/
def resultOf (C : Crates) (config : Config) (s : Store) (op : Operation) : Except AdminError Answer :=
  (perform C config s op).2.mapError .release

/-- Whatever an operation comes to, the operator is told. -/
theorem delivered {L : List Entry} (hlegal : Legal C L s) (hcolumns : Columns s)
    (hanchor : config.trustedAnchor.blockNum < 2 ^ 32) {operation : AdminOperation} {op : Operation}
    (hmeans : Means operation op) (hreply : ReadsLine parse (replyOf (resultOf C config s op))) :
    Delivered parse operation (resultOf C config s op) := by
  have hlist : ∀ after text, ReadsLine parse (replyOf (resultOf C config s (.list after))) →
      Delivered parse (.holds text) (resultOf C config s (.list after)) := by
    intro after text hreply
    obtain ⟨entries, hentries, hshort⟩ := page_short hlegal hcolumns after
    have hresult : resultOf C config s (.list after) = .ok (.page (pageOf config entries)) := by
      rw [resultOf, perform, hentries]
      rfl
    rw [hresult] at hreply ⊢
    exact delivered_page text hanchor (List.length_take_le _ _)
      (fun entry hentry => hshort entry (List.mem_of_mem_take hentry)) hreply
  cases hmeans with
  | all => exact hlist none none hreply
  | after n => exact hlist (some n) _ hreply
  | release n k flag hpos hmax =>
    rw [resultOf, perform] at hreply ⊢
    cases hrelease : s.releaseChecked ⟨n, k, flag⟩ with
    | error error =>
      rw [hrelease] at hreply
      exact delivered_error _ hreply
    | ok released =>
      obtain ⟨s', burns, withdrawals⟩ := released
      rw [hrelease] at hreply
      exact delivered_released _ flag (releaseChecked_counts hrelease) hreply

/-- An operation and what it comes to: the server takes it as it is meant, and the operator is told just what it did. -/
structure Exchanged (C : Crates) (config : Config) (tryFromHex : String → Option NoteId) (parse : Bytes → Option Json)
    (s : Store) (operation : AdminOperation) (op : Operation) : Prop where
  request : operation.line.length ≤ REQUEST_LIMIT
  served : serveLine C config tryFromHex parse s operation.line =
    ((perform C config s op).1, encode (resultOf C config s op))
  reply : Delivered parse operation (resultOf C config s op)

/-- In a store that a run has left, every operation an operator can give goes through as it is meant, and its answer
comes back whole, whatever Circle wrote about the holds. -/
theorem admin_exchange (lifetimes : List Lifetime) (hcolumns : Columns (runAll C lifetimes).store)
    (hanchor : config.trustedAnchor.blockNum < 2 ^ 32) (hround : ∀ n : NoteId, tryFromHex n.toHex = some n)
    {operation : AdminOperation} {op : Operation} (hmeans : Means operation op)
    (hrequest : ReadsLine parse operation.request.serialize)
    (hreply : ReadsLine parse (replyOf (resultOf C config (runAll C lifetimes).store op))) :
    Exchanged C config tryFromHex parse (runAll C lifetimes).store operation op := by
  obtain ⟨hfits, hhandled⟩ := request_handled hround hmeans hrequest
  refine ⟨hfits, ?_, delivered (runs_legal lifetimes) hcolumns hanchor hmeans hreply⟩
  rw [serveLine, hhandled]
  rfl

def Sample.listing : Except AdminError Answer :=
  resultOf LightAttester.Sample.crates LightAttester.Sample.config
    (runAll LightAttester.Sample.crates Sample.refused).store (.list none)

/-- A reader of the two lines of that exchange. -/
def Sample.read (bytes : Bytes) : Option Json :=
  if bytes = AdminOperation.line (.holds none) then some (AdminOperation.request (.holds none)).serialize
  else if bytes = encode Sample.listing then some (replyOf Sample.listing)
  else none

theorem Sample.listed : Columns (runAll LightAttester.Sample.crates Sample.refused).store ∧
    encode Sample.listing ≠ AdminOperation.line (.holds none) ∧
    0 < (allEntries LightAttester.Sample.crates (runAll LightAttester.Sample.crates Sample.refused).store).length := by
  have hfacts : ((∀ row ∈ (runAll LightAttester.Sample.crates Sample.refused).store.heldRows,
        ∀ status, row.httpStatus = some status → status < 2 ^ 16) ∧
      (runAll LightAttester.Sample.crates Sample.refused).store.events.length ≤ I64.MAX) ∧
      encode Sample.listing ≠ AdminOperation.line (.holds none) ∧
      0 < (allEntries LightAttester.Sample.crates
        (runAll LightAttester.Sample.crates Sample.refused).store).length := by
    decide +kernel
  exact ⟨⟨hfacts.1.1, hfacts.1.2⟩, hfacts.2⟩

theorem admin_exchange_listed : Exchanged LightAttester.Sample.crates LightAttester.Sample.config
    LightAttester.Sample.tryFromHex Sample.read (runAll LightAttester.Sample.crates Sample.refused).store (.holds none)
    (.list none) := by
  obtain ⟨hcolumns, hother, -⟩ := Sample.listed
  refine admin_exchange Sample.refused hcolumns (by decide) tryFromHex_toHex .all (if_pos rfl) ?_
  show Sample.read (encode Sample.listing) = some (replyOf Sample.listing)
  rw [Sample.read, if_neg hother, if_pos rfl]

/-- What becomes of a listed hold that is given back by its note and its number. -/
structure GivenBack (C : Crates) (config : Config) (tryFromHex : String → Option NoteId) (parse : Bytes → Option Json)
    (s : Store) (entry : HoldEntry) (s' : Store) (burns withdrawals : Nat) : Prop where
  parsed : parseSelection tryFromHex (entry.noteId.toHex ++ ":" ++ entry.eventSeq.repr) =
    .ok (entry.noteId.toHex, (entry.eventSeq : Int))
  released : s.releaseChecked (entry.selection true) = .ok (s', burns, withdrawals)
  one : burns + withdrawals = 1
  /-- The command line is served, and the operator is told of that release. -/
  told : ∀ operation, operation = AdminOperation.releaseHolds (entry.noteId.toHex, (entry.eventSeq : Int)) true →
    ReadsLine parse operation.request.serialize → ReadsLine parse (replyOf (.ok (.released burns withdrawals))) →
    ∃ reply, serveLine C config tryFromHex parse s operation.line = (s', reply) ∧
      operation.run parse reply = .ok (.released burns withdrawals)

theorem entry_seq {L : List Entry} (h : Legal C L s) (hcolumns : Columns s) {entry : HoldEntry}
    (hentry : entry ∈ allEntries C s) : 0 < entry.eventSeq ∧ entry.eventSeq ≤ I64.MAX := by
  obtain ⟨row, hrow, rfl⟩ := List.mem_map.1 hentry
  have hheld : row ∈ s.heldRows := (List.mem_insertionSort _).1 hrow
  obtain ⟨k, hk, hpos⟩ := listed_revision h hheld
  have hseq : (entryOf C s row).eventSeq = k := by
    rw [entryOf, hk]
    rfl
  exact ⟨hseq ▸ hpos, (entry_short hcolumns hheld).seq⟩

/-- Every hold that is listed can be given back as it was printed, and is then released and reported. -/
theorem listed_given_back (lifetimes : List Lifetime) (hcolumns : Columns (runAll C lifetimes).store)
    (hanchor : config.trustedAnchor.blockNum < 2 ^ 32) (hround : ∀ n : NoteId, tryFromHex n.toHex = some n)
    {entry : HoldEntry} (hentry : entry ∈ allEntries C (runAll C lifetimes).store) :
    ∃ s' burns withdrawals,
      GivenBack C config tryFromHex parse (runAll C lifetimes).store entry s' burns withdrawals := by
  have hlegal := runs_legal (C := C) lifetimes
  obtain ⟨hpos, hmax⟩ := entry_seq hlegal hcolumns hentry
  obtain ⟨s', ⟨burns, withdrawals⟩, hrelease⟩ := releaseChecked_listed hlegal hentry
  have hmeans : Means (.releaseHolds (entry.noteId.toHex, (entry.eventSeq : Int)) true)
      (.release (entry.selection true)) :=
    .release entry.noteId entry.eventSeq true hpos hmax
  refine ⟨s', burns, withdrawals, parseSelection_printed hround entry.noteId hpos hmax, hrelease,
    releaseChecked_counts hrelease, ?_⟩
  rintro operation rfl hrequest hreply
  have hperform : perform C config (runAll C lifetimes).store (.release (entry.selection true)) =
      (s', .ok (.released burns withdrawals)) := by
    rw [perform, hrelease]
  have hresult : resultOf C config (runAll C lifetimes).store (.release (entry.selection true)) =
      .ok (.released burns withdrawals) := by
    rw [resultOf, hperform]
    rfl
  obtain ⟨-, hserved, -, htold⟩ := admin_exchange lifetimes hcolumns hanchor hround hmeans hrequest (hresult ▸ hreply)
  rw [hresult] at hserved htold
  rw [hperform] at hserved
  exact ⟨_, hserved, htold⟩

theorem listed_given_back_held : ∃ entry s' burns withdrawals,
    entry ∈ allEntries LightAttester.Sample.crates (runAll LightAttester.Sample.crates Sample.refused).store ∧
    GivenBack LightAttester.Sample.crates LightAttester.Sample.config LightAttester.Sample.tryFromHex Sample.read
      (runAll LightAttester.Sample.crates Sample.refused).store entry s' burns withdrawals := by
  obtain ⟨hcolumns, -, hsome⟩ := Sample.listed
  obtain ⟨entry, hentry⟩ := List.exists_mem_of_length_pos hsome
  have hanchor : LightAttester.Sample.config.trustedAnchor.blockNum < 2 ^ 32 := by decide
  obtain ⟨s', burns, withdrawals, hback⟩ := listed_given_back Sample.refused hcolumns hanchor tryFromHex_toHex hentry
  exact ⟨entry, s', burns, withdrawals, hentry, hback⟩

end
end Admin
end LightAttester
