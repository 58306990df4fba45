import MidenUsdcx.Lib.Disk
import MidenUsdcx.Lib.Hex
import MidenUsdcx.Relayer.World
/-!
# The state file (`store.rs`)

| here | there |
| --- | --- |
| `State.serialize`, `State.deserialize` | the derives of `State` and its fields, and `circle.rs:118-130` |
| `Store.state` | `store.rs:82` |
| `Store.encoded`, `Store.tmp` | `store.rs:111-115` |
| `Disk.Step` at `Store.tmp` and the path | `store.rs:117-129` |

`World.file` takes the file for one `State` or nothing. Here it is a file: the replacement is `Disk.Step`, which may
fail anywhere and suffers power cuts, and `Denotes` is how the one stands for the other.
-/
namespace DepositRelayer
open Checked
open LightAttester (Json Bytes isBlank)

/-! ## The text of a state -/

/-- What `serde_json` and `String` do with the bytes of a document. -/
structure Text where
  pretty : Json → Bytes
  utf8 : Bytes → Option String
  fromStr : String → Option Json

/-- `MessageHash::serialize` (`circle.rs:127`). -/
def MessageHash.serialize (hash : MessageHash) : Json := .string (String.ofList ('0' :: 'x' :: Hex.encode hash.bytes))

def CircleCursor.serialize (cursor : CircleCursor) : Json := .string cursor.token

def ScanProgress.serialize (scan : ScanProgress) : Json :=
  .object [("head", scan.head.serialize), ("resume", scan.resume.serialize)]

def State.fields (s : State) : List (String × Json) :=
  ("watermark", (s.watermark.map MessageHash.serialize).getD .null) ::
    (s.scan.map fun scan => ("scan", scan.serialize)).toList

def State.serialize (s : State) : Json := .object s.fields

section
variable (C : Crates)

def readHash (value : Json) : Option MessageHash := (MessageHash.deserialize C value).toOption

def CircleCursor.deserialize (value : Json) : Option CircleCursor := value.asStr.map CircleCursor.mk

def ScanProgress.deserialize (value : Json) : Option ScanProgress := do
  match ← value.columns ["head", "resume"] with
  | [head, resume] =>
    let head ← head >>= readHash C
    let resume ← resume >>= CircleCursor.deserialize
    pure ⟨head, resume⟩
  | _ => none

def State.deserialize (value : Json) : Option State := do
  match ← value.columns ["watermark", "scan"] with
  | [watermark, scan] =>
    let watermark ← Json.optional (readHash C) watermark
    let scan ← Json.optional (ScanProgress.deserialize C) scan
    pure ⟨watermark, scan⟩
  | _ => none

/-! ## The store -/

namespace Store
variable (T : Text)

/-- `Store::state` (`store.rs:82`) of what is under the path; none where there is no file. -/
def state (display : String) (content : Option Bytes) : Except String State :=
  match content with
  | none => .ok {}
  | some bytes => do
    let text ← orThrow (T.utf8 bytes) s!"reading the state at `{display}`"
    if isBlank text then .ok {}
    else orThrow (T.fromStr text >>= State.deserialize C) s!"reading the state at `{display}`"

/-- What `set_state` writes. -/
def encoded (s : State) : Bytes := T.pretty s.serialize

end Store

end

/-- A path with a file name. -/
structure PathBuf where
  parent : String
  fileName : List Char
deriving DecidableEq

/-- `Path::file_stem`: the name up to its last dot, unless that is where it begins. -/
def fileStem (name : List Char) : List Char :=
  match name.reverse.dropWhile (· != '.') with
  | [] => name
  | _ :: before => if before.isEmpty then name else before.reverse

/-- `Path::with_extension`. -/
def PathBuf.withExtension (path : PathBuf) (extension : List Char) : PathBuf :=
  { path with fileName := fileStem path.fileName ++ '.' :: extension }

/-- The temporary file of `set_state` (`store.rs:111`). -/
def Store.tmp (path : PathBuf) : PathBuf := path.withExtension ['t', 'm', 'p']

/-! ## Reading back -/

/-- What is written of these states reads back, and begins as an object does. -/
def Text.Faithful (T : Text) (S : State → Prop) : Prop :=
  ∀ s, S s → ∃ rest, T.utf8 (T.pretty s.serialize) = some (String.ofList ('{' :: rest)) ∧
    T.fromStr (String.ofList ('{' :: rest)) = some s.serialize

/-- The hex decoder reads what `hex::encode` writes. -/
def ReadsHex (C : Crates) : Prop := ∀ bytes, C.hexDecode (String.ofList (Hex.encode bytes)) = .ok bytes

section
variable {C : Crates} {T : Text} {S : State → Prop}

theorem readHash_serialize (hC : ReadsHex C) (hash : MessageHash) : readHash C hash.serialize = some hash := by
  have hdigits : withoutHexMark (String.ofList ('0' :: 'x' :: Hex.encode hash.bytes)) =
      String.ofList (Hex.encode hash.bytes) := by
    simp only [withoutHexMark, String.toList_ofList]
  have hread : hexArray C 32 hash.serialize = .ok ⟨hash.bytes, hash.size⟩ := by
    simp only [hexArray, hexBytes, MessageHash.serialize, Json.asStr, hdigits, hC hash.bytes]
    exact dif_pos hash.size
  rw [readHash, MessageHash.deserialize, hread]
  rfl

theorem readCursor_serialize (cursor : CircleCursor) : CircleCursor.deserialize cursor.serialize = some cursor := rfl

theorem readScan_serialize (hC : ReadsHex C) (scan : ScanProgress) :
    ScanProgress.deserialize C scan.serialize = some scan := by
  have hcolumns : scan.serialize.columns ["head", "resume"] =
      some [some scan.head.serialize, some scan.resume.serialize] := rfl
  simp only [ScanProgress.deserialize, hcolumns, Option.bind_eq_bind, Option.bind_some, readHash_serialize hC,
    readCursor_serialize, Option.pure_def]

/-- A state reads back from its document. -/
theorem deserialize_serialize (hC : ReadsHex C) (s : State) : State.deserialize C s.serialize = some s := by
  obtain ⟨watermark, scan⟩ := s
  have hwatermark : Json.optional (readHash C) (some ((watermark.map MessageHash.serialize).getD .null)) =
      some watermark := by
    cases watermark with
    | none => rfl
    | some hash =>
      show (readHash C hash.serialize).map some = _
      rw [readHash_serialize hC]
      rfl
  have hscan : Json.optional (ScanProgress.deserialize C) (scan.map ScanProgress.serialize) = some scan := by
    cases scan with
    | none => rfl
    | some scan =>
      show (ScanProgress.deserialize C scan.serialize).map some = _
      rw [readScan_serialize hC]
      rfl
  have hcolumns : (State.serialize ⟨watermark, scan⟩).columns ["watermark", "scan"] =
      some [some ((watermark.map MessageHash.serialize).getD .null), scan.map ScanProgress.serialize] := by
    cases scan <;> rfl
  simp only [State.deserialize, hcolumns, Option.bind_eq_bind, Option.bind_some, hwatermark, hscan, Option.pure_def]

/-- What `set_state` writes, `state` reads, and does not take for a first run. -/
theorem state_encoded (hC : ReadsHex C) (hT : T.Faithful S) (display : String) {s : State} (hs : S s) :
    Store.state C T display (some (Store.encoded T s)) = .ok s := by
  obtain ⟨rest, hutf8, hparse⟩ := hT s hs
  have hblank : isBlank (String.ofList ('{' :: rest)) = false := by
    rw [isBlank, String.toList_ofList, List.all_cons]
    rfl
  rw [Store.state, Store.encoded, hutf8]
  show (if isBlank _ then _ else _) = _
  rw [hblank, if_neg (by decide), hparse, Option.bind_eq_bind, Option.bind_some, deserialize_serialize hC]
  rfl

/-! ## The file under the path -/

/-- The state a reader finds, and the one that a power cut goes back to. -/
structure Register where
  current : Option State
  safe : Option State

inductive Register.Step : Register → Register → Prop where
  | replace (register : Register) (s : State) : Register.Step register { register with current := some s }
  | writeBack (register : Register) : Register.Step register { register with safe := register.current }
  | powerCut (register : Register) : Register.Step register { register with current := register.safe }

variable (T S) in
/-- The bytes are a whole state. -/
def Written (bytes : Bytes) : Prop := ∃ s, S s ∧ bytes = Store.encoded T s

variable (T S) in
/-- The disks of every run of `set_state`s on this path, with such states. -/
abbrev Store.Reachable (path : PathBuf) (disk : Disk.State PathBuf Nat) : Prop :=
  Disk.Reachable (Written T S) path (Store.tmp path) disk

variable (T S) in
/-- The file stands for the register, and the register holds no other state. -/
structure Denotes (cell : Disk.Cell) (register : Register) : Prop where
  cell : cell = ⟨register.current.map (Store.encoded T), register.safe.map (Store.encoded T)⟩
  current : ∀ s, register.current = some s → S s
  safe : ∀ s, register.safe = some s → S s

/-- A step of the file is one of the register. -/
theorem Denotes.step {cell cell' : Disk.Cell} {register : Register} (h : Denotes T S cell register)
    (hstep : Disk.Cell.Step (Written T S) cell cell') :
    ∃ register', Denotes T S cell' register' ∧ Register.Step register register' := by
  obtain ⟨rfl, hcurrent, hsafe⟩ := h
  cases hstep with
  | replace content hwritten =>
    obtain ⟨s, hs, rfl⟩ := hwritten
    have hnow : ∀ held, some s = some held → S held := fun held hheld => Option.some.inj hheld ▸ hs
    exact ⟨{ register with current := some s }, ⟨rfl, hnow, hsafe⟩, .replace _ s⟩
  | writeBack => exact ⟨{ register with safe := register.current }, ⟨rfl, hcurrent, hcurrent⟩, .writeBack _⟩
  | powerCut => exact ⟨{ register with current := register.safe }, ⟨rfl, hsafe, hsafe⟩, .powerCut _⟩

/-- What `state` answers of a file that stands for a register. -/
theorem state_denotes (hC : ReadsHex C) (hT : T.Faithful S) (display : String) {path : PathBuf}
    {disk : Disk.State PathBuf Nat} {register : Register} (h : Denotes T S (disk.cell path) register) :
    Store.state C T display (disk.fs.read path) = .ok (register.current.getD {}) := by
  have hread : disk.fs.read path = register.current.map (Store.encoded T) := congrArg Disk.Cell.current h.cell
  rw [hread]
  cases hcurrent : register.current with
  | none => rfl
  | some s => exact state_encoded hC hT display (h.current s hcurrent)

theorem fileStem_append {stem extension : List Char} (hstem : stem ≠ []) (hextension : '.' ∉ extension) :
    fileStem (stem ++ '.' :: extension) = stem := by
  have hreverse : (stem ++ '.' :: extension).reverse = extension.reverse ++ '.' :: stem.reverse := by simp
  have hdrop : (extension.reverse ++ '.' :: stem.reverse).dropWhile (· != '.') = '.' :: stem.reverse := by
    rw [List.dropWhile_append_of_pos]
    · rfl
    · intro c hc
      have hne : c ≠ '.' := fun h => hextension (h ▸ List.mem_reverse.mp hc)
      simpa using hne
  have hsome : stem.reverse.isEmpty = false := by simpa using hstem
  rw [fileStem, hreverse, hdrop]
  simp [hsome]

theorem fileStem_ne_nil {name : List Char} (h : name ≠ []) : fileStem name ≠ [] := by
  unfold fileStem
  split
  · exact h
  · split
    · exact h
    · next hbefore => simpa using hbefore

/-- The temporary file is the state file itself where the state file's extension is `tmp`. -/
theorem tmp_eq_iff {path : PathBuf} :
    Store.tmp path = path ↔ ∃ stem, stem ≠ [] ∧ path.fileName = stem ++ ['.', 't', 'm', 'p'] := by
  obtain ⟨parent, name⟩ := path
  constructor
  · intro h
    have hname : fileStem name ++ ['.', 't', 'm', 'p'] = name := congrArg PathBuf.fileName h
    refine ⟨fileStem name, fileStem_ne_nil ?_, hname.symm⟩
    rintro rfl
    cases hname
  · rintro ⟨stem, hstem, hname⟩
    have hname : name = stem ++ '.' :: ['t', 'm', 'p'] := hname
    rw [hname]
    show PathBuf.mk parent (fileStem (stem ++ '.' :: ['t', 'm', 'p']) ++ '.' :: ['t', 'm', 'p']) = _
    rw [fileStem_append hstem (by decide)]

/-- A file that was only opened is no state, and reads as a first run. -/
theorem state_empty (h : T.utf8 [] = some "") (display : String) : Store.state C T display (some []) = .ok {} := by
  rw [Store.state, h]
  rfl

/-- The file under the path is a whole state in every run, unless the path has the extension `tmp`: then it is written
in place, and a reader may find it empty. -/
theorem whole_iff (hT : T.Faithful S) (hempty : T.utf8 [] = some "") {s : State} (hs : S s) (path : PathBuf) :
    (∀ disk, Store.Reachable T S path disk → ∀ bytes, disk.fs.read path = some bytes → Written T S bytes) ↔
      ¬ ∃ stem, stem ≠ [] ∧ path.fileName = stem ++ ['.', 't', 'm', 'p'] := by
  rw [← tmp_eq_iff]
  constructor
  · intro hwhole hsame
    obtain ⟨disk, hreachable, hread⟩ := Disk.torn_of_same_name (Written T S) path (0 : Nat) ⟨s, hs, rfl⟩
    have hreachable : Store.Reachable T S path disk := by
      rw [Store.Reachable, hsame]
      exact hreachable
    obtain ⟨torn, htorn, hbytes⟩ := hwhole disk hreachable [] hread
    obtain ⟨rest, hutf8, -⟩ := hT torn htorn
    have hnone : T.utf8 [] = some (String.ofList ('{' :: rest)) := by
      rw [hbytes]
      exact hutf8
    have hlist : [] = '{' :: rest := by
      have htext := congrArg String.toList (Option.some.inj (hempty.symm.trans hnone))
      exact htext.trans String.toList_ofList
    cases hlist
  · intro hpath disk hreachable bytes hread
    exact hreachable.read hpath hread

/-! ## The world's file -/

/-- A `set_state` of the world is a step of the register, or none where it failed and did not reach the file. -/
theorem answer_register {F : Feed C} (s : State) (e : Env) (w : World) (safe : Option State) :
    Register.Step ⟨w.file, safe⟩ ⟨(answer F (.setState s) e w).2.file, safe⟩ ∨
      (answer F (.setState s) e w).2.file = w.file := by
  simp only [answer]
  cases e.failure with
  | none => exact .inl (.replace ⟨w.file, safe⟩ s)
  | some failure =>
    cases e.landed with
    | true => exact .inl (.replace ⟨w.file, safe⟩ s)
    | false => exact .inr rfl

/-- What the world's file reads as is what `state` makes of the bytes that stand for it. -/
theorem world_state (hC : ReadsHex C) (hT : T.Faithful S) (display : String) {path : PathBuf}
    {disk : Disk.State PathBuf Nat} {safe : Option State} {w : World}
    (h : Denotes T S (disk.cell path) ⟨w.file, safe⟩) :
    Store.state C T display (disk.fs.read path) = .ok w.state := state_denotes hC hT display h

end

/-! ## A state that is saved -/

namespace Saved

def state : State := { watermark := some ⟨List.replicate 32 0x11, rfl⟩ }

/-- The file as an operator finds it. -/
def file : List Char := '{' :: (String.toList "\n  \"watermark\": \"0x") ++ Hex.encode (List.replicate 32 0x11) ++
  ['"', '\n', '}']

def bytes : Bytes := file.map fun c => c.toNat.toUInt8

def text : Text where
  pretty _ := bytes
  utf8 content := if content = [] then some "" else if content = bytes then some (String.ofList file) else none
  fromStr found := if found = String.ofList file then some state.serialize else none

def crates : Crates where
  parseList _ := none
  jsonText _ := ""
  invalidType _ expected := expected
  hexDecode digits := match Hex.decode digits.toList with
    | some bytes => .ok bytes
    | none => .error "Invalid character"
  parseWithRel _ := none
  statusText _ := ""
  depositIntent _ := none
  drawSerial coin := (0, coin)
  buildMintNote _ := none

theorem faithful : text.Faithful (· = state) := by
  rintro s rfl
  have hutf8 : text.utf8 bytes = some (String.ofList file) := by
    show (if bytes = [] then some "" else if bytes = bytes then some (String.ofList file) else none) = _
    rw [if_neg (by decide), if_pos rfl]
  have hparse : text.fromStr (String.ofList file) = some state.serialize := by
    show (if String.ofList file = String.ofList file then some state.serialize else none) = _
    rw [if_pos rfl]
  exact ⟨file.tail, hutf8, hparse⟩

def path : PathBuf := ⟨"/var/lib/relayer", ['s', 't', 'a', 't', 'e']⟩

/-- One whole `set_state`. -/
theorem reachable : ∃ disk, Store.Reachable text (· = state) path disk ∧ disk.fs.read path = some bytes := by
  let empty : Disk.Fs PathBuf Nat := ⟨fun _ => none, fun _ => none, fun _ => [], fun _ => true⟩
  have hunused : empty.Unused 0 := fun _ => ⟨nofun, nofun⟩
  have hfirst : Relation.ReflTransGen (Disk.Step (Written text (· = state)) path (Store.tmp path)) ⟨empty, .idle⟩
      ⟨empty, .idle⟩ := .refl
  have hwritten := (hfirst.tail (.create _ 0 bytes ⟨state, rfl, rfl⟩ (.inr ⟨rfl, hunused⟩))).tail
    (.write _ 0 bytes bytes ⟨[], List.append_nil _⟩)
  have hrenamed := (hwritten.tail (.sync _ 0 bytes rfl)).tail (.rename _ 0 bytes)
  exact ⟨_, ⟨_, ⟨rfl, rfl, rfl⟩, hrenamed⟩, by decide⟩

end Saved

theorem whole_iff_saved : Store.tmp Saved.path ≠ Saved.path ∧
    ∀ disk, Store.Reachable Saved.text (· = Saved.state) Saved.path disk →
      ∀ bytes, disk.fs.read Saved.path = some bytes → Written Saved.text (· = Saved.state) bytes := by
  refine ⟨by decide, (whole_iff Saved.faithful rfl rfl Saved.path).mpr ?_⟩
  rintro ⟨stem, hstem, hname⟩
  have hdot : '.' ∈ Saved.path.fileName := by
    rw [hname]
    simp
  revert hdot
  decide

end DepositRelayer
