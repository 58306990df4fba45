import Mathlib.Order.Defs.LinearOrder
import Mathlib.Order.Lattice
import MidenUsdcx.Lib.Hex
import MidenUsdcx.Lib.Lines
/-!
# The light attester's data

| here | there |
| --- | --- |
| `NoteId`, `Nullifier`, `AccountId`, `BlockHeader`, `SignedBlock` | the `miden_protocol` values the attester reads, cut to the parts it reads |
| `Note`, `Attachment`, `Asset` | `PublicOutputNote` and what `BurnCandidate::new` reads of it (`burn.rs:28-80`) |
| `Url`, `Request` | `reqwest::Url`, `reqwest::Request` |
| `SystemTime`, `Duration` | `std::time`, in nanoseconds |
| `Json` | `serde_json::Value` |
| the wire records | `circle.rs:428-499` |

Block numbers are `u32` in the source and heights only grow by one from a `u32`, so they are `Nat`
here. A 32-byte word is the number its bytes spell, most significant byte first: the order of two
note IDs is the order of their stored bytes.
-/
namespace LightAttester

abbrev Bytes := List UInt8
abbrev B256 := BitVec 256
abbrev U256 := BitVec 256
abbrev Address := BitVec 160

def U256.MAX : U256 := BitVec.allOnes 256

/-- `i64::MAX`, the largest integer SQLite stores. -/
def I64.MAX : Nat := 9223372036854775807

/-- `Address::into_word`: the address in the low 20 bytes of a word. -/
def Address.intoWord (a : Address) : B256 := a.setWidth 256

/-! ## Chain data -/

structure NoteId where
  word : B256
deriving Repr

/-- `ORDER BY note_id` and `note_id.to_bytes()` compare the stored bytes. -/
instance : LinearOrder NoteId :=
  LinearOrder.lift' (fun n : NoteId => n.word.toNat) fun a b h => by
    cases a; cases b; simpa [BitVec.toNat_inj] using h

structure Nullifier where
  word : B256
deriving DecidableEq, Repr

structure AccountId where
  raw : BitVec 120
deriving DecidableEq, Repr

abbrev BlockNumber := Nat

/-- A block header: its height and the commitment to all of it. -/
structure BlockHeader where
  blockNum : BlockNumber
  commitment : B256
deriving DecidableEq, Repr

structure Attachment where
  scheme : Nat
  words : List B256
deriving DecidableEq, Repr

structure Asset where
  isFungible : Bool
  faucetId : AccountId
  amount : UInt64
  elements : List UInt64
deriving DecidableEq, Repr

/-- A public output note. -/
structure Note where
  id : NoteId
  nullifier : Nullifier
  sender : AccountId
  scriptRoot : B256
  attachments : List Attachment
  assets : List Asset
  storage : List UInt64
deriving DecidableEq, Repr

inductive OutputNote where
  | isPublic (note : Note)
  | isPrivate
deriving DecidableEq

structure TransactionHeader where
  accountId : AccountId
  inputNullifiers : List Nullifier
deriving DecidableEq, Repr

structure SignedBlock where
  header : BlockHeader
  outputNoteBatches : List (List OutputNote)
  transactions : List TransactionHeader
deriving DecidableEq

structure TrustedAnchor where
  blockNum : BlockNumber
  commitment : B256
deriving DecidableEq, Repr

/-- `ScanLimits` (`chain.rs:17`): the node's reported tip and proof lag, neither of them evidence. -/
structure ScanLimits where
  latestCommittedBlock : BlockNumber
  proofLagBlock : BlockNumber
deriving DecidableEq, Repr

/-- `XReserveBurnItems`: where a burn is to be paid out. -/
structure BurnItems where
  destDomain : UInt32
  destRecipient : B256
deriving DecidableEq, Repr

/-! ## Text -/

/-- The last `len` hexadecimal digits of `n`, most significant first. -/
def hexDigits : Nat → Nat → List Char
  | 0, _ => []
  | len + 1, n => hexDigits len (n / 16) ++ [Hex.digit (n % 16)]

/-- `NoteId::to_hex`: `0x` and the 32 bytes in lowercase. -/
def NoteId.toHex (n : NoteId) : String := String.ofList ('0' :: 'x' :: hexDigits 64 n.word.toNat)

/-- `str::eq_ignore_ascii_case`. -/
def eqIgnoreAsciiCase (a b : String) : Bool := a.toList.map Char.toLower == b.toList.map Char.toLower

/-- `id.trim().is_empty()`. -/
def isBlank (s : String) : Bool := s.toList.all Lines.isWhitespace

/-- `is_well_formed_id` (`submission.rs:527`): 8-4-4-4-12 hexadecimal digits. -/
def isWellFormedId (id : String) : Bool :=
  id.toList.length == 36 && id.toList.zipIdx.all fun (c, index) =>
    if index = 8 ∨ index = 13 ∨ index = 18 ∨ index = 23 then c == '-'
    else ('0' ≤ c && c ≤ '9') || ('a' ≤ c && c ≤ 'f') || ('A' ≤ c && c ≤ 'F')

/-! ## Time -/

-- A `Duration` is a `Nat` of nanoseconds and a `SystemTime` an `Int` of nanoseconds since the Unix
-- epoch: a clock set before the epoch reads negative.

abbrev nanosPerSec : Nat := 1000000000

/-- `Duration::as_secs`. -/
def asSecs (d : Nat) : Nat := d / nanosPerSec

/-! ## HTTP -/

/-- `reqwest::StatusCode`: a code `StatusCode::from_u16` accepts. -/
structure StatusCode where
  code : Nat
  valid : 100 ≤ code ∧ code ≤ 999
deriving DecidableEq

namespace StatusCode
def ok : StatusCode := ⟨200, by decide⟩
def created : StatusCode := ⟨201, by decide⟩
def badRequest : StatusCode := ⟨400, by decide⟩
def conflict : StatusCode := ⟨409, by decide⟩
def tooManyRequests : StatusCode := ⟨429, by decide⟩
end StatusCode

/-- A parsed URL. `cannotBeABase` is the parser's own notion, of a URL such as `mailto:x`. -/
structure Url where
  scheme : String
  userInfo : String
  host : Option String
  port : Option Nat
  path : String
  query : Option String
  fragment : Option String
  cannotBeABase : Bool
deriving DecidableEq, Repr

/-- `Url::join` with an absolute path: it keeps the scheme and the authority and drops the query and
the fragment. -/
def Url.join (base : Url) (path : String) : Option Url :=
  if base.cannotBeABase then none
  else some { base with path := path, query := none, fragment := none }

inductive Method where
  | get
  | post
deriving DecidableEq, Repr

structure Request where
  method : Method
  url : Url
  body : Option Bytes
deriving DecidableEq, Repr

structure RawResponse where
  status : StatusCode
  body : Bytes
deriving DecidableEq

/-- `serde_json::Value`. An object's keys are distinct. -/
inductive Json where
  | null
  | bool (b : Bool)
  | number (text : String)
  | string (s : String)
  | array (items : List Json)
  | object (fields : List (String × Json))

namespace Json

/-- `Value::get` with a string. -/
def get (key : String) : Json → Option Json
  | .object fields => (fields.find? fun f => f.1 == key).map (·.2)
  | _ => none

/-- `Value::get` with an index. -/
def item (i : Nat) : Json → Option Json
  | .array items => items[i]?
  | _ => none

/-- `Value::as_str`. -/
def asStr : Json → Option String
  | .string s => some s
  | _ => none

/-- The value of a field as `#[derive(Deserialize)]` reads it; there must not be two. -/
def fieldOf (key : String) (fields : List (String × Json)) : Option (Option Json) :=
  match fields.filter (·.1 == key) with
  | [] => some none
  | [field] => some (some field.2)
  | _ => none

/-- `Option::deserialize`, and none for a field that is not there. -/
def optional {α : Type} (read : Json → Option α) : Option Json → Option (Option α)
  | none | some .null => some none
  | some value => (read value).map some

/-- The fields of a record. A record may also be the array of its fields. -/
def columns (names : List String) : Json → Option (List (Option Json))
  | .object fields => names.mapM fun name => fieldOf name fields
  | .array items => if items.length = names.length then some (items.map some) else none
  | _ => none

end Json

/-! ## Circle's wire records -/

/-- `StructuredHookData` (`circle.rs:465`). -/
structure StructuredHookData where
  remoteDomain : UInt32
  remoteDepositor : String
  remoteToken : String
  forwardingContractAddress : String
  forwardingCalldata : String
deriving DecidableEq, Repr

namespace Wire

/-- `circle::TransferSpec` (`circle.rs:446`), every field as Circle's text. -/
structure TransferSpec where
  version : UInt32
  sourceDomain : UInt32
  destinationDomain : UInt32
  sourceContract : String
  destinationContract : String
  sourceToken : String
  destinationToken : String
  sourceDepositor : String
  destinationRecipient : String
  sourceSigner : String
  destinationCaller : String
  value : String
  salt : String
  hookData : StructuredHookData
deriving DecidableEq, Repr

/-- `circle::BurnIntent` (`circle.rs:438`). -/
structure BurnIntent where
  maxBlockHeight : String
  maxFee : String
  spec : TransferSpec
deriving DecidableEq, Repr

end Wire

/-- `UnverifiedPrepareBatch` (`circle.rs:430`). -/
structure UnverifiedPrepareBatch where
  burnIntents : List Wire.BurnIntent
  encoded : String
  messageHashToSign : String
deriving DecidableEq, Repr

/-- Decoded wire data, not a verified or signable withdrawal (`circle.rs:424`). -/
structure UnverifiedPrepareResponse where
  batches : List UnverifiedPrepareBatch
deriving DecidableEq, Repr

structure WithdrawalResponse where
  withdrawalId : String
  /-- Circle's field is `burnTxId`; for Miden its value is the burn note ID. -/
  burnNoteId : String
  status : String
  transferSpecHashes : List String
  failureReason : Option String
deriving DecidableEq, Repr

structure WithdrawalConflict where
  withdrawalId : Option String
  burnNoteId : Option String
deriving DecidableEq, Repr

structure ConflictResponse where
  conflict : Option WithdrawalConflict
deriving DecidableEq, Repr

/-! ## The typed intent -/

namespace Eip712

/-- `eip712::TransferSpec` (`verify.rs:43`): the fields Circle's type hash covers. -/
structure TransferSpec where
  version : UInt32
  sourceDomain : UInt32
  destinationDomain : UInt32
  sourceContract : B256
  destinationContract : B256
  sourceToken : B256
  destinationToken : B256
  sourceDepositor : B256
  destinationRecipient : B256
  sourceSigner : B256
  destinationCaller : B256
  value : U256
  salt : B256
  hookData : Bytes
deriving DecidableEq, Repr

structure BurnIntent where
  maxBlockHeight : U256
  maxFee : U256
  spec : TransferSpec
deriving DecidableEq, Repr

end Eip712

/-- `cctp::depositForBurnWithHookCall` (`verify.rs:73`). -/
structure DepositForBurnWithHook where
  amount : U256
  destinationDomain : UInt32
  mintRecipient : B256
  burnToken : Address
  destinationCaller : B256
  maxFee : U256
  minFinalityThreshold : UInt32
  hookData : Bytes
deriving DecidableEq, Repr

/-- `redeposit::depositToRemoteCall` (`verify.rs:89`). -/
structure DepositToRemote where
  value : U256
  remoteDomain : UInt32
  remoteRecipient : B256
  localToken : Address
  maxFee : U256
  hookData : Bytes
deriving DecidableEq, Repr

/-- A two-of-two ECDSA signature, opaque to the attester. -/
structure Signature where
  bytes : Bytes
deriving DecidableEq, Repr

end LightAttester
