import MidenUsdcx.Attester.Submission
/-!
# Circle's attestation feed, as the relayer reads it (`circle.rs`)

| here | there |
| --- | --- |
| `MessageHash`, `CircleCursor`, `PageSize`, `Attestation`, `Entry`, `Page` | `circle.rs:35-234` |
| `Entry.decode`, `Page.decode`, `parseNextLink` | `circle.rs:172-201`, `242-260`, `409-430` |
| `hexBytes`, `hexArray`, the three fields | `circle.rs:433-480` |
| `readPage` | `fetch_page` after the request was sent (`circle.rs:323-386`) |

An entry that does not decode keeps its place on the page, and its message hash if that much can be
read. A page is refused as a whole only when the response is not a list, when it is longer than asked
for, or when its `Link` header cannot be followed.
-/
namespace DepositRelayer
open Checked
open LightAttester (Bytes B256 Json StatusCode Url AccountId FailureClass)

/-! ## Failures -/

inductive RpcEndpoint where
  | submitProvenTx
  | other
deriving DecidableEq, Repr

inductive GrpcError where
  | invalidArgument
  | other
deriving DecidableEq, Repr

inductive AddTransactionError where
  | expired
  | other
deriving DecidableEq, Repr

/-- `miden_client::ClientError`, cut to what `is_expired_submission` looks at. -/
inductive ClientError where
  | requestError (endpoint : RpcEndpoint) (errorKind : GrpcError) (endpointError : Option AddTransactionError)
  | other
deriving DecidableEq, Repr

/-- An `anyhow::Error`: its outermost text, and the client error it can be downcast to. -/
structure Error where
  text : String
  client : Option ClientError := none
deriving DecidableEq, Repr

structure Failure where
  failureClass : FailureClass
  error : Error
deriving DecidableEq, Repr

/-- `is_expired_submission` (`miden.rs:440`): the node's explicit rejection, not a timeout. -/
def isExpiredSubmission (e : Error) : Bool :=
  e.client == some (.requestError .submitProvenTx .invalidArgument (some .expired))

def Failure.transient (kind text : String) : Failure := ⟨.transient kind, { text := text }⟩

/-! ## The feed's values -/

/-- Circle's opaque `pageAfter` token, held as the feed returned it. -/
structure CircleCursor where
  token : String
deriving DecidableEq, Repr

/-- `keccak256` of an attestation's payload, which names one deposit in the feed. -/
structure MessageHash where
  bytes : Bytes
  size : bytes.length = 32
deriving DecidableEq, Repr

structure Signature where
  bytes : Bytes
  size : bytes.length = 65
deriving DecidableEq, Repr

structure Attestation where
  payload : Bytes
  messageHash : MessageHash
  signature : Signature
deriving DecidableEq, Repr

/-- One entry of a page, in the place Circle served it (`circle.rs:147`). -/
inductive Entry where
  | attestation (a : Attestation)
  | undecodable (position : Nat) (messageHash : Option MessageHash) (reason : String)
deriving DecidableEq, Repr

/-- The digest naming this entry, when it could be read. -/
def Entry.messageHash : Entry → Option MessageHash
  | .attestation a => some a.messageHash
  | .undecodable _ hash _ => hash

/-- One page of the feed, newest entry first. -/
structure Page where
  entries : List Entry
  next : Option CircleCursor
deriving DecidableEq, Repr

/-- `PageSize` (`circle.rs:55`), within Circle's range. -/
structure PageSize where
  value : Nat
  range : 1 ≤ value ∧ value ≤ 1000
deriving DecidableEq, Repr

namespace PageSize

def localProvingMax : PageSize := ⟨10, by decide⟩
def remoteProvingMax : PageSize := ⟨40, by decide⟩

/-- `Ord::min`. -/
def min (a b : PageSize) : PageSize := if a.value ≤ b.value then a else b

end PageSize

/-! ## Mint notes -/

structure DepositNonce where
  word : B256
deriving DecidableEq, Repr

/-- A decoded DepositIntent, of which the relayer itself reads nothing. -/
structure DepositIntent where
  encoded : Bytes
deriving DecidableEq, Repr

/-- A mint note. `Note::from` turns it into a protocol note on its way to the chain; the model keeps the one type. -/
structure XUsdcMintNote where
  nonce : DepositNonce
  details : Bytes
deriving DecidableEq, Repr

/-- `RandomCoin`, the generator of the notes' serial numbers. -/
structure RandomCoin where
  state : Bytes
deriving DecidableEq, Repr

/-- What `XUsdcMintNote::builder()` is given (`mint.rs:168-179`). -/
structure MintParts where
  sender : AccountId
  target : AccountId
  remoteDomain : UInt32
  depositIntent : DepositIntent
  signature : Signature
  attester : Bytes
  serialNumber : B256
deriving DecidableEq, Repr

/-! ## What comes from other crates -/

/-- Computed outside this repository, and arbitrary here. -/
structure Crates where
  /-- `serde_json::from_slice` at `ListResponse`: the elements of its `attestations`. -/
  parseList : Bytes → Option (List Json)
  /-- `Value`'s `Display`. -/
  jsonText : Json → String
  /-- `serde`'s `invalid type` error, for what was expected. -/
  invalidType : Json → String → String
  hexDecode : String → Except String Bytes
  /-- `parse_link_header::parse_with_rel`: the relations, each with the query pairs of its URI. -/
  parseWithRel : String → Option (List (String × List (String × String)))
  /-- `StatusCode`'s `Display`. -/
  statusText : StatusCode → String
  /-- `DepositIntent::try_from` the payload. -/
  depositIntent : Bytes → Option DepositIntent
  /-- `generate_serial_number`: the number drawn and the generator after it. -/
  drawSerial : RandomCoin → B256 × RandomCoin
  /-- The builder's `build`. -/
  buildMintNote : MintParts → Option XUsdcMintNote

/-! ## Decoding -/

section
variable (C : Crates)

/-- `text.strip_prefix("0x").unwrap_or(&text)`. -/
def withoutHexMark (text : String) : String :=
  match text.toList with
  | '0' :: 'x' :: digits => String.ofList digits
  | _ => text

/-- `hex_bytes` (`circle.rs:433`). -/
def hexBytes (value : Json) : Except String Bytes :=
  match value.asStr with
  | some text => C.hexDecode (withoutHexMark text)
  | none => .error (C.invalidType value "a string")

/-- `hex_array` (`circle.rs:439`): exactly `n` bytes. -/
def hexArray (n : Nat) (value : Json) : Except String { bytes : Bytes // bytes.length = n } := do
  let bytes ← hexBytes C value
  if h : bytes.length = n then pure ⟨bytes, h⟩
  else throw s!"invalid length {bytes.length}, expected {n} bytes of hex"

/-- `MessageHash::deserialize` (`circle.rs:116`). -/
def MessageHash.deserialize (value : Json) : Except String MessageHash := do
  let digest ← hexArray C 32 value
  pure ⟨digest.1, digest.2⟩

/-- `named` (`circle.rs:450`). -/
def named {α : Type} (field : String) (decoded : Except String α) : Except String α :=
  decoded.mapError fun error => s!"`{field}`: {error}"

def payloadField (value : Json) : Except String Bytes := named "payload" (hexBytes C value)

def messageHashField (value : Json) : Except String MessageHash :=
  named "messageHash" (MessageHash.deserialize C value)

def signatureField (value : Json) : Except String Signature :=
  named "attestation" ((hexArray C 65 value).map fun bytes => ⟨bytes.1, bytes.2⟩)

/-- The fields of an object read so far. -/
structure Attestation.Fields where
  payload : Option Bytes := none
  messageHash : Option MessageHash := none
  signature : Option Signature := none

/-- One key of the object; other keys are ignored. -/
def Attestation.Fields.visit (fields : Attestation.Fields) (key : String) (value : Json) :
    Except String Attestation.Fields :=
  match key with
  | "payload" => do
    let payload ← payloadField C value
    pure { fields with payload := some payload }
  | "messageHash" => do
    let hash ← messageHashField C value
    pure { fields with messageHash := some hash }
  | "attestation" => do
    let signature ← signatureField C value
    pure { fields with signature := some signature }
  | _ => pure fields

/-- The next element of an array given for an attestation. -/
def Attestation.element (items : List Json) (index : Nat) : Except String Json :=
  orThrow items[index]? s!"invalid length {index}, expected struct Attestation with 3 elements"

/-- The derived `Attestation::deserialize` (`circle.rs:130-143`). The keys are visited in the object's order and the
first that does not decode is reported; `serde` also takes the three fields as an array, and counts it only after it has
read them. -/
def Attestation.deserialize : Json → Except String Attestation
  | .object entries => do
    let fields ← entries.foldlM (fun fields entry => fields.visit C entry.1 entry.2) ({} : Attestation.Fields)
    let payload ← orThrow fields.payload "missing field `payload`"
    let hash ← orThrow fields.messageHash "missing field `messageHash`"
    let signature ← orThrow fields.signature "missing field `attestation`"
    pure ⟨payload, hash, signature⟩
  | .array items => do
    let payload ← Attestation.element items 0 >>= payloadField C
    let hash ← Attestation.element items 1 >>= messageHashField C
    let signature ← Attestation.element items 2 >>= signatureField C
    ensure (items.length ≤ 3) s!"invalid length {items.length}, expected fewer elements in array"
    pure ⟨payload, hash, signature⟩
  | value => .error (C.invalidType value "struct Attestation")

/-- `Entry::MAX_REPORTED_HASH_CHARS`. -/
def Entry.maxReportedHashChars : Nat := 80

/-- The message hash of an element that is not an attestation, when that much can be read (`circle.rs:178`). -/
def sentHash (value : Json) : Option MessageHash :=
  value.get "messageHash" >>= fun hash => (MessageHash.deserialize C hash).toOption

/-- `Entry::decode` (`circle.rs:172`): the element at `position` of the list, counting from 1. -/
def Entry.decode (position : Nat) (value : Json) : Entry :=
  match Attestation.deserialize C value with
  | .ok a => .attestation a
  | .error error =>
    let reason := match sentHash C value, value.get "messageHash" with
      | none, some sent =>
        -- Without a readable hash the text Circle sent is the closest thing to a name.
        s!"{error} (its messageHash is {String.ofList ((C.jsonText sent).toList.take Entry.maxReportedHashChars)})"
      | _, _ => error
    .undecodable position (sentHash C value) reason

/-- `parse_next_link` (`circle.rs:409`). A `next` relation without a token is an error, never the end. -/
def parseNextLink (header : String) : Except String (Option String) := do
  let links ← orThrow (C.parseWithRel header) "parsing the circle Link header"
  match links.find? fun link => link.1 == "next" with
  | none => pure none
  | some next =>
    let token := (next.2.find? fun pair => pair.1 == "pageAfter").map (·.2)
    match token.filter fun token => token != "" with
    | some token => pure (some token)
    | none => throw "the circle Link header's next relation carries no pageAfter token"

/-- `Page::decode` (`circle.rs:242`). -/
def Page.decode (body : Bytes) (link : Option String) : Except String Page := do
  let list ← orThrow (C.parseList body) "decoding the circle attestation page"
  let next ← match link with
    | none => pure none
    | some header => parseNextLink C header
  pure { entries := list.mapIdx fun index value => Entry.decode C (index + 1) value, next := next.map .mk }

/-! ## One response -/

/-- A response as far as it was read. A `Link` header that is not text reads as `some none`; `complete` says whether
the chunks are all of the body or the connection broke after them. -/
structure Response where
  status : StatusCode
  link : Option (Option String)
  chunks : List Bytes
  complete : Bool

inductive HttpReply where
  /-- The request failed or timed out. -/
  | failed
  | response (r : Response)

/-- `Page::MAX_RESPONSE_BYTES`. -/
def Page.maxResponseBytes : Nat := 8 * 1024 * 1024

/-- The loop over the chunks (`circle.rs:352-370`): a body over the ceiling is refused before it is read whole. -/
def readBody (complete : Bool) : Bytes → List Bytes → Except Failure Bytes
  | body, [] =>
    if complete then .ok body else .error (.transient "circle_unavailable" "reading the circle response")
  | body, chunk :: chunks =>
    let body := body ++ chunk
    if body.length > Page.maxResponseBytes then
      .error (.transient "invalid_response"
        s!"the circle response exceeded the {Page.maxResponseBytes}-byte ceiling")
    else readBody complete body chunks

/-- `fetch_page` (`circle.rs:323`), given what the request came to. -/
def readPage (size : PageSize) : HttpReply → Except Failure Page
  | .failed => .error (.transient "circle_unavailable" "the circle request failed")
  | .response r =>
    if 200 ≤ r.status.code ∧ r.status.code < 300 then do
      let link ← match r.link with
        | none => pure none
        | some none => throw (.transient "invalid_response" "decoding the circle Link header")
        | some (some text) => pure (some text)
      let body ← readBody r.complete [] r.chunks
      let page ← (Page.decode C body link).mapError (.transient "invalid_response")
      if page.entries.length > size.value then
        throw (.transient "invalid_response" s!"circle returned more than the requested {size.value} deposits")
      else pure page
    else
      let kind := if r.status = .tooManyRequests then "rate_limited" else "unexpected_status"
      .error (.transient kind s!"circle answered {C.statusText r.status} for the attestation page")

end

end DepositRelayer
