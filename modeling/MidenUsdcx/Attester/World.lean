import MidenUsdcx.Attester.Store
import MidenUsdcx.Lib.Prog
/-!
# What the attester's task calls, and the world that answers

The attester is one task: it reads and writes the store, calls Circle, the node, the signers and the
clock, and takes admin commands between its steps. Each of these is one call (`Call`), and each call
takes one choice of the environment (`Env`): whether SQLite fails, what Circle, the node or a signer
answers, what the clock shows, which commands are queued. `handler` is all the rest. The choices may
end at any call: that is a crash, and the store is left as it was.

The world keeps a log, newest entry first, of what the attester did and of the committed store after
each step (`Entry`). Nothing in the program reads it: it is there for statements about whole runs.
The marks are the program's own telemetry (`attester.cycle` and `attester.withdraw` spans) and the
two values a cycle computes once, the proof lag and the work lists.
-/
namespace LightAttester
open Interact

/-- The three work lists of a cycle, taken before anything changes their status (`attester.rs:379-383`). -/
structure Work where
  recover : List SavedSubmission
  ready : List DiscoveredBurn
  poll : List SavedSubmission

inductive Act where
  | cycle (config : Config)
  | discovered (proofLagBlock : BlockNumber)
  | snapshot (work : Work)
  | withdraw (noteId : NoteId)
  | prepare (burn : DiscoveredBurn) (forwardingFee : UInt64) (reply : Except CircleError UnverifiedPrepareResponse)
  | sign (noteId : NoteId) (digest : B256)
  | post (noteId : NoteId) (request : Request) (reply : Except CircleError RawResponse)
  | get (noteId : NoteId) (request : Request) (reply : Except CircleError RawResponse)
  | clock (now : Int)
  | commit (write : Write)
  | refused (write : Write) (error : StoreError)

structure Entry where
  act : Act
  store : Store

/-- An admin command (`admin.rs`); an abandoned one is skipped. -/
inductive Operation where
  | list (after : Option NoteId)
  | release (selection : ReleaseSelection)

structure Command where
  abandoned : Bool
  operation : Operation

inductive ChainError where
  | unavailable
deriving DecidableEq, Repr

inductive Mark where
  | cycle (config : Config)
  | discovered (proofLagBlock : BlockNumber)
  | snapshot (work : Work)
  | withdraw (noteId : NoteId)

def Mark.act : Mark → Act
  | .cycle config => .cycle config
  | .discovered lag => .discovered lag
  | .snapshot work => .snapshot work
  | .withdraw n => .withdraw n

inductive Call where
  /-- Reads the committed store. -/
  | query
  | write (w : Write)
  | prepare (burn : DiscoveredBurn) (forwardingFee : UInt64)
  | sign (noteId : NoteId) (digest : B256)
  | post (noteId : NoteId) (request : Request)
  | get (noteId : NoteId) (request : Request)
  | now
  | mark (m : Mark)
  | rateLimited
  | setRateLimited (value : Bool)
  | accountExists (account : AccountId)
  | scanLimits
  | blockByNumber (block : BlockNumber)
  | checkSigners
  | checkCircle
  | inbox
  | fileExists
  | openFile (create : Bool)

def Call.Answer : Call → Type
  | .query => Except StoreError Store
  | .write _ => Except StoreError Unit
  | .prepare _ _ => Except CircleError UnverifiedPrepareResponse
  | .sign _ _ => Option Signature
  | .post _ _ | .get _ _ => Except CircleError RawResponse
  | .now => Int
  | .mark _ => Unit
  | .rateLimited => Bool
  | .setRateLimited _ => Unit
  | .accountExists _ => Except ChainError Bool
  | .scanLimits => Except ChainError ScanLimits
  | .blockByNumber _ => Except ChainError SignedBlock
  | .checkSigners => Bool
  | .checkCircle => Bool
  | .inbox => List Command
  | .fileExists => Except StoreError Bool
  | .openFile _ => Except StoreError Unit

def calls : Sig := { Op := Call, Ans := Call.Answer }

/-- One choice of the environment; a call looks only at its own part of it. -/
structure Env where
  storeFails : Bool := false
  http : HttpOutcome := .failed
  signature : Option Signature := none
  now : Int := 0
  limits : Option ScanLimits := none
  block : Option SignedBlock := none
  yes : Bool := true
  commands : List Command := []

structure World where
  fileExists : Bool
  store : Store
  rateLimited : Bool
  log : List Entry

namespace World

/-- No store file, nothing done. -/
def start : World := { fileExists := false, store := .blank, rateLimited := false, log := [] }

def record (w : World) (a : Act) : World := { w with log := ⟨a, w.store⟩ :: w.log }

/-- A transaction: it commits whole or leaves the store as it was. -/
def transact (C : Crates) (x : Write) (fails : Bool) (w : World) : Except StoreError Unit × World :=
  if fails then (.error .io, w.record (.refused x .io))
  else match x.apply C w.store with
    | .ok s => (.ok (), { w with store := s }.record (.commit x))
    | .error e => (.error e, w.record (.refused x e))

end World

def handler (C : Crates) : Handler calls Env World where
  step o e w := match o with
    | .query => (if e.storeFails then .error .io else .ok w.store, w)
    | .write x => w.transact C x e.storeFails
    | .prepare burn fee =>
      let reply := readReply e.http >>= readPrepared C
      (reply, w.record (.prepare burn fee reply))
    | .sign n digest => (e.signature, w.record (.sign n digest))
    | .post n request => (readReply e.http, w.record (.post n request (readReply e.http)))
    | .get n request => (readReply e.http, w.record (.get n request (readReply e.http)))
    | .now => (e.now, w.record (.clock e.now))
    | .mark m => ((), w.record m.act)
    | .rateLimited => (w.rateLimited, w)
    | .setRateLimited value => ((), { w with rateLimited := value })
    | .accountExists _ => (if e.storeFails then .error .unavailable else .ok e.yes, w)
    | .scanLimits => (Checked.orThrow e.limits .unavailable, w)
    | .blockByNumber _ => (Checked.orThrow e.block .unavailable, w)
    | .checkSigners => (e.yes, w)
    | .checkCircle => (e.yes, w)
    | .inbox => (e.commands, w)
    | .fileExists => (if e.storeFails then .error .io else .ok w.fileExists, w)
    | .openFile create =>
      -- Opening with `SQLITE_OPEN_CREATE` makes an empty file; locking it comes after.
      let w' := if create then { w with fileExists := true } else w
      (if e.storeFails || !w'.fileExists then .error .io else .ok (), w')

end LightAttester
