import MidenUsdcx.Attester.Holds
import Mathlib.Data.List.Count
/-!
# The admin listener (`admin.rs`, `attester.rs:194-328`)

An operator's request goes through three tasks: its connection, the bounded inbox and the attester, which runs it
against the store between steps of its own. `Step` is one step of any of them, of the clock or of a shutdown, so a run
is an interleaving of all.

| here | there |
| --- | --- |
| `AdminRequest`, `AdminError`, `ErrorBody` | `Request`, `AdminError`, `ErrorBody` (`admin.rs:66-110`, `300-345`) |
| `handle`, `trySend` | `handle`, `dispatch` (`admin.rs:383-456`) |
| `Phase`, `Channel` | where a connection is; its oneshot reply channel |
| `Serving` | where the attester is in `handle_admin` (`attester.rs:226`) |
| `State.shutdown`, `State.stopped` | the service's token (`admin_shutdown`), the listener's own token |
| `Execution` | one command run against the store |

The attester checks the shutdown, the deadline and the channel one after the other, and the others go on meanwhile.
A run of a command is one transaction. Left out: the socket file, the caps on connections and on the size of a
request, which only decide whether a request is read.
-/
namespace LightAttester.Admin
open Checked Keyed Store

/-! ## Requests and replies -/

/-- `Request` (`admin.rs:66`). -/
inductive AdminRequest where
  | holds (after : Option String)
  | release (noteId : String) (expectedEventSeq : Int) (circleNotAccepted : Bool)

/-- `HoldsPage` (`admin.rs:104`). The cursor is a note ID of the page. -/
structure HoldsPage where
  faucetAccountId : AccountId
  trustedAnchor : TrustedAnchor
  holds : List HoldEntry
  nextAfter : Option NoteId

/-- What a request that succeeds is answered with. -/
inductive Answer where
  | page (page : HoldsPage)
  | released (burns withdrawals : Nat)

/-- `AdminError` (`admin.rs:300`). -/
inductive AdminError where
  | invalidInput (message : String)
  | requestTooLarge
  | stopping
  | queueFull
  | unavailable
  | replyTimeout
  | release (error : StoreError)

/-- `ErrorBody` (`admin.rs:97`). -/
structure ErrorBody where
  code : String
  message : String
deriving DecidableEq, Repr

/-- `AdminError::body` (`admin.rs:317`). -/
def AdminError.body : AdminError → ErrorBody
  | .invalidInput message => ⟨"invalid_input", message⟩
  | .requestTooLarge => ⟨"request_too_large", "request exceeds 16 KiB"⟩
  | .stopping => ⟨"stopping", "attester is stopping"⟩
  | .queueFull => ⟨"queue_full", "command was not admitted"⟩
  | .unavailable => ⟨"unavailable", "attester is unavailable"⟩
  | .replyTimeout =>
    ⟨"reply_timeout", "outcome may be unknown; list holds again before selecting another release"⟩
  | .release (.release .invalid) => ⟨"invalid_input", "invalid hold selection"⟩
  | .release (.release (.notHeld noteId)) =>
    ⟨"hold_not_found", "no hold for note " ++ noteId.toHex ++ "; list holds to find it"⟩
  | .release (.release .conflict) => ⟨"hold_changed", "list holds again before selecting a release"⟩
  | .release (.release .circleCheck) =>
    ⟨"circle_check_required", "check Circle and assert non-acceptance for the held withdrawal"⟩
  | .release _ => ⟨"store_failed", "attester store failed"⟩

/-! ## The parties -/

/-- `COMMAND_WAIT` (`admin.rs:32`), in seconds. -/
def COMMAND_WAIT : Nat := 60

/-- The inbox's bound (`admin.rs:195`). -/
def INBOX : Nat := 16

/-- `Command` (`admin.rs:137`), with the request it is for. -/
structure Queued where
  request : Nat
  operation : Operation
  deadline : Nat

/-- Where a connection is. -/
inductive Phase where
  | absent
  | reading
  /-- The request is valid. -/
  | handling (operation : Operation)
  /-- `dispatch` has seen that the listener is not stopping. -/
  | cleared (operation : Operation) (deadline : Nat)
  /-- The command is in the inbox. -/
  | waiting (deadline : Nat)
  | answered (reply : Except AdminError Answer)
  /-- The connection was dropped without a reply. -/
  | gone

/-- The reply channel of a command: nothing yet, a result, or a sender that was dropped. -/
inductive Channel where
  | empty
  | sent (result : Except StoreError Answer)
  | dropped

/-- Where the attester is in `handle_admin`. -/
inductive Serving where
  | idle
  | taken (command : Queued)
  /-- Past `admin_shutdown.is_cancelled()`. -/
  | unstopped (command : Queued)
  /-- Past the deadline. -/
  | inTime (command : Queued)
  /-- Past `is_closed`. -/
  | started (command : Queued)
  | done (command : Queued) (result : Except StoreError Answer)

/-- One command run against the store. -/
structure Execution where
  request : Nat
  operation : Operation
  before : Store
  after : Store
  result : Except StoreError Answer

structure State where
  store : Store
  now : Nat
  shutdown : Bool
  stopped : Bool
  connection : Nat → Phase
  /-- What each valid request asks for. -/
  asked : Nat → Option Operation
  channel : Nat → Channel
  inbox : List Queued
  isOpen : Bool
  serving : Serving
  log : List Execution

namespace State

/-- The system before the first connection. -/
def first (store : Store) (now : Nat) : State where
  store := store
  now := now
  shutdown := false
  stopped := false
  connection _ := .absent
  asked _ := none
  channel _ := .empty
  inbox := []
  isOpen := true
  serving := .idle
  log := []

def setConnection (s : State) (i : Nat) (p : Phase) : State :=
  { s with connection := fun j => if j = i then p else s.connection j }

def setChannel (s : State) (i : Nat) (c : Channel) : State :=
  { s with channel := fun j => if j = i then c else s.channel j }

/-- `reply.is_closed()`: the listener holds the receiver until it has an answer or gives up. -/
def closed (s : State) (i : Nat) : Bool :=
  match s.connection i with
  | .cleared _ _ | .waiting _ => false
  | _ => true

/-- `dispatch` past its first check (`admin.rs:433-449`): a full inbox is refused at once. -/
def trySend (s : State) (i : Nat) (operation : Operation) (deadline : Nat) : State :=
  if s.isOpen = false then s.setConnection i (.answered (.error .unavailable))
  else if INBOX ≤ s.inbox.length then s.setConnection i (.answered (.error .queueFull))
  else { s.setConnection i (.waiting deadline) with inbox := s.inbox ++ [⟨i, operation, deadline⟩] }

/-- A command is dropped, and its sender with it. -/
def drop (s : State) (command : Queued) : State := { s.setChannel command.request .dropped with serving := .idle }

/-- Closing the inbox drops what is queued. -/
def closeInbox (s : State) : State :=
  { s with inbox := [], isOpen := false,
           channel := fun i => if s.inbox.any fun c => c.request == i then .dropped else s.channel i }

end State

section
variable (C : Crates) (config : Config) (tryFromHex : String → Option NoteId)

/-- `parse_note_id` (`admin.rs:54`): only the spelling the list prints. -/
def parseNoteId (text : String) : Option NoteId := (tryFromHex text).filter fun n => n.toHex == text

/-- `handle` up to `dispatch` (`admin.rs:383-418`). -/
def handle : AdminRequest → Except AdminError Operation
  | .holds none => .ok (.list none)
  | .holds (some text) => do
    let after ← orThrow (parseNoteId tryFromHex text) (.invalidInput "invalid page cursor")
    pure (.list (some after))
  | .release text expectedEventSeq circleNotAccepted => do
    let noteId ← orThrow (parseNoteId tryFromHex text) (.invalidInput "invalid hold selection")
    ensure (0 < expectedEventSeq) (.invalidInput "invalid hold selection")
    pure (.release ⟨noteId, expectedEventSeq, circleNotAccepted⟩)

/-- The listing's page (`attester.rs:243-262`): one hold past the page means another follows. -/
def pageOf (holds : List HoldEntry) : HoldsPage where
  faucetAccountId := config.faucetAccountId
  trustedAnchor := config.trustedAnchor
  holds := holds.take HOLDS_PAGE
  nextAfter := if HOLDS_PAGE < holds.length then (holds.take HOLDS_PAGE).getLast?.map (·.noteId) else none

/-- `handle_admin` past its checks (`attester.rs:243-284`): the store after it, and what it answers. -/
def perform (store : Store) : Operation → Store × Except StoreError Answer
  | .list after => (store, (store.holdsPage C after).map fun holds => .page (pageOf config holds))
  | .release selection =>
    match store.releaseChecked selection with
    | .ok (store', burns, withdrawals) => (store', .ok (.released burns withdrawals))
    | .error e => (store, .error e)

/-- The command run by the attester; when SQLite fails, its transaction is rolled back. -/
def State.execute (s : State) (command : Queued) (fails : Bool) : State :=
  let run := if fails then (s.store, .error .io) else perform C config s.store command.operation
  { s with store := run.1, serving := .done command run.2,
           log := ⟨command.request, command.operation, s.store, run.1, run.2⟩ :: s.log }

/-- What `read_request` can refuse (`admin.rs:360`). -/
def State.Unread (s : State) : AdminError → Prop
  | .stopping => s.stopped = true
  | .invalidInput _ | .requestTooLarge => True
  | _ => False

/-- A step of a connection alone. -/
inductive Dials (s : State) (i : Nat) : Phase → Prop where
  | connect (h : s.connection i = .absent) : Dials s i .reading
  | unread (e : AdminError) (h : s.connection i = .reading) (he : s.Unread e) : Dials s i (.answered (.error e))
  | refuse (request : AdminRequest) (e : AdminError) (h : s.connection i = .reading)
    (hhandle : handle tryFromHex request = .error e) : Dials s i (.answered (.error e))
  | stopping (operation : Operation) (h : s.connection i = .handling operation) (hstopped : s.stopped = true) :
    Dials s i (.answered (.error .stopping))
  | clear (operation : Operation) (h : s.connection i = .handling operation) (hstopped : s.stopped = false) :
    Dials s i (.cleared operation (s.now + COMMAND_WAIT))
  | receive (deadline : Nat) (result : Except StoreError Answer) (h : s.connection i = .waiting deadline)
    (hsent : s.channel i = .sent result) : Dials s i (.answered (result.mapError .release))
  | lose (deadline : Nat) (h : s.connection i = .waiting deadline) (hdropped : s.channel i = .dropped) :
    Dials s i (.answered (.error .unavailable))
  | expire (deadline : Nat) (h : s.connection i = .waiting deadline) (hlate : deadline ≤ s.now) :
    Dials s i (.answered (.error .replyTimeout))
  /-- `CONNECTION_WAIT`, or the listener's shutdown. -/
  | abort (h : ∀ reply, s.connection i ≠ .answered reply) : Dials s i .gone

/-- A check of the attester's that passes. -/
inductive Passes (s : State) (command : Queued) : Serving → Prop where
  | unstopped (h : s.serving = .taken command) (hstop : s.shutdown = false) : Passes s command (.unstopped command)
  | inTime (h : s.serving = .unstopped command) (hlate : s.now < command.deadline) : Passes s command (.inTime command)
  | started (h : s.serving = .inTime command) (hclosed : s.closed command.request = false) :
    Passes s command (.started command)

/-- A check of the attester's that fails. -/
inductive Fails (s : State) (command : Queued) : Prop where
  | stopped (h : s.serving = .taken command) (hstop : s.shutdown = true)
  | late (h : s.serving = .unstopped command) (hlate : command.deadline ≤ s.now)
  | closed (h : s.serving = .inTime command) (hclosed : s.closed command.request = true)

inductive Step : State → State → Prop where
  | dial (s : State) (i : Nat) (p : Phase) (h : Dials tryFromHex s i p) : Step s (s.setConnection i p)
  | read (s : State) (i : Nat) (request : AdminRequest) (operation : Operation) (h : s.connection i = .reading)
    (hhandle : handle tryFromHex request = .ok operation) :
    Step s { s.setConnection i (.handling operation) with
      asked := fun j => if j = i then some operation else s.asked j }
  | send (s : State) (i : Nat) (operation : Operation) (deadline : Nat)
    (h : s.connection i = .cleared operation deadline) : Step s (s.trySend i operation deadline)
  | take (s : State) (command : Queued) (rest : List Queued) (h : s.serving = .idle)
    (hinbox : s.inbox = command :: rest) : Step s { s with inbox := rest, serving := .taken command }
  | pass (s : State) (command : Queued) (next : Serving) (h : Passes s command next) :
    Step s { s with serving := next }
  | skip (s : State) (command : Queued) (h : Fails s command) : Step s (s.drop command)
  | execute (s : State) (command : Queued) (fails : Bool) (h : s.serving = .started command) :
    Step s (s.execute C config command fails)
  | answer (s : State) (command : Queued) (result : Except StoreError Answer) (h : s.serving = .done command result) :
    Step s { s.setChannel command.request (.sent result) with serving := .idle }
  /-- The attester stops: its run is over. -/
  | close (s : State) (h : s.serving = .idle) : Step s s.closeInbox
  /-- The attester's own work on the store. -/
  | work (s : State) (w : Write) (store' : Store) (h : s.serving = .idle) (hw : w.apply C s.store = .ok store') :
    Step s { s with store := store' }
  | tick (s : State) (now : Nat) (h : s.now ≤ now) : Step s { s with now := now }
  | cancel (s : State) : Step s { s with shutdown := true }
  /-- The listener stops when the service does (`admin.rs:219`, `255`). -/
  | stop (s : State) (h : s.shutdown = true) : Step s { s with stopped := true }

/-- A run of the system. -/
abbrev Steps := Relation.ReflTransGen (Step C config tryFromHex)

/-- The states of every run, from any store. -/
def Reachable (s : State) : Prop := ∃ store now, Steps C config tryFromHex (.first store now) s

end

end LightAttester.Admin
