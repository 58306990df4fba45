import MidenUsdcx.Attester.Submission
import MidenUsdcx.Lib.Chunks
import MidenUsdcx.Listener.Submission
import MidenUsdcx.Relayer.Circle
/-!
# How the services read Circle's answers (`transport.rs`, `client.rs:141-370`, the two `circle.rs`)

All three read a body chunk by chunk under a cap, each in its own way: the listener refuses a length that is advertised
over it and counts in a `usize`, the attester looks before it appends a chunk, the relayer after. A body may have any
number of chunks, and never end.

| here | there |
| --- | --- |
| `collectBounded`, `BodyLimit`, `collectLoop` | `collect_bounded`, `BodyLimit` (`transport.rs:165-243`) |
| `ReqwestTransport.execute` | `transport.rs:122-153`, with `check_not_redirected` |
| `HttpClient`, `HttpClient.execute` | `CircleClient`, as far as it knows its ceiling (`client.rs`) |
| `chunkLoop` | `LightAttester.readBody`, over any source |
| `pageLoop` | `DepositRelayer.readBody`, over any source |

A request has as many reads as it is given; `none` is one that is still being read. Left out: the request, its timeout
and the governor.
-/

/-! ## The listener -/

namespace WithdrawalListener
open Checked Chunks

/-- `usize::MAX`. -/
def usizeMax : Nat := 2 ^ 64 - 1

/-- `BodyLimit` (`transport.rs:165`). -/
structure BodyLimit where
  max : Nat
  seen : Nat

def BodyLimit.new (max : Nat) : BodyLimit := ⟨max, 0⟩

/-- `BodyLimit::check_content_length` (`transport.rs:180`). -/
def BodyLimit.checkContentLength (limit : BodyLimit) : Option Nat → Except ListenerError Unit
  | some length => if length > limit.max then .error (.responseTooLarge limit.max length) else .ok ()
  | none => .ok ()

/-- `BodyLimit::push` (`transport.rs:195`). -/
def BodyLimit.push (limit : BodyLimit) (chunkLen : Nat) : BodyLimit × Except ListenerError Unit :=
  let limit := { limit with seen := min (limit.seen + chunkLen) usizeMax }
  (limit, if limit.seen > limit.max then .error (.responseTooLarge limit.max limit.seen) else .ok ())

/-- The loop of `collect_bounded` (`transport.rs:236-241`). -/
def collectLoop (max : Nat) : Loop (BodyLimit × Bytes) UInt8 ListenerError where
  init := (.new max, [])
  buffer s := s.2
  take s chunk := match s.1.push chunk.length with
    | (limit, .ok ()) => ((limit, s.2 ++ chunk), none)
    | (limit, .error error) => ((limit, s.2), some error)

/-- `collect_bounded` (`transport.rs:228`). -/
def collectBounded (source : Source UInt8 ListenerError) (advertised : Option Nat) (max reads : Nat) :
    Option (Except ListenerError Bytes) :=
  match (BodyLimit.new max).checkContentLength advertised with
  | .error error => some (.error error)
  | .ok () => match ((collectLoop max).run source reads).2 with
    | .reading => none
    | .returned result => some result

/-- What a request comes to on the wire: nothing, or a response whose body is still to be read. -/
inductive HttpAnswer where
  | failed
  | answered (url : String) (status : UInt16) (contentLength : Option Nat) (chunks : Source UInt8 Unit)

/-- `ReqwestChunks::next_chunk` (`transport.rs:256`). -/
def reqwestChunks (chunks : Source UInt8 Unit) : Source UInt8 ListenerError := chunks.mapError fun _ => .transport

/-- `ReqwestTransport::execute` (`transport.rs:122`). -/
def ReqwestTransport.execute (max : Nat) (requested : String) (answer : HttpAnswer) (reads : Nat) :
    Option (Except ListenerError RawResponse) :=
  match answer with
  | .failed => some (.error .transport)
  | .answered url status contentLength chunks =>
    -- the final URL of a redirect that was followed
    if requested ≠ url then some (.error .transport)
    else (collectBounded (reqwestChunks chunks) contentLength max reads).map fun result =>
      result.map fun body => ⟨status, body⟩

inductive Transport where
  | reqwest (maxResponseBytes : Nat)
  /-- One that the caller installed, with what it brings back. -/
  | supplied (brings : Except ListenerError RawResponse)

/-- `CircleClient` with the transport its requests go over. -/
structure HttpClient where
  circle : CircleClient
  transport : Transport
  transportIsDefault : Bool

namespace HttpClient

/-- `DEFAULT_MAX_RESPONSE_BYTES` (`client.rs:39`). -/
def DEFAULT_MAX_RESPONSE_BYTES : Nat := 2 ^ 20

/-- `CircleClient::new` (`client.rs:141`), of a base URL and a posture that are fine. -/
def new (retry : RetryPolicy) (poll : PollPolicy) (serde : Serde) : HttpClient :=
  ⟨⟨DEFAULT_MAX_RESPONSE_BYTES, retry, poll, serde⟩, .reqwest DEFAULT_MAX_RESPONSE_BYTES, true⟩

/-- `CircleClient::with_transport` (`client.rs:206`). -/
def withTransport (client : HttpClient) (transport : Transport) : HttpClient :=
  { client with transport := transport, transportIsDefault := false }

/-- `CircleClient::with_max_response_bytes` (`client.rs:221`). -/
def withMaxResponseBytes (client : HttpClient) (max : Nat) : HttpClient :=
  { client with circle := { client.circle with maxResponseBytes := max },
                transport := if client.transportIsDefault then .reqwest max else client.transport }

/-- `CircleClient::execute` (`client.rs:355`). -/
def execute (client : HttpClient) (requested : String) (answer : HttpAnswer) (reads : Nat) :
    Option (Except ListenerError RawResponse) :=
  let brought := match client.transport with
    | .reqwest max => ReqwestTransport.execute max requested answer reads
    | .supplied brings => some brings
  brought.map fun result => do
    let response ← result
    if response.body.length > client.circle.maxResponseBytes then
      throw (.responseTooLarge client.circle.maxResponseBytes response.body.length)
    else pure response

/-- The clients a caller can build. -/
inductive Built : HttpClient → Prop where
  | new (retry : RetryPolicy) (poll : PollPolicy) (serde : Serde) : Built (new retry poll serde)
  | withTransport {client : HttpClient} (transport : Transport) (h : Built client) :
    Built (client.withTransport transport)
  | withMaxResponseBytes {client : HttpClient} (max : Nat) (h : Built client) : Built (client.withMaxResponseBytes max)
  | withPolicies {client : HttpClient} (retry : RetryPolicy) (poll : PollPolicy) (h : Built client) :
    Built { client with circle := { client.circle with retry := retry, poll := poll } }

end HttpClient

/-- What a body that was read, or given up, is of a reply. -/
def replyOf (status : UInt16) : Except ListenerError Bytes → Reply
  | .ok body => .response status body
  | .error (.responseTooLarge _ actual) => .cutOff actual
  | .error _ => .failed

def refuseOver (max size : Nat) : ListenerError := .responseTooLarge max (min size usizeMax)

/-- What the wire's answer is to a client with this ceiling, by the body as a whole. -/
inductive Arrives (max : Nat) (requested : String) : HttpAnswer → Reply → Prop where
  | failed : Arrives max requested .failed .failed
  | redirected {url : String} {status : UInt16} {contentLength : Option Nat} {chunks : Source UInt8 Unit}
    (hurl : requested ≠ url) : Arrives max requested (.answered url status contentLength chunks) .failed
  | advertised {status : UInt16} {length : Nat} {chunks : Source UInt8 Unit} (hlength : max < length) :
    Arrives max requested (.answered requested status (some length) chunks) (.cutOff length)
  | read {status : UInt16} {contentLength : Option Nat} {chunks : Source UInt8 Unit}
    {body : Except ListenerError Bytes} (hlength : ∀ length, contentLength = some length → length ≤ max)
    (hbody : Whole (reqwestChunks chunks) max (refuseOver max) body) :
    Arrives max requested (.answered requested status contentLength chunks) (replyOf status body)

section
variable {max : Nat} {client : HttpClient}

theorem BodyLimit.push_within {limit : BodyLimit} (chunkLen : Nat) (hmax : limit.max < usizeMax)
    (hfits : limit.seen + chunkLen ≤ limit.max) :
    limit.push chunkLen = ({ limit with seen := limit.seen + chunkLen }, .ok ()) := by
  have hseen : min (limit.seen + chunkLen) usizeMax = limit.seen + chunkLen := by omega
  simp [push, hseen, hfits]

theorem BodyLimit.push_over {limit : BodyLimit} (chunkLen : Nat) (hmax : limit.max < usizeMax)
    (hover : limit.max < limit.seen + chunkLen) :
    (limit.push chunkLen).2 = .error (.responseTooLarge limit.max (min (limit.seen + chunkLen) usizeMax)) := by
  have hseen : limit.max < min (limit.seen + chunkLen) usizeMax := by omega
  simp only [push]
  rw [if_pos hseen]

/-- The listener counts before it appends. -/
theorem collectLoop_caps (hmax : max < usizeMax) :
    Caps (collectLoop max) max (refuseOver max) (fun _ => 0)
      (fun s => s.1.max = max ∧ s.1.seen = s.2.length) where
  init := ⟨rfl, rfl⟩
  empty := rfl
  within s chunk hgood hfits := by
    obtain ⟨limit, body⟩ := s
    obtain ⟨rfl, hseen⟩ : limit.max = max ∧ limit.seen = body.length := hgood
    have hpush := BodyLimit.push_within chunk.length hmax (by rw [hseen]; exact hfits)
    exact ⟨({ limit with seen := limit.seen + chunk.length }, body ++ chunk), by simp only [collectLoop, hpush],
      ⟨rfl, by simp [hseen]⟩, rfl⟩
  beyond s chunk hgood hle hover := by
    obtain ⟨limit, body⟩ := s
    obtain ⟨rfl, hseen⟩ : limit.max = max ∧ limit.seen = body.length := hgood
    have hpush := BodyLimit.push_over chunk.length hmax (by rw [hseen]; exact hover)
    rw [hseen] at hpush
    refine ⟨((limit.push chunk.length).1, body), ?_, Nat.le_refl _⟩
    simp only [collectLoop]
    generalize limit.push chunk.length = pushed at hpush ⊢
    obtain ⟨limit', _⟩ := pushed
    simp only at hpush
    simp only [hpush, refuseOver]

/-- Setting the ceiling sets it for both. -/
theorem HttpClient.Built.ceiling (h : client.Built) (hdefault : client.transportIsDefault = true) :
    client.transport = .reqwest client.circle.maxResponseBytes := by
  induction h with
  | new => rfl
  | withTransport => cases hdefault
  | withMaxResponseBytes max h ih => exact if_pos hdefault
  | withPolicies retry poll h ih => exact ih hdefault

theorem checkContentLength_ok {contentLength : Option Nat} :
    (BodyLimit.new max).checkContentLength contentLength = .ok () ↔
      ∀ length, contentLength = some length → length ≤ max := by
  cases contentLength with
  | none => simp [BodyLimit.checkContentLength]
  | some length => by_cases h : max < length <;> simp [BodyLimit.checkContentLength, BodyLimit.new, h]; omega

/-- A body is collected in some number of reads exactly where the loop over it returns. -/
theorem collectBounded_iff {source : Source UInt8 ListenerError} {contentLength : Option Nat}
    (hlength : ∀ length, contentLength = some length → length ≤ max) {result : Except ListenerError Bytes} :
    (∃ reads, collectBounded source contentLength max reads = some result) ↔
      (collectLoop max).Returns source result := by
  have hcheck := checkContentLength_ok.mpr hlength
  have hone (reads : Nat) : collectBounded source contentLength max reads = some result ↔
      ((collectLoop max).run source reads).2 = .returned result := by
    simp only [collectBounded, hcheck]
    cases ((collectLoop max).run source reads).2 <;> simp
  simp [hone, Loop.Returns]

theorem collectBounded_whole (hmax : max < usizeMax) {source : Source UInt8 ListenerError} {contentLength : Option Nat}
    (hlength : ∀ length, contentLength = some length → length ≤ max) {result : Except ListenerError Bytes} :
    (∃ reads, collectBounded source contentLength max reads = some result) ↔ Whole source max (refuseOver max) result :=
  (collectBounded_iff hlength).trans (collectLoop_caps hmax).returned_iff

theorem collectBounded_advertised {length : Nat} (hover : max < length) (source : Source UInt8 ListenerError)
    (reads : Nat) : collectBounded source (some length) max reads = some (.error (.responseTooLarge max length)) := by
  have hcheck : (BodyLimit.new max).checkContentLength (some length) = .error (.responseTooLarge max length) :=
    if_pos hover
  simp only [collectBounded, hcheck]

variable {circle : CircleClient} {requested : String} {answer : HttpAnswer} {result : Except ListenerError RawResponse}

/-- The model's replies stand for the bodies that are read. -/
theorem received_replyOf {chunks : Source UInt8 Unit} {status : UInt16} {body : Except ListenerError Bytes}
    (h : Whole (reqwestChunks chunks) circle.maxResponseBytes (refuseOver circle.maxResponseBytes) body) :
    received circle (replyOf status body) = body.map (RawResponse.mk status) := by
  cases h with
  | ended n hflows hdone hle => exact received_of_le hle
  | broken n error hflows hfailed hle =>
    obtain ⟨-, -, rfl⟩ := mapError_failed.mp hfailed
    rfl
  | crossed n hflows hle hover => rfl

theorem execute_answered {status : UInt16} {contentLength : Option Nat} {chunks : Source UInt8 Unit} {reads : Nat} :
    ReqwestTransport.execute max requested (.answered requested status contentLength chunks) reads =
      (collectBounded (reqwestChunks chunks) contentLength max reads).map (Except.map (RawResponse.mk status)) :=
  if_neg (by simp)

/-- What the transport brings back is what the client receives of the reply, in some number of reads. -/
theorem transport_iff (hmax : circle.maxResponseBytes < usizeMax) :
    (∃ reads, ReqwestTransport.execute circle.maxResponseBytes requested answer reads = some result) ↔
      ∃ reply, Arrives circle.maxResponseBytes requested answer reply ∧ received circle reply = result := by
  constructor
  · rintro ⟨reads, h⟩
    cases answer with
    | failed =>
      simp only [ReqwestTransport.execute, Option.some.injEq] at h
      exact ⟨.failed, .failed, h⟩
    | answered url status contentLength chunks =>
      by_cases hurl : requested = url
      · subst hurl
        rw [execute_answered] at h
        obtain ⟨body, hbody, rfl⟩ := Option.map_eq_some_iff.mp h
        by_cases hlength : ∀ length, contentLength = some length → length ≤ circle.maxResponseBytes
        · have hwhole := (collectBounded_whole hmax hlength).mp ⟨reads, hbody⟩
          exact ⟨_, .read hlength hwhole, received_replyOf hwhole⟩
        · simp only [not_forall, not_le] at hlength
          obtain ⟨length, rfl, hover⟩ := hlength
          rw [collectBounded_advertised hover, Option.some.injEq] at hbody
          exact ⟨_, .advertised hover, hbody ▸ rfl⟩
      · simp only [ReqwestTransport.execute, ne_eq, hurl, not_false_eq_true, if_true, Option.some.injEq] at h
        exact ⟨.failed, .redirected hurl, h⟩
  · rintro ⟨reply, harrives, rfl⟩
    cases harrives with
    | failed => exact ⟨0, rfl⟩
    | redirected hurl => exact ⟨0, if_pos hurl⟩
    | advertised hover =>
      exact ⟨0, by rw [execute_answered, collectBounded_advertised hover]; rfl⟩
    | read hlength hbody =>
      obtain ⟨reads, hreads⟩ := (collectBounded_whole hmax hlength).mpr hbody
      exact ⟨reads, by rw [execute_answered, hreads, received_replyOf hbody]; rfl⟩

/-- On its own transport the client's check after the reading never refuses anything. -/
theorem execute_default (hbuilt : client.Built) (hdefault : client.transportIsDefault = true)
    (hmax : client.circle.maxResponseBytes < usizeMax) (requested : String) (answer : HttpAnswer) (reads : Nat) :
    client.execute requested answer reads =
      ReqwestTransport.execute client.circle.maxResponseBytes requested answer reads := by
  simp only [HttpClient.execute, hbuilt.ceiling hdefault]
  cases hbrought : ReqwestTransport.execute client.circle.maxResponseBytes requested answer reads with
  | none => rfl
  | some result =>
    cases result with
    | error e => rfl
    | ok response =>
      obtain ⟨reply, -, hreceived⟩ := (transport_iff hmax).mp ⟨reads, hbrought⟩
      exact congrArg some (if_neg (Nat.not_lt.mpr (received_ok hreceived).2))

/-- A client on its own transport with a ceiling below `usize::MAX`, however it was built and whatever comes over the
wire, an endless body among it: it never buffers more than its ceiling, it comes to an end if no chunk is empty, and it
comes to exactly what `received` makes of the reply the body is as a whole, however that is cut into chunks. -/
theorem execute_iff_received (hbuilt : client.Built) (hdefault : client.transportIsDefault = true)
    (hmax : client.circle.maxResponseBytes < usizeMax) (requested : String) :
    (∀ chunks reads, ((collectLoop client.circle.maxResponseBytes).run (reqwestChunks chunks) reads).1.2.length ≤
        client.circle.maxResponseBytes) ∧
      (∀ url status contentLength chunks, (∀ i bytes, chunks i = .chunk bytes → bytes ≠ []) →
        ∃ result, client.execute requested (.answered url status contentLength chunks)
          (client.circle.maxResponseBytes + 1) = some result) ∧
      ∀ answer result, (∃ reads, client.execute requested answer reads = some result) ↔
        ∃ reply, Arrives client.circle.maxResponseBytes requested answer reply ∧
          received client.circle reply = result := by
  have hcaps := collectLoop_caps hmax
  refine ⟨fun chunks reads => ?_, fun url status contentLength chunks hchunks => ?_, fun answer result => ?_⟩
  · rcases hcaps.peak (reqwestChunks chunks) reads with hle | ⟨-, -, -, hle⟩
    · exact hle
    · exact hle
  · rw [execute_default hbuilt hdefault hmax]
    by_cases hurl : requested = url
    · subst hurl
      rw [execute_answered]
      have hchunks' : ∀ i bytes, reqwestChunks chunks i = .chunk bytes → bytes ≠ [] := fun i bytes hi =>
        hchunks i bytes (mapError_chunk.mp hi)
      obtain ⟨body, hbody⟩ := hcaps.ends hchunks'
      cases hcheck : (BodyLimit.new client.circle.maxResponseBytes).checkContentLength contentLength <;>
        simp [collectBounded, hcheck, hbody]
    · exact ⟨_, if_pos hurl⟩
  · simp only [execute_default hbuilt hdefault hmax]
    exact transport_iff hmax

/-- A client with a ceiling of three bytes. -/
def smallClient : HttpClient :=
  (HttpClient.new (.new 1) (.new 1) ⟨fun _ => none, fun _ => none, fun _ => none, fun _ => none⟩).withMaxResponseBytes 3

/-- The second of endless chunks crosses the ceiling. -/
theorem execute_iff_received_endless : ∃ result,
    smallClient.execute "url" (.answered "url" 200 none fun _ => .chunk [1, 2]) 4 = some result ∧
      result = .error (.responseTooLarge 3 4) := by
  have hbuilt : smallClient.Built := .withMaxResponseBytes 3 (.new _ _ _)
  obtain ⟨-, hends, -⟩ := execute_iff_received hbuilt rfl (by decide) "url"
  obtain ⟨result, hresult⟩ := hends "url" 200 none (fun _ => .chunk [1, 2]) (by simp)
  have hread : smallClient.execute "url" (.answered "url" 200 none fun _ => .chunk [1, 2]) 4 =
      some (.error (.responseTooLarge 3 4)) := by rfl
  exact ⟨result, hresult, Option.some.inj (hresult.symm.trans hread)⟩

end

end WithdrawalListener

/-! ## The attester -/

namespace LightAttester
open Chunks

end LightAttester

/-! ## The relayer -/

namespace DepositRelayer
open Chunks

def bodyTooLarge : Failure :=
  .transient "invalid_response" s!"the circle response exceeded the {Page.maxResponseBytes}-byte ceiling"

end DepositRelayer
