import Mathlib.Data.List.Infix
import FollowerSync.Proofs.Contacts

set_option autoImplicit false

namespace FollowerSync
namespace Leader

def relay (code : Code) (reason : String) : Fault :=
  if code = .wrongChecksum then .checksumMismatch reason else .rpc code reason

theorem relay_code (code : Code) (reason : String) : (relay code reason).code = code := by
  unfold relay
  split
  · rename_i mismatch
    exact mismatch.symm
  · rfl

theorem relay_countsAsFailure (code : Code) (reason : String) :
    (relay code reason).countsAsFailure = true := by
  unfold relay
  split <;> rfl

def IsFault (response : Response) : Prop := ∃ code reason, response = .error code reason

theorem accept_error (code : Code) (reason : String) :
    (Response.error code reason).accept = .error (relay code reason) := by
  cases code <;> rfl

theorem accept_eq_ok_iff {response accepted : Response} :
    response.accept = .ok accepted ↔ response = accepted ∧ ¬IsFault accepted := by
  cases response with
  | error code reason =>
    rw [accept_error]
    constructor
    · intro sound
      cases sound
    · rintro ⟨rfl, sound⟩
      exact absurd ⟨code, reason, rfl⟩ sound
  | _ =>
    constructor
    · rintro ⟨⟩
      exact ⟨rfl, by rintro ⟨_, _, ⟨⟩⟩⟩
    · rintro ⟨rfl, -⟩
      rfl

theorem accept_countsAsFailure {response : Response} {fault : Fault}
    (refused : response.accept = .error fault) : fault.countsAsFailure = true := by
  by_cases isFault : IsFault response
  · obtain ⟨code, reason, rfl⟩ := isFault
    rw [accept_error] at refused
    cases refused
    exact relay_countsAsFailure code reason
  · rw [accept_eq_ok_iff.mpr ⟨rfl, isFault⟩] at refused
    cases refused

end Leader

namespace Wire
open Leader

theorem Grants.not_fault {request : Request} {response : Response} {payload : request.Payload}
    (grants : Grants request response payload) : ¬IsFault response := by
  rintro ⟨code, reason, rfl⟩
  cases grants

section
variable {α β : Type} {r : Except Fault α} {f : α → Except Fault β} {b : β} {fault : Fault}

theorem bind_eq_ok_iff : r.bind f = .ok b ↔ ∃ a, r = .ok a ∧ f a = .ok b := by
  cases r <;> simp [Except.bind]

theorem bind_eq_error_iff :
    r.bind f = .error fault ↔ r = .error fault ∨ ∃ a, r = .ok a ∧ f a = .error fault := by
  cases r <;> simp [Except.bind]

end

theorem read_countsAsFailure {bytes : Bytes} {fault : Fault}
    (unread : (Frame.read (α := Response) bytes).1 = .error fault) :
    fault.countsAsFailure = true := by
  have read : (Frame.takeBody bytes).1.bind (Frame.open? (α := Response)) = .error fault := unread
  rcases bind_eq_error_iff.mp read with untaken | ⟨body, -, unopened⟩
  · rcases takeBody_fault untaken with rfl | ⟨length, rfl⟩ | rfl <;> rfl
  · obtain ⟨malformed, rfl⟩ := open_fault unopened
    rfl

theorem hitch_countsAsFailure {address : String} {e : Event socket} {fault : Fault}
    (hitch : hitch? address e = some fault) : fault.countsAsFailure = true := by
  unfold hitch? at hitch
  split at hitch <;> cases hitch <;> rfl

section
variable {α : Type} [Encodable α] [Readable α] {message : α} {sent : Bytes}

/-- Of a frame that may have been cut off on the way, no more than its message is read. -/
theorem readAll_of_prefix (small : (encode message).length < UInt64.size)
    (cut : sent <+: Frame.write message) :
    (Frame.readAll (α := α) sent).messages = [] ∨
      (Frame.readAll (α := α) sent).messages = [message] := by
  obtain ⟨more, written⟩ := cut
  unfold Frame.readAll
  cases sent.length with
  | zero => exact .inl rfl
  | succ limit =>
    unfold Frame.readUpTo
    split
    · exact .inl rfl
    split
    · exact .inl rfl
    · rename_i read left accepted
      have whole : sent ++ more = Frame.write message ++ [] := by rw [written, List.append_nil]
      obtain ⟨-, rfl, ended⟩ := Frame.read_of_written small whole accepted
      obtain ⟨rfl, -⟩ := List.append_eq_nil_iff.mp ended
      refine .inr ?_
      cases limit <;> rfl

end

/-- What an exchange comes to, where `grants` says what a response is good for. -/
structure FaceValue {α : Type} (address : String) (request : Request)
    (grants : Response → α → Prop) (es : History socket) (r : Except Fault α) : Prop where
  /-- The request is sent as a whole, unless a call fails or is late. -/
  whole : es.findSome? (hitch? address) = none → sent es = Frame.write request
  hitched (fault : Fault) : es.findSome? (hitch? address) = some fault → r = .error fault
  granted (a : α) : r = .ok a ↔ ∃ response, BeginsWith (came es) response ∧ grants response a
  refused (code : Code) (reason : String) : BeginsWith (came es) (.error code reason) →
    r = .error (relay code reason) ∧ (relay code reason).code = code
  unexpected (response : Response) : BeginsWith (came es) response → ¬IsFault response →
    (∀ a, ¬grants response a) → r =
      .error (.network ("unexpected response to " ++ request.name ++ ": " ++ response.text))
  unsound : es.findSome? (hitch? address) = none → (∀ response, ¬BeginsWith (came es) response) →
    ∃ fault, (Frame.read (α := Response) (came es)).1 = .error fault ∧ r = .error fault
  counted (fault : Fault) : r = .error fault → fault.countsAsFailure = true
  /-- What the leader sends is what it is taken for. -/
  replied (received reply : Bytes) (a : α) : Stream es received reply → r = .ok a →
    ∃ response, BeginsWith reply response ∧ grants response a

section
variable {α : Type} {address : String} {request : Request} {grants : Response → α → Prop}
  {finish : Response → Except Fault α} {es : History socket} {r : Except Fault α}

theorem BeginsWith.append {bytes : Bytes} {response : Response} (begins : BeginsWith bytes response)
    (more : Bytes) : BeginsWith (bytes ++ more) response := by
  obtain ⟨padding, rest, rfl, short⟩ := begins
  exact ⟨padding, rest ++ more, List.append_assoc .., short⟩

section
variable {calls : Nat → List Socket.Call}
  (course : Course address calls (Frame.write request)
    (fun bytes => ((Frame.read bytes).1.bind Response.accept).bind finish) es r)
include course

theorem Course.of_beginsWith {response : Response} (begins : BeginsWith (came es) response) :
    r = response.accept.bind finish := by
  cases found : es.findSome? (hitch? address) with
  | none =>
    rw [(course.smooth found).2, read_response_eq_ok_iff.mpr begins]
    rfl
  | some fault => exact absurd (course.hitched fault found).2.1 (Nat.not_le_of_lt begins.long)

theorem Course.of_accepted {response : Response} (begins : BeginsWith (came es) response)
    (unrefused : ¬IsFault response) : r = finish response := by
  rw [course.of_beginsWith begins, accept_eq_ok_iff.mpr ⟨rfl, unrefused⟩]
  rfl

theorem Course.eq_ok_iff {a : α} : r = .ok a ↔
    ∃ response, BeginsWith (came es) response ∧ ¬IsFault response ∧ finish response = .ok a := by
  constructor
  · rintro rfl
    cases found : es.findSome? (hitch? address) with
    | some fault => cases (course.hitched fault found).1
    | none =>
      obtain ⟨response, taken, finished⟩ := bind_eq_ok_iff.mp (course.smooth found).2.symm
      obtain ⟨_, read, unrefused⟩ := bind_eq_ok_iff.mp taken
      obtain ⟨rfl, unrefused⟩ := accept_eq_ok_iff.mp unrefused
      exact ⟨_, read_response_eq_ok_iff.mp read, unrefused, finished⟩
  · rintro ⟨response, begins, unrefused, finished⟩
    exact (course.of_accepted begins unrefused).trans finished

/-- A fault comes from the socket, from the bytes, from the leader or from what is made of its
response, and in any case it counts. -/
theorem Course.countsAsFailure {fault : Fault} (failed : r = .error fault)
    (finished : ∀ response, ¬IsFault response → finish response = .error fault →
      fault.countsAsFailure = true) : fault.countsAsFailure = true := by
  cases found : es.findSome? (hitch? address) with
  | some hitch =>
    obtain ⟨e, -, hitched⟩ := List.exists_of_findSome?_eq_some found
    obtain rfl := Except.error.inj (failed.symm.trans (course.hitched hitch found).1)
    exact hitch_countsAsFailure hitched
  | none =>
    rw [(course.smooth found).2] at failed
    rcases bind_eq_error_iff.mp failed with refused | ⟨response, taken, unfinished⟩
    · rcases bind_eq_error_iff.mp refused with unread | ⟨response, -, refused⟩
      · exact read_countsAsFailure unread
      · exact accept_countsAsFailure refused
    · obtain ⟨_, -, passed⟩ := bind_eq_ok_iff.mp taken
      exact finished response (accept_eq_ok_iff.mp passed).2 unfinished

theorem Course.faceValue
    (fine : ∀ response a, ¬IsFault response → (finish response = .ok a ↔ grants response a))
    (odd : ∀ response, ¬IsFault response → (∀ a, ¬grants response a) →
      finish response = .error (Client.unexpected request.name response))
    (sound : ∀ response a, grants response a → ¬IsFault response) :
    FaceValue address request grants es r := by
  have granted (a : α) : r = .ok a ↔ ∃ response, BeginsWith (came es) response ∧ grants response a := by
    rw [course.eq_ok_iff]
    refine exists_congr fun response => and_congr_right fun _ => ?_
    constructor
    · rintro ⟨unrefused, finished⟩
      exact (fine response a unrefused).mp finished
    · intro grant
      exact ⟨sound response a grant, (fine response a (sound response a grant)).mpr grant⟩
  refine ⟨fun smooth => (course.smooth smooth).1, fun fault found => (course.hitched fault found).1,
    granted, fun code reason begins => ?refused, fun response begins unrefused ungranted => ?unexpected,
    fun smooth unsound => ?unsound, fun fault failed => ?counted,
    fun received reply a stream succeeded => ?replied⟩
  case refused =>
    refine ⟨(course.of_beginsWith begins).trans ?_, relay_code code reason⟩
    rw [accept_error]
    rfl
  case unexpected =>
    exact (course.of_accepted begins unrefused).trans (odd response unrefused ungranted)
  case unsound =>
    obtain ⟨-, outcome⟩ := course.smooth smooth
    cases read : (Frame.read (α := Response) (came es)).1 with
    | ok response => exact absurd (read_response_eq_ok_iff.mp read) (unsound response)
    | error fault =>
      rw [read] at outcome
      exact ⟨fault, rfl, outcome⟩
  case counted =>
    refine course.countsAsFailure failed fun response unrefused unfinished => ?_
    have ungranted (a : α) (grant : grants response a) : False := by
      rw [(fine response a unrefused).mpr grant] at unfinished
      cases unfinished
    rw [odd response unrefused ungranted] at unfinished
    cases unfinished
    rfl
  case replied =>
    obtain ⟨response, begins, grant⟩ := (granted a).mp succeeded
    obtain ⟨more, rfl⟩ := stream.reply
    exact ⟨response, begins.append more, grant⟩

end

end

def Yields (response yielded : Response) : Prop := response = yielded ∧ ¬IsFault yielded

section
variable {client : Client} {endpoint : String} {limit : Duration} {request : Request}
  {es : History socket}

theorem method_faceValue {r : Except Fault request.Payload}
    (runs : Runs (client.method endpoint limit request) es r) :
    FaceValue (Address.ofEndpoint endpoint) request (Grants request) es r := by
  obtain ⟨take, takes, course⟩ := method_course runs
  refine course.faceValue (fun response a _ => ?_) (fun response _ ungranted => ?_)
    fun response a => Grants.not_fault
  · rw [← takes, settle]
    cases take response <;> simp
  · unfold settle
    split
    · rename_i a taken
      exact absurd ((takes response a).mp taken) (ungranted a)
    · rfl

theorem call_faceValue {r : Except Fault Response}
    (runs : Runs (client.call endpoint request limit) es r) :
    FaceValue (Address.ofEndpoint endpoint) request Yields es r := by
  have course := (call_course runs).bind (.ok : Response → Except Fault Response)
  have same : r.bind .ok = r := by cases r <;> rfl
  rw [same] at course
  refine course.faceValue (fun response a unrefused => ?_) (fun response unrefused unyielded => ?_)
    fun response a yields => yields.1 ▸ yields.2
  · rw [Except.ok.injEq]
    exact ⟨fun same => ⟨same, same ▸ unrefused⟩, And.left⟩
  · exact absurd ⟨rfl, unrefused⟩ (unyielded response)

theorem sent_prefix {q : Talk (Except Fault request.Payload)}
    (steps : Steps (client.method endpoint limit request) es q) :
    (∃ length, es.map Event.call <+:
      exchangeCalls (Address.ofEndpoint endpoint) client.connectTimeout limit request length) ∧
      sent es <+: Frame.write request := by
  have answerable (c : Socket.Call) : Nonempty c.Reply := by
    cases c with
    | noDelay => exact ⟨.ok ()⟩
    | startTimer limit => exact ⟨()⟩
    | _ => exact ⟨none⟩
  obtain ⟨later, r, runs⟩ := steps.completes (S := socket) answerable
  obtain ⟨take, -, course⟩ := method_course runs
  obtain ⟨length, front⟩ := course.calls
  rw [List.map_append] at front
  have calls := (List.prefix_append _ _).trans front
  refine ⟨⟨length, calls⟩, (List.IsPrefix.flatMap calls Socket.Call.given).trans ?_⟩
  simp [exchangeCalls, frameCalls, answerCalls, Socket.Call.given, Frame.write, Frame.enclose]

end

/-- At any point of an exchange the leader has read the request of the method or nothing, and what
comes of the exchange is what the leader's reply says. A text's length is written in 64 bits, so the
request is supposed to stay below `2 ^ 64` bytes. -/
theorem replies_taken_at_face_value (client : Client) (endpoint : String) (limit : Duration)
    (request : Request) (small : (encode request).length < UInt64.size) :
    (∀ es q, Steps (client.method endpoint limit request) es q →
      (∃ length, es.map Event.call <+:
        exchangeCalls (Address.ofEndpoint endpoint) client.connectTimeout limit request length) ∧
      ∀ received reply, Stream es received reply →
        heard received = [] ∨ heard received = [request]) ∧
    (∀ es r, Runs (client.method endpoint limit request) es r →
      FaceValue (Address.ofEndpoint endpoint) request (Grants request) es r) ∧
    (∀ es r, Runs (client.call endpoint request limit) es r →
      FaceValue (Address.ofEndpoint endpoint) request Yields es r) := by
  refine ⟨fun es q steps => ?_, fun es r => method_faceValue, fun es r => call_faceValue⟩
  obtain ⟨calls, front⟩ := sent_prefix steps
  exact ⟨calls, fun received reply stream =>
    readAll_of_prefix small (stream.received.trans front)⟩

theorem countRequest_faceValue :
    (encode countRequest).length < UInt64.size ∧
    ∃ (es : History socket) (r : Except Fault UInt64),
      Runs (localClient.collectionCount "127.0.0.1:8529" "db" "s1" (.ofSecs 5)) es r ∧
      Stream es (Frame.write countRequest) (Frame.write (Response.count 7)) ∧
      (heard (Frame.write countRequest) = [] ∨ heard (Frame.write countRequest) = [countRequest]) ∧
      r = .ok 7 := by
  have small : (encode countRequest).length < UInt64.size := by decide +kernel
  obtain ⟨es, r, runs, stream, read⟩ := exists_method localClient "127.0.0.1:8529" (.ofSecs 5)
    countRequest (.count 7) (by decide +kernel)
  obtain ⟨asked, told, -⟩ := replies_taken_at_face_value localClient "127.0.0.1:8529" (.ofSecs 5)
    countRequest small
  refine ⟨small, es, r, runs, stream, (asked es _ runs).2 _ _ stream, ?_⟩
  refine ((told es r runs).granted (7 : UInt64)).mpr ⟨.count 7, ?_, .counted "db" "s1" 7⟩
  rw [read]
  exact beginsWith_write (by decide +kernel)

end Wire
end FollowerSync
