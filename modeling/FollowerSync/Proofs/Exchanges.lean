import FollowerSync.Proofs.FrameLimits
import FollowerSync.Proofs.Histories
import FollowerSync.Wire.Client

/-!
# The course of an exchange

Whatever a socket replies, an exchange makes its calls in one order, and it ends at the first call
that fails or is late, or with what the bytes that came say. What the leader receives of it is at
most the frame of the request.
-/

set_option autoImplicit false

namespace FollowerSync
open Wire Leader

theorem Steps.completes {S : Signature} {α : Type} (answerable : ∀ c, Nonempty (S.Reply c))
    {p q : Program S α} {es : History S} (steps : Steps p es q) :
    ∃ later a, Runs p (es ++ later) a := by
  have ends : ∃ later a, Runs q later a := by
    clear steps
    induction q with
    | done a => exact ⟨[], a, .refl _⟩
    | call c next ih =>
      obtain ⟨r⟩ := answerable c
      obtain ⟨later, a, runs⟩ := ih r
      exact ⟨⟨c, r⟩ :: later, a, .call runs⟩
  obtain ⟨later, a, runs⟩ := ends
  exact ⟨later, a, steps.append runs⟩

namespace Wire

def Socket.Call.given : Socket.Call → Bytes
  | .perform (.write bytes) => bytes
  | _ => []

def sent (es : History socket) : Bytes := (es.map Event.call).flatMap Socket.Call.given

def arrived : Event socket → Bytes
  | ⟨.perform (.read _), some (.ok bytes)⟩ => bytes
  | _ => []

/-- What was read from the socket. -/
def came (es : History socket) : Bytes := es.flatMap arrived

/-- A connection delivers bytes in order: the leader has received a part of what was sent, and what
was read is a part of the leader's reply, each of them from the front on. -/
structure Stream (es : History socket) (received reply : Bytes) : Prop where
  received : received <+: sent es
  reply : came es <+: reply

/-- The requests in what a leader has received. -/
def heard (received : Bytes) : List Request := (Frame.readAll received).messages

/-- The fault with which an exchange ends at an event. -/
def hitch? (address : String) : Event socket → Option Fault
  | ⟨.connect .., some (.error reason)⟩ => some (.connectionFailed address reason)
  | ⟨.noDelay, .error reason⟩ => some (.io reason)
  | ⟨.perform _, some (.error reason)⟩ => some (.io reason)
  | ⟨.connect .., none⟩ | ⟨.perform _, none⟩ => some (.connectionTimeout address)
  | _ => none

def Cut.fault (address : String) : Cut → Fault
  | late => .connectionTimeout address
  | failed fault => fault

def answerCalls (length : Nat) : List Socket.Call :=
  [.perform (.read Header.size), .perform (.read length)]

def frameCalls (request : Request) (length : Nat) : List Socket.Call :=
  .perform (.write (encode (Header.ofBody (encode request)))) ::
    .perform (.write (encode request)) :: .perform .flush :: answerCalls length

def exchangeCalls (address : String) (connectTimeout limit : Duration) (request : Request)
    (length : Nat) : List Socket.Call :=
  .connect address connectTimeout :: .noDelay :: .startTimer limit :: frameCalls request length

/-- The calls come in the given order, and together they send the bytes. Unless there is a hitch,
with which it ends, what came decides the outcome. -/
structure Course {α : Type} (address : String) (calls : Nat → List Socket.Call) (bytes : Bytes)
    (told : Bytes → Except Fault α) (es : History socket) (r : Except Fault α) : Prop where
  calls : ∃ length, es.map Event.call <+: calls length
  hitched (fault : Fault) : es.findSome? (hitch? address) = some fault →
    r = .error fault ∧ (came es).length ≤ Header.size ∧
      ∃ before e, es = before ++ [e] ∧ hitch? address e = some fault
  smooth : es.findSome? (hitch? address) = none → sent es = bytes ∧ r = told (came es)

section
variable {α : Type} {address : String} {calls : Nat → List Socket.Call} {bytes : Bytes}
  {told : Bytes → Except Fault α} {es : History socket} {r : Except Fault α} {e : Event socket}
  {fault : Fault}

theorem arrived_of_hitch (hitch : hitch? address e = some fault) : arrived e = [] := by
  unfold arrived
  split
  · cases hitch
  · rfl

theorem Course.of_hitch {h : History socket} (hitch : hitch? address e = some fault)
    (smooth : ∀ e ∈ h, hitch? address e = none) (short : (came h).length ≤ Header.size)
    (first : ∃ length, (h ++ [e]).map Event.call <+: calls length) :
    Course address calls bytes told (h ++ [e]) (.error fault) where
  calls := first
  hitched fault' found := by
    rw [List.findSome?_append, List.findSome?_eq_none_iff.mpr smooth] at found
    obtain rfl : fault = fault' := by simpa [hitch] using found
    refine ⟨rfl, ?_, h, e, rfl, hitch⟩
    rw [came, List.flatMap_append, List.flatMap_singleton, arrived_of_hitch hitch, List.append_nil]
    exact short
  smooth unhindered := by simp [hitch] at unhindered

theorem Course.of_first_hitch (hitch : hitch? address e = some fault)
    (first : ∃ length, [e.call] <+: calls length) :
    Course address calls bytes told [e] (.error fault) :=
  .of_hitch (h := []) hitch (fun _ mem => nomatch mem) (Nat.zero_le _) first

theorem Course.cons {later : Nat → List Socket.Call} {rest : Bytes}
    (course : Course address later rest told es r) (smooth : hitch? address e = none)
    (silent : arrived e = []) (first : ∀ length, calls length = e.call :: later length)
    (given : bytes = e.call.given ++ rest) : Course address calls bytes told (e :: es) r where
  calls := by
    obtain ⟨length, front⟩ := course.calls
    exact ⟨length, first length ▸ (List.prefix_cons_inj _).mpr front⟩
  hitched fault found := by
    simp only [List.findSome?_cons, smooth] at found
    obtain ⟨failed, short, before, last, rfl, hitch⟩ := course.hitched fault found
    exact ⟨failed, by simpa [came, silent] using short, e :: before, last, rfl, hitch⟩
  smooth unhindered := by
    simp only [List.findSome?_cons, smooth] at unhindered
    obtain ⟨whole, outcome⟩ := course.smooth unhindered
    refine ⟨by simp [sent, given, ← whole], ?_⟩
    simpa [came, silent] using outcome

end

section
variable {α : Type} {address : String} {calls : Nat → List Socket.Call} {bytes : Bytes}
  {told : Bytes → Except Fault α} {es : History socket} {r : Except Fault α}

theorem Course.of_smooth (first : ∃ length, es.map Event.call <+: calls length)
    (smooth : ∀ e ∈ es, hitch? address e = none) (whole : sent es = bytes)
    (outcome : r = told (came es)) : Course address calls bytes told es r where
  calls := first
  hitched fault found := by
    obtain ⟨e, mem, hitch⟩ := List.exists_of_findSome?_eq_some found
    rw [smooth e mem] at hitch
    cases hitch
  smooth _ := ⟨whole, outcome⟩

end

section
variable {α : Type} {operation : Socket.Operation} {f : operation.Yield → Exchange α}
  {es : History socket} {r : Except Cut α}

theorem runs_perform_bind_iff :
    Runs (Exchange.perform operation >>= f).run es r ↔
      ∃ reply rest, es = ⟨.perform operation, reply⟩ :: rest ∧
        match reply with
        | some (.ok a) => Runs (f a).run rest r
        | some (.error reason) => rest = [] ∧ r = .error (.failed (.io reason))
        | none => rest = [] ∧ r = .error .late := by
  have unfolded : (Exchange.perform operation >>= f).run =
      Program.call (S := socket) (.perform operation) fun reply =>
        match reply with
        | some (.ok a) => (f a).run
        | some (.error reason) => .done (.error (.failed (.io reason)))
        | none => .done (.error .late) := by
    rw [ExceptT.run_bind]
    refine congrArg (Program.call _) (funext fun reply => ?_)
    rcases reply with _ | _ | _ <;> rfl
  rw [unfolded, Runs.call_iff]
  refine exists_congr fun reply => exists_congr fun rest => and_congr_right fun _ => ?_
  rcases reply with _ | _ | _ <;> simp

end

theorem Header.decode_append {front : Bytes} (whole : front.length = Header.size) (rest : Bytes) :
    (decode : Decoder Header) (front ++ rest) = .ok (ofFront front, rest) := by
  have taken (bytes rest : Bytes) (four : bytes.length = 4) :
      (decode : Decoder UInt32) (bytes ++ rest) = .ok (.ofNat (ofLittleEndian bytes), rest) :=
    Decoder.bind_ok (Decoder.bind_ok (takeBytes_append four .cutShort rest))
  have length : (front.take 4).length = 4 := by simp [whole, size]
  have checksum : (front.drop 4).length = 4 := by simp [whole, size]
  have split : front ++ rest = front.take 4 ++ (front.drop 4 ++ rest) := by
    rw [← List.append_assoc, List.take_append_drop]
  rw [split]
  refine (Decoder.bind_ok (taken _ _ length)).trans ?_
  refine (Decoder.bind_ok (taken _ _ checksum)).trans ?_
  rw [ofFront, List.take_of_length_le (Nat.le_of_eq checksum)]
  rfl

section
variable {front body : Bytes}

theorem takeBody_of_large (whole : front.length = Header.size)
    (large : Header.maxLength < (Header.ofFront front).length.toNat) :
    Frame.takeBody front = (.error (Frame.tooLarge (Header.ofFront front).length), []) := by
  have header := Header.decode_append whole []
  rw [List.append_nil] at header
  unfold Frame.takeBody
  rw [header]
  exact if_pos large

theorem takeBody_of_counted (whole : front.length = Header.size)
    (small : ¬Header.maxLength < (Header.ofFront front).length.toNat)
    (counted : body.length = (Header.ofFront front).length.toNat) :
    Frame.takeBody (front ++ body) =
      if Crc32.checksum body = (Header.ofFront front).checksum then (.ok body, [])
      else (.error Frame.corrupted, []) := by
  unfold Frame.takeBody
  rw [Header.decode_append whole]
  dsimp only
  rw [if_neg small, if_neg (Nat.not_lt.mpr (Nat.le_of_eq counted.symm)), ← counted, List.take_length, List.drop_length]

end

section
variable {α : Type} {address : String} {es : History socket} {r : Except Cut α}

theorem runs_orFail_iff {a : Except Fault α} :
    Runs (Exchange.orFail a).run es r ↔ es = [] ∧ r = a.mapError .failed := by
  cases a <;> exact Runs.done_iff

/-- What a whole body comes to is what the bytes of its frame say. -/
theorem runs_body [Encodable α] {front body : Bytes} (whole : front.length = Header.size)
    (small : ¬Header.maxLength < (Header.ofFront front).length.toNat)
    (counted : body.length = (Header.ofFront front).length.toNat)
    (runs : Runs (if Crc32.checksum body = (Header.ofFront front).checksum then
      Exchange.orFail (Frame.open? (α := α) body)
      else throw (.failed Frame.corrupted)).run es r) :
    es = [] ∧ r.mapError (Cut.fault address) = (Frame.read (front ++ body)).1 := by
  have taken := takeBody_of_counted whole small counted
  split at runs
  · rename_i sound
    obtain ⟨rfl, rfl⟩ := runs_orFail_iff.mp runs
    rw [if_pos sound] at taken
    rw [Frame.read, taken]
    refine ⟨rfl, ?_⟩
    cases inside : Frame.open? (α := α) body <;> simp [Except.mapError, Except.bind, Cut.fault, inside]
  · rename_i unsound
    obtain ⟨rfl, rfl⟩ := Runs.done_iff.mp runs
    rw [if_neg unsound] at taken
    exact ⟨rfl, by rw [Frame.read, taken]; rfl⟩

/-- A reader that was given all it asked for reads what is in the bytes. -/
theorem readFrame_course [Encodable α] (runs : Runs (Exchange.readFrame α).run es r) :
    Course address answerCalls [] (fun bytes => (Frame.read bytes).1) es
      (r.mapError (Cut.fault address)) := by
  unfold Exchange.readFrame at runs
  obtain ⟨reply, rest, rfl, goesOn⟩ := runs_perform_bind_iff.mp runs
  rcases reply with _ | (reason | ⟨front, whole⟩)
  · obtain ⟨rfl, rfl⟩ := goesOn
    exact .of_first_hitch rfl ⟨0, [_], rfl⟩
  · obtain ⟨rfl, rfl⟩ := goesOn
    exact .of_first_hitch rfl ⟨0, [_], rfl⟩
  dsimp only at goesOn
  split at goesOn
  · rename_i large
    obtain ⟨rfl, rfl⟩ := Runs.done_iff.mp goesOn
    refine .of_smooth ⟨0, [_], rfl⟩ (by simp [hitch?]) rfl ?_
    simp [Frame.read, came, arrived, takeBody_of_large whole large, Except.mapError, Cut.fault,
      Except.bind]
  rename_i small
  replace goesOn := runs_perform_bind_iff.mp goesOn
  obtain ⟨reply, rest, rfl, goesOn⟩ := goesOn
  have hitched {fault : Fault} (hitch : hitch? address ⟨.perform (.read _), reply⟩ = some fault) :
      Course address answerCalls [] (fun bytes => (Frame.read (α := α) bytes).1)
        [⟨.perform (.read Header.size), some (.ok ⟨front, whole⟩)⟩, ⟨.perform (.read _), reply⟩]
        (.error fault) :=
    .of_hitch (h := [_]) hitch (by simp [hitch?]) (by simp [came, arrived, whole]) ⟨_, [], rfl⟩
  rcases reply with _ | (reason | ⟨body, counted⟩)
  · obtain ⟨rfl, rfl⟩ := goesOn
    exact hitched rfl
  · obtain ⟨rfl, rfl⟩ := goesOn
    exact hitched rfl
  · obtain ⟨rfl, outcome⟩ := runs_body whole small counted goesOn
    refine .of_smooth ⟨_, [], rfl⟩ (by simp [hitch?]) rfl (outcome.trans ?_)
    simp [came, arrived]

theorem perform_course {operation : Socket.Operation} {f : operation.Yield → Exchange α}
    {calls later : Nat → List Socket.Call} {bytes rest : Bytes} {told : Bytes → Except Fault α}
    (runs : Runs (Exchange.perform operation >>= f).run es r)
    (silent : ∀ reply, arrived ⟨.perform operation, reply⟩ = [])
    (first : ∀ length, calls length = .perform operation :: later length)
    (given : bytes = Socket.Call.given (.perform operation) ++ rest)
    (goesOn : ∀ a es r, Runs (f a).run es r →
      Course address later rest told es (r.mapError (Cut.fault address))) :
    Course address calls bytes told es (r.mapError (Cut.fault address)) := by
  obtain ⟨reply, later, rfl, ends⟩ := runs_perform_bind_iff.mp runs
  have alone : ∃ length, [.perform operation] <+: calls length :=
    ⟨0, by rw [first]; exact ⟨_, rfl⟩⟩
  rcases reply with _ | (reason | a)
  · obtain ⟨rfl, rfl⟩ := ends
    exact .of_first_hitch rfl alone
  · obtain ⟨rfl, rfl⟩ := ends
    exact .of_first_hitch rfl alone
  · exact (goesOn a later r ends).cons rfl (silent _) first given

end

section
variable {request : Request} {es : History socket} {address : String}

theorem frame_course {r : Except Cut Response}
    (runs : Runs (ExceptT.run do
      Exchange.writeFrame request
      Exchange.readFrame Response) es r) :
    Course address (frameCalls request) (Frame.write request) (fun bytes => (Frame.read bytes).1) es
      (r.mapError (Cut.fault address)) := by
  unfold Exchange.writeFrame at runs
  simp only [bind_assoc] at runs
  refine perform_course runs (fun _ => rfl) (fun _ => rfl) rfl fun _ es r runs => ?_
  refine perform_course runs (fun _ => rfl) (fun _ => rfl) (List.append_nil _).symm
    fun _ es r runs => ?_
  exact perform_course runs (fun _ => rfl) (fun _ => rfl) rfl fun _ es r runs =>
    readFrame_course runs

theorem Course.bind {α β : Type} {calls : Nat → List Socket.Call} {bytes : Bytes}
    {told : Bytes → Except Fault α} {r : Except Fault α} (course : Course address calls bytes told es r)
    (f : α → Except Fault β) :
    Course address calls bytes (fun bytes => (told bytes).bind f) es (r.bind f) where
  calls := course.calls
  hitched fault found := by
    obtain ⟨rfl, rest⟩ := course.hitched fault found
    exact ⟨rfl, rest⟩
  smooth unhindered := by
    obtain ⟨whole, rfl⟩ := course.smooth unhindered
    exact ⟨whole, rfl⟩

variable {client : Client} {endpoint : String} {limit : Duration}

def converse (address : String) (request : Request) (limit : Duration) :
    Talk (Except Fault Response) :=
  .call (S := socket) (.startTimer limit) fun _ =>
    (ExceptT.run do Exchange.writeFrame request; Exchange.readFrame Response).bind fun a =>
      .done ((a.mapError (Cut.fault address)).bind Response.accept)

theorem call_eq : client.call endpoint request limit =
    .call (S := socket) (.connect (Address.ofEndpoint endpoint) client.connectTimeout) fun
      | some (.ok ()) => .call (S := socket) .noDelay fun
        | .ok () => converse (Address.ofEndpoint endpoint) request limit
        | .error reason => .done (.error (.io reason))
      | some (.error reason) =>
        .done (.error (.connectionFailed (Address.ofEndpoint endpoint) reason))
      | none => .done (.error (.connectionTimeout (Address.ofEndpoint endpoint))) := by
  refine congrArg (Program.call _) (funext fun reply => ?_)
  rcases reply with _ | (_ | ⟨⟩)
  · rfl
  · rfl
  refine congrArg (Program.call _) (funext fun reply => ?_)
  rcases reply with _ | ⟨⟩
  · rfl
  refine congrArg (Program.call _) (funext fun _ => ?_)
  rw [Program.bind_done, Program.bind_eq]
  refine congrArg (Program.bind _) (funext fun a => ?_)
  rcases a with (_ | _) | _ <;> rfl

theorem converse_course {r : Except Fault Response}
    (runs : Runs (converse address request limit) es r) :
    Course address (fun length => .startTimer limit :: frameCalls request length)
      (Frame.write request) (fun bytes => (Frame.read bytes).1.bind Response.accept) es r := by
  obtain ⟨_, _, rfl, goesOn⟩ := Runs.call_iff.mp runs
  obtain ⟨es, _, a, rfl, talks, ends⟩ := Runs.bind_iff.mp goesOn
  obtain ⟨rfl, rfl⟩ := Runs.done_iff.mp ends
  rw [List.append_nil]
  refine Course.cons ?_ rfl rfl (fun _ => rfl) (List.nil_append _).symm
  exact (frame_course talks).bind Response.accept

theorem call_course {r : Except Fault Response}
    (runs : Runs (client.call endpoint request limit) es r) :
    Course (Address.ofEndpoint endpoint)
      (exchangeCalls (Address.ofEndpoint endpoint) client.connectTimeout limit request)
      (Frame.write request) (fun bytes => (Frame.read bytes).1.bind Response.accept) es r := by
  rw [call_eq] at runs
  generalize Address.ofEndpoint endpoint = address at *
  replace runs := Runs.call_iff.mp runs
  obtain ⟨reply, es, rfl, runs⟩ := runs
  rcases reply with _ | (reason | ⟨⟩)
  · obtain ⟨rfl, rfl⟩ := Runs.done_iff.mp runs
    exact .of_first_hitch rfl ⟨0, _, rfl⟩
  · obtain ⟨rfl, rfl⟩ := Runs.done_iff.mp runs
    exact .of_first_hitch rfl ⟨0, _, rfl⟩
  refine Course.cons ?_ rfl rfl (fun _ => rfl) (List.nil_append _).symm
  replace runs := Runs.call_iff.mp runs
  obtain ⟨reply, es, rfl, runs⟩ := runs
  rcases reply with reason | ⟨⟩
  · obtain ⟨rfl, rfl⟩ := Runs.done_iff.mp runs
    exact .of_first_hitch rfl ⟨0, _, rfl⟩
  exact (converse_course runs).cons rfl rfl (fun _ => rfl) (List.nil_append _).symm

def settle {α : Type} (operation : String) (take : Response → Option α) (response : Response) :
    Except Fault α :=
  match take response with
  | some a => .ok a
  | none => .error (Client.unexpected operation response)

theorem runs_query_iff {α : Type} {operation : String} {take : Response → Option α}
    {r : Except Fault α} :
    Runs (client.query endpoint request limit operation take) es r ↔
      ∃ a, Runs (client.call endpoint request limit) es a ∧ r = a.bind (settle operation take) := by
  have unfolded : client.query endpoint request limit operation take =
      (client.call endpoint request limit).bind fun a => .done (a.bind (settle operation take)) := by
    refine congrArg (Program.bind _) (funext fun a => ?_)
    cases a with
    | error fault => rfl
    | ok response =>
      change (match take response with
        | some a => pure (Except.ok a)
        | none => pure (Except.error (Client.unexpected operation response))) =
          Program.done (S := socket) (settle operation take response)
      unfold settle
      cases take response <;> rfl
  rw [unfolded, Runs.bind_iff]
  constructor
  · rintro ⟨es, _, a, rfl, calls, ends⟩
    obtain ⟨rfl, rfl⟩ := Runs.done_iff.mp ends
    exact ⟨a, (List.append_nil es).symm ▸ calls, rfl⟩
  · rintro ⟨a, calls, rfl⟩
    exact ⟨es, [], a, (List.append_nil es).symm, calls, .refl _⟩

/-- Which response grants a request, and what it yields. -/
inductive Grants : (request : Request) → Response → request.Payload → Prop where
  | lockId (database : String) (id : UInt64) : Grants (.newLockId database) (.lockId id) id
  | lock (request : LockRequest) (grant : LockGrant) :
    Grants (.acquireLock request) (.lockGranted grant) grant
  | bareLock (request : LockRequest) : Grants (.acquireLock request) .ok ⟨none, none⟩
  | cancelled (database : String) (lockId : UInt64) (clientId : String) :
    Grants (.cancelLock database lockId clientId) .ok ()
  | registered (request : AddFollowerRequest) : Grants (.addFollower request) .ok ()
  | counted (database shard : String) (count : UInt64) :
    Grants (.collectionCount database shard) (.count count) count
  | recounted (database shard : String) (count : UInt64) :
    Grants (.recalculateCount database shard) (.count count) count

theorem method_course {r : Except Fault request.Payload}
    (runs : Runs (client.method endpoint limit request) es r) :
    ∃ take : Response → Option request.Payload,
      (∀ response payload, take response = some payload ↔ Grants request response payload) ∧
      Course (Address.ofEndpoint endpoint)
        (exchangeCalls (Address.ofEndpoint endpoint) client.connectTimeout limit request)
        (Frame.write request)
        (fun bytes => ((Frame.read bytes).1.bind Response.accept).bind (settle request.name take))
        es r := by
  cases request <;>
    · obtain ⟨a, called, rfl⟩ := runs_query_iff.mp runs
      refine ⟨_, fun response payload => ⟨fun taken => ?_, ?_⟩, (call_course called).bind _⟩
      · cases response <;> cases taken <;> constructor
      · rintro ⟨⟩ <;> rfl

/-!
## An exchange in which nothing goes wrong
-/

theorem exists_reading {α : Type} [Encodable α] [Readable α] {message : α} (fits : Fits message) :
    ∃ es, Runs (Exchange.readFrame α).run es (.ok message) ∧ sent es = [] ∧
      came es = Frame.write message := by
  have small : (encode message).length < UInt64.size := Nat.lt_of_le_of_lt fits (by decide)
  have opened : Frame.open? (encode message) = .ok message :=
    open?_eq_ok_iff.mpr ⟨_, (Readable.takes_encode message small).whole⟩
  generalize front : encode (Header.ofBody (encode message)) = bytes
  have whole : bytes.length = Header.size := by rw [← front, Header.length_encode]
  have header : Header.ofFront bytes = Header.ofBody (encode message) := by
    have decoded := Header.decode_append whole []
    rw [← front, Header.decode_encode, front] at decoded
    simpa using decoded.symm
  have counted : (encode message).length = (Header.ofFront bytes).length.toNat := by
    rw [header, Header.ofBody_length fits]
  refine ⟨[⟨.perform (.read Header.size), some (.ok ⟨bytes, whole⟩)⟩,
    ⟨.perform (.read _), some (.ok ⟨encode message, counted⟩)⟩], ?_, rfl, ?_⟩
  · refine runs_perform_bind_iff.mpr ⟨_, _, rfl, ?_⟩
    dsimp only
    rw [if_neg (Nat.not_lt.mpr (counted ▸ fits))]
    refine runs_perform_bind_iff.mpr ⟨_, _, rfl, ?_⟩
    dsimp only
    have sound : Crc32.checksum (encode message) = (Header.ofFront bytes).checksum :=
      (congrArg Header.checksum header).symm
    rw [if_pos sound, opened]
    exact .refl _
  · simp [came, arrived, Frame.write, Frame.enclose, front]

theorem exists_call (client : Client) (endpoint : String) (limit : Duration) (request : Request)
    (response : Response) (fits : Fits response) :
    ∃ es, Runs (client.call endpoint request limit) es response.accept ∧
      sent es = Frame.write request ∧ came es = Frame.write response := by
  obtain ⟨reading, reads, silent, read⟩ := exists_reading fits
  let asking : History socket :=
    [⟨.perform (.write (encode (Header.ofBody (encode request)))), some (.ok ())⟩,
      ⟨.perform (.write (encode request)), some (.ok ())⟩, ⟨.perform .flush, some (.ok ())⟩]
  let opening : History socket :=
    [⟨.connect (Address.ofEndpoint endpoint) client.connectTimeout, some (.ok ())⟩,
      ⟨.noDelay, .ok ()⟩, ⟨.startTimer limit, ()⟩]
  have talks : Runs (ExceptT.run do
      Exchange.writeFrame request
      Exchange.readFrame Response) (asking ++ reading) (.ok response) := by
    unfold Exchange.writeFrame
    simp only [bind_assoc]
    refine runs_perform_bind_iff.mpr ⟨_, _, rfl, ?_⟩
    refine runs_perform_bind_iff.mpr ⟨_, _, rfl, ?_⟩
    exact runs_perform_bind_iff.mpr ⟨_, _, rfl, reads⟩
  refine ⟨opening ++ (asking ++ reading), ?_, ?_, ?_⟩
  · rw [call_eq]
    refine .call (.call (.call ?_))
    exact Runs.bind_iff.mpr ⟨_, [], _, (List.append_nil _).symm, talks, .refl _⟩
  · simpa [sent, opening, asking, Socket.Call.given, Frame.write, Frame.enclose] using silent
  · simpa [came, opening, asking, arrived] using read

end

end Wire
end FollowerSync
