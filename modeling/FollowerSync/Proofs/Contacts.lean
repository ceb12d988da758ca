import FollowerSync.Proofs.Exchanges

set_option autoImplicit false

namespace FollowerSync.Wire
open Leader

/-- Taken at its word, the answer comes from nobody. -/
def SaysUnreached {α : Type} (answer : Except Fault α) : Prop :=
  ∃ fault, answer = .error fault ∧ fault.isConnectFailure = true

section
variable {α β : Type}

theorem not_saysUnreached_ok (a : α) : ¬SaysUnreached (.ok a) := by
  rintro ⟨fault, same, _⟩
  cases same

theorem saysUnreached_error (fault : Fault) :
    SaysUnreached (.error fault : Except Fault α) ↔ fault.isConnectFailure = true := by
  constructor
  · rintro ⟨_, ⟨⟩, unreached⟩
    exact unreached
  · intro unreached
    exact ⟨fault, rfl, unreached⟩

theorem saysUnreached_bind (r : Except Fault α) (f : α → Except Fault β) :
    SaysUnreached (r.bind f) ↔ SaysUnreached r ∨ ∃ a, r = .ok a ∧ SaysUnreached (f a) := by
  cases r with
  | error fault =>
    change SaysUnreached (.error fault) ↔ _
    simp [saysUnreached_error]
  | ok a =>
    change SaysUnreached (f a) ↔ _
    simp [not_saysUnreached_ok]

end

theorem takeBody_fault {bytes : Bytes} {fault : Fault}
    (failed : (Frame.takeBody bytes).1 = .error fault) :
    fault = Frame.cutOff ∨ (∃ length, fault = Frame.tooLarge length) ∨ fault = Frame.corrupted := by
  unfold Frame.takeBody at failed
  split at failed
  · exact .inl (Except.error.inj failed).symm
  · split at failed
    · exact .inr (.inl ⟨_, (Except.error.inj failed).symm⟩)
    · split at failed
      · exact .inl (Except.error.inj failed).symm
      · dsimp only at failed
        split at failed
        · cases failed
        · exact .inr (.inr (Except.error.inj failed).symm)

theorem open_fault {α : Type} [Encodable α] {body : Bytes} {fault : Fault}
    (failed : Frame.open? (α := α) body = .error fault) :
    ∃ malformed : Malformed, fault = .serialization malformed.message := by
  unfold Frame.open? at failed
  split at failed
  · cases failed
  · exact ⟨_, (Except.error.inj failed).symm⟩

theorem not_saysUnreached_read {α : Type} [Encodable α] (bytes : Bytes) :
    ¬SaysUnreached (Frame.read (α := α) bytes).1 := by
  have same : (Frame.read (α := α) bytes).1 = (Frame.takeBody bytes).1.bind Frame.open? := rfl
  rw [same, saysUnreached_bind]
  rintro (⟨fault, failed, unreached⟩ | ⟨body, _, fault, failed, unreached⟩)
  · rcases takeBody_fault failed with rfl | ⟨length, rfl⟩ | rfl <;> cases unreached
  · obtain ⟨malformed, rfl⟩ := open_fault failed
    cases unreached

theorem saysUnreached_accept (response : Response) :
    SaysUnreached response.accept ↔ ∃ reason, response = .error .couldNotConnect reason := by
  cases response with
  | error code reason =>
    cases code <;>
      simp [Response.accept, saysUnreached_error, Fault.isConnectFailure, Fault.code]
  | _ => simp [Response.accept, not_saysUnreached_ok]

theorem not_saysUnreached_settle {α : Type} (operation : String) (take : Response → Option α)
    (response : Response) : ¬SaysUnreached (settle operation take response) := by
  unfold settle
  split
  · exact not_saysUnreached_ok _
  · rw [saysUnreached_error]
    exact Bool.false_ne_true

/-- The bytes begin with a sound frame, and its body with the response. -/
def BeginsWith (bytes : Bytes) (response : Response) : Prop :=
  ∃ padding rest, bytes = Frame.enclose (encode response ++ padding) ++ rest ∧
    (encode response ++ padding).length ≤ Header.maxLength

theorem read_response_eq_ok_iff {bytes : Bytes} {response : Response} :
    (Frame.read bytes).1 = .ok response ↔ BeginsWith bytes response := by
  constructor
  · intro read
    obtain ⟨body, padding, same, short, decoded⟩ :=
      Frame.read_eq_ok_iff.mp (Prod.ext read (rfl : (Frame.read (α := Response) bytes).2 = _))
    obtain rfl := Canonical.spelling decoded
    exact ⟨padding, _, same, short⟩
  · rintro ⟨padding, rest, rfl, short⟩
    have small : (encode response).length < UInt64.size := by
      rw [List.length_append] at short
      exact Nat.lt_of_le_of_lt (Nat.le_trans (Nat.le_add_right _ _) short) (by decide)
    have decoded := Readable.takes_encode response small padding
    exact congrArg Prod.fst (Frame.read_eq_ok_iff.mpr ⟨_, padding, rfl, short, decoded⟩)

theorem BeginsWith.long {bytes : Bytes} {response : Response} (begins : BeginsWith bytes response) :
    Header.size < bytes.length := by
  obtain ⟨padding, rest, rfl, -⟩ := begins
  have numbered : 0 < (encode response).length := by
    refine List.length_pos_iff.mpr fun empty => ?_
    cases response <;> cases empty
  simp only [Frame.enclose, List.length_append, Header.length_encode]
  omega

def CouldNotConnect (bytes : Bytes) : Prop :=
  ∃ reason, BeginsWith bytes (.error .couldNotConnect reason)

theorem saysUnreached_read_accept (bytes : Bytes) :
    SaysUnreached ((Frame.read bytes).1.bind Response.accept) ↔ CouldNotConnect bytes := by
  rw [saysUnreached_bind, or_iff_right (not_saysUnreached_read bytes)]
  constructor
  · rintro ⟨response, read, unreached⟩
    obtain ⟨reason, rfl⟩ := (saysUnreached_accept response).mp unreached
    exact ⟨reason, read_response_eq_ok_iff.mp read⟩
  · rintro ⟨reason, begins⟩
    exact ⟨_, read_response_eq_ok_iff.mpr begins, (saysUnreached_accept _).mpr ⟨reason, rfl⟩⟩

section
variable {α : Type} {address : String} {connectTimeout limit : Duration} {request : Request}
  {bytes : Bytes} {told : Bytes → Except Fault α} {es : History socket} {r : Except Fault α}

/-- Only the failure to connect ends an exchange as one that reached nobody, and nothing was sent
then. -/
theorem Course.sent_of_unreached {fault : Fault}
    (course : Course address (exchangeCalls address connectTimeout limit request) bytes told es r)
    (hitch : es.findSome? (hitch? address) = some fault) (unreached : fault.isConnectFailure = true) :
    sent es = [] := by
  obtain ⟨-, -, before, ⟨c, reply⟩, rfl, stops⟩ := course.hitched fault hitch
  have connects : ∃ reached limit, c = .connect reached limit := by
    cases c with
    | connect reached limit => exact ⟨_, _, rfl⟩
    | noDelay =>
      cases reply <;> cases stops
      cases unreached
    | startTimer limit => cases stops
    | perform operation =>
      rcases reply with _ | (_ | _) <;> cases stops <;> cases unreached
  obtain ⟨reached, within, rfl⟩ := connects
  obtain ⟨length, front⟩ := course.calls
  cases before with
  | nil => rfl
  | cons first before =>
    rw [exchangeCalls, List.cons_append, List.map_cons, List.cons_prefix_cons] at front
    have mem := front.2.subset (a := .connect reached within) (by simp)
    simp [frameCalls, answerCalls] at mem

theorem Course.saysUnreached_iff
    (course : Course address (exchangeCalls address connectTimeout limit request) bytes told es r)
    (coded : ∀ bytes, SaysUnreached (told bytes) ↔ CouldNotConnect bytes) :
    SaysUnreached r ↔
      (∃ fault, es.findSome? (hitch? address) = some fault ∧ fault.isConnectFailure = true) ∨
        CouldNotConnect (came es) := by
  cases found : es.findSome? (hitch? address) with
  | none =>
    obtain ⟨-, rfl⟩ := course.smooth found
    simp [coded]
  | some fault =>
    obtain ⟨rfl, short, -⟩ := course.hitched fault found
    have untold : ¬CouldNotConnect (came es) := fun ⟨_, begins⟩ =>
      Nat.not_le_of_lt begins.long short
    rw [saysUnreached_error, or_iff_left untold]
    simp

theorem Course.unread_iff
    (course : Course address (exchangeCalls address connectTimeout limit request) bytes told es r)
    (coded : ∀ bytes, SaysUnreached (told bytes) ↔ CouldNotConnect bytes) {received reply : Bytes}
    (stream : Stream es received reply) :
    (SaysUnreached r → heard received = []) ↔ heard received = [] ∨ ¬CouldNotConnect (came es) := by
  have unread : (∃ fault, es.findSome? (hitch? address) = some fault ∧
      fault.isConnectFailure = true) → heard received = [] := by
    rintro ⟨fault, found, unreached⟩
    have nothing := stream.received
    rw [course.sent_of_unreached found unreached, List.prefix_nil] at nothing
    subst nothing
    rfl
  rw [course.saysUnreached_iff coded, or_imp, and_iff_right unread, imp_iff_or_not]

/-- In every exchange of every method, and of a bare call: whoever is told that it failed to connect
was read by nobody, unless what came back is an answer with the code of such a failure. -/
theorem Client.unread_of_saysUnreached_iff (client : Client) (endpoint : String) (limit : Duration)
    (request : Request) (es : History socket) (received reply : Bytes)
    (stream : Stream es received reply) :
    (∀ r, Runs (client.method endpoint limit request) es r →
      ((SaysUnreached r → heard received = []) ↔
        heard received = [] ∨ ¬CouldNotConnect (came es))) ∧
    (∀ r, Runs (client.call endpoint request limit) es r →
      ((SaysUnreached r → heard received = []) ↔
        heard received = [] ∨ ¬CouldNotConnect (came es))) := by
  refine ⟨fun r runs => ?_, fun r runs => (call_course runs).unread_iff saysUnreached_read_accept
    stream⟩
  obtain ⟨take, -, course⟩ := method_course runs
  refine course.unread_iff (fun bytes => ?_) stream
  rw [saysUnreached_bind, saysUnreached_read_accept, or_iff_left]
  rintro ⟨response, -, unreached⟩
  exact not_saysUnreached_settle _ _ response unreached

end

theorem heard_write {request : Request} (fits : Fits request) :
    heard (Frame.write request) = [request] := by
  have only : ∀ m ∈ [request], Fits m := by simpa using fits
  have whole : stream [request] ++ [] = Frame.write request := by simp [stream]
  have nonempty : (Frame.write request).length ≠ 0 := fun empty =>
    enclose_ne_nil _ (List.length_eq_zero_iff.mp empty)
  obtain ⟨limit, length⟩ := Nat.exists_eq_succ_of_ne_zero nonempty
  have read := readUpTo_stream only limit []
  rw [whole, List.length_singleton, Nat.add_comm] at read
  rw [heard, Frame.readAll, length, read]
  cases limit <;> rfl

theorem exists_method (client : Client) (endpoint : String) (limit : Duration) (request : Request)
    (response : Response) (fits : Fits response) :
    ∃ es r, Runs (client.method endpoint limit request) es r ∧
      Stream es (Frame.write request) (Frame.write response) ∧ came es = Frame.write response := by
  obtain ⟨es, calls, written, read⟩ := exists_call client endpoint limit request response fits
  have stream : Stream es (Frame.write request) (Frame.write response) :=
    ⟨written ▸ List.prefix_rfl, read ▸ List.prefix_rfl⟩
  cases request <;> exact ⟨es, _, runs_query_iff.mpr ⟨_, calls, rfl⟩, stream, read⟩

theorem beginsWith_write {response : Response} (fits : Fits response) :
    BeginsWith (Frame.write response) response :=
  ⟨[], [], by simp [Frame.write], by rwa [List.append_nil]⟩

theorem BeginsWith.unique {bytes : Bytes} {response response' : Response}
    (begins : BeginsWith bytes response) (begins' : BeginsWith bytes response') :
    response = response' := by
  have read := read_response_eq_ok_iff.mpr begins
  rw [read_response_eq_ok_iff.mpr begins'] at read
  exact (Except.ok.inj read).symm

def lockingRequest : LockRequest :=
  { database := "db", lockId := 9, collection := "s1", ttl := .ofSecs 600, serverId := "F",
    clientId := "db9s1L", rebootId := 1, mode := .hard, wantFollowingTerm := true }

def localClient : Client := ⟨.ofSecs 5⟩

theorem granted_unread :
    ∃ (es : History socket) (r : Except Fault LockGrant),
      Runs (localClient.acquireLock "127.0.0.1:8529" lockingRequest (.ofSecs 5)) es r ∧
      Stream es (Frame.write (Request.acquireLock lockingRequest)) (Frame.write Response.ok) ∧
      (SaysUnreached r → heard (Frame.write (Request.acquireLock lockingRequest)) = []) := by
  obtain ⟨es, r, runs, stream, read⟩ := exists_method localClient "127.0.0.1:8529" (.ofSecs 5)
    (.acquireLock lockingRequest) .ok (by decide +kernel)
  refine ⟨es, r, runs, stream, ?_⟩
  have told := Client.unread_of_saysUnreached_iff localClient "127.0.0.1:8529" (.ofSecs 5)
    (.acquireLock lockingRequest) es _ _ stream
  refine (told.1 r runs).mpr (.inr ?_)
  rw [read]
  rintro ⟨reason, begins⟩
  cases begins.unique (beginsWith_write (by decide +kernel))

def relayed : Response := .error .couldNotConnect "no quorum"

/-- A leader reads a request for a lock and answers that it could not connect to somebody: the
failure says that nobody was reached. -/
theorem relayed_saysUnreached :
    ∃ (es : History socket) (r : Except Fault LockGrant),
      Runs (localClient.acquireLock "127.0.0.1:8529" lockingRequest (.ofSecs 5)) es r ∧
      Stream es (Frame.write (Request.acquireLock lockingRequest)) (Frame.write relayed) ∧
      heard (Frame.write (Request.acquireLock lockingRequest)) = [.acquireLock lockingRequest] ∧
      r = .error (.rpc .couldNotConnect "no quorum") ∧ SaysUnreached r := by
  obtain ⟨es, calls, written, read⟩ := exists_call localClient "127.0.0.1:8529" (.ofSecs 5)
    (.acquireLock lockingRequest) relayed (by decide +kernel)
  exact ⟨es, _, runs_query_iff.mpr ⟨_, calls, rfl⟩,
    ⟨written ▸ List.prefix_rfl, read ▸ List.prefix_rfl⟩, heard_write (by decide +kernel), rfl,
    _, rfl, rfl⟩

end FollowerSync.Wire
