import FollowerSync.Proofs.MessageForms
import FollowerSync.Wire.Frame

set_option autoImplicit false

namespace FollowerSync.Wire
open Leader Decoder

def stream {α : Type} [Encodable α] (messages : List α) : Bytes := messages.flatMap Frame.write

section
variable {α : Type} [Encodable α] {message : α} {messages before after : List α}
  {body padding rest : Bytes}

theorem stream_cons (message : α) (messages : List α) :
    stream (message :: messages) = Frame.write message ++ stream messages := by
  unfold stream
  rw [List.flatMap_cons]

theorem enclose_ne_nil (body : Bytes) : Frame.enclose body ≠ [] := by
  intro empty
  have length := congrArg List.length empty
  change (littleEndian 4 _ ++ littleEndian 4 _ ++ body).length = 0 at length
  rw [List.length_append, List.length_append, littleEndian_length] at length
  omega

theorem open?_eq_ok_iff :
    Frame.open? body = .ok message ↔ ∃ left, (decode : Decoder α) body = .ok (message, left) := by
  unfold Frame.open?
  cases (decode : Decoder α) body with
  | error malformed => simp
  | ok r => simp [Prod.ext_iff]

theorem read_enclose (opened : Frame.open? body = .ok message)
    (short : body.length ≤ Header.maxLength) (rest : Bytes) :
    Frame.read (Frame.enclose body ++ rest) = (.ok message, rest) := by
  unfold Frame.read
  rw [Frame.takeBody_enclose short]
  change (Frame.open? body, rest) = _
  rw [opened]

theorem open?_append [Readable α] (opened : Frame.open? body = .ok message) (padding : Bytes) :
    Frame.open? (body ++ padding) = .ok message := by
  obtain ⟨left, accepted⟩ := open?_eq_ok_iff.mp opened
  have longer := Readable.selfDelimiting.append accepted padding
  exact open?_eq_ok_iff.mpr ⟨_, longer⟩

def Fits (message : α) : Prop := (encode message).length ≤ Header.maxLength

theorem read_stream_cons [Readable α] (fits : Fits message) (messages : List α) (rest : Bytes) :
    Frame.read (stream (message :: messages) ++ rest) = (.ok message, stream messages ++ rest) := by
  have small : (encode message).length < UInt64.size := Nat.lt_of_le_of_lt fits (by decide)
  have whole := (Readable.takes_encode message small).whole
  rw [stream_cons, List.append_assoc]
  exact Frame.read_write fits whole _

theorem readUpTo_succ {bytes : Bytes} (nonempty : bytes.isEmpty = false)
    (first : Frame.read bytes = (.ok message, rest)) (limit : Nat) :
    Frame.readUpTo (limit + 1) bytes =
      let later := Frame.readUpTo limit rest
      { later with messages := message :: later.messages } := by
  change (if bytes.isEmpty then _ else _) = _
  rw [nonempty, first]
  rfl

/-- Reading goes on behind the frames of a stream as though they had not been there. -/
theorem readUpTo_stream [Readable α] (fits : ∀ m ∈ messages, Fits m) (limit : Nat) (rest : Bytes) :
    Frame.readUpTo (messages.length + limit) (stream messages ++ rest) =
      let later := Frame.readUpTo limit rest
      { later with messages := messages ++ later.messages } := by
  induction messages with
  | nil =>
    rw [List.length_nil, Nat.zero_add]
    rfl
  | cons message messages ih =>
    have first := read_stream_cons (fits message List.mem_cons_self) messages rest
    have others := ih fun m mem => fits m (List.mem_cons_of_mem message mem)
    have nonempty : (stream (message :: messages) ++ rest).isEmpty = false := by
      simp [stream_cons, Frame.write, enclose_ne_nil]
    rw [List.length_cons, Nat.add_right_comm, readUpTo_succ nonempty first, others]
    rfl

/-- Reading a stream yields its messages, and leaves what follows it untouched: as many reads as
there are messages, and each of them takes one frame. -/
structure ReadBack (messages : List α) (rest : Bytes) : Prop where
  all : Frame.readUpTo messages.length (stream messages ++ rest) = ⟨messages, none, rest⟩
  each (before after : List α) (message : α) : messages = before ++ message :: after →
    Frame.read (Frame.write message ++ (stream after ++ rest)) = (.ok message, stream after ++ rest)

theorem readBack_of_fits [Readable α] (fits : ∀ m ∈ messages, Fits m) (rest : Bytes) :
    ReadBack messages rest where
  all := by
    have read := readUpTo_stream fits 0 rest
    rw [Nat.add_zero] at read
    rw [read]
    change (⟨messages ++ [], none, rest⟩ : Frame.Reading α) = _
    rw [List.append_nil]
  each before after message split := by
    have mem : message ∈ messages := by simp [split]
    have read := read_stream_cons (fits message mem) after rest
    rw [stream_cons, List.append_assoc] at read
    exact read

theorem padding_ignored [Readable α] (opened : Frame.open? body = .ok message)
    (fits : (body ++ padding).length ≤ Header.maxLength) (rest : Bytes) :
    Frame.read (Frame.enclose (body ++ padding) ++ rest) = (.ok message, rest) :=
  read_enclose (open?_append opened padding) fits rest

end

/-- Messages whose bodies fit are read back one after the other from their frames in a row, whatever
follows, and bytes behind a message within its frame are passed over. -/
theorem frames_carry_messages (rest : Bytes) :
    (∀ requests : List Request, (∀ m ∈ requests, Fits m) → ReadBack requests rest) ∧
    (∀ responses : List Response, (∀ m ∈ responses, Fits m) → ReadBack responses rest) ∧
    (∀ (body padding : Bytes) (request : Request), Frame.open? body = .ok request →
      (body ++ padding).length ≤ Header.maxLength →
      Frame.read (Frame.enclose (body ++ padding) ++ rest) = (.ok request, rest)) ∧
    (∀ (body padding : Bytes) (response : Response), Frame.open? body = .ok response →
      (body ++ padding).length ≤ Header.maxLength →
      Frame.read (Frame.enclose (body ++ padding) ++ rest) = (.ok response, rest)) :=
  ⟨fun _ fits => readBack_of_fits fits rest, fun _ fits => readBack_of_fits fits rest,
    fun _ _ _ opened fits => padding_ignored opened fits rest,
    fun _ _ _ opened fits => padding_ignored opened fits rest⟩

instance {α : Type} [Encodable α] (message : α) : Decidable (Fits message) :=
  inferInstanceAs (Decidable (_ ≤ _))

def countAndLock : List Request := [.collectionCount "db" "s1", .acquireLock looseLock]

def countAndGrant : List Response := [.count 3, .lockGranted ⟨some 4, none⟩, .error .failed "é"]

theorem countAndLock_read_back :
    (∀ m ∈ countAndLock, Fits m) ∧ ReadBack countAndLock [1, 2, 3] ∧
    (∀ m ∈ countAndGrant, Fits m) ∧ ReadBack countAndGrant [1, 2, 3] ∧
    Frame.open? looseBody = .ok (Request.acquireLock looseLock) ∧
    (looseBody ++ [255]).length ≤ Header.maxLength ∧
    Frame.read (Frame.enclose (looseBody ++ [255]) ++ [1, 2, 3]) =
      (.ok (Request.acquireLock looseLock), [1, 2, 3]) := by
  have asked : ∀ m ∈ countAndLock, Fits m := by decide +kernel
  have answered : ∀ m ∈ countAndGrant, Fits m := by decide +kernel
  have opened : Frame.open? looseBody = .ok (Request.acquireLock looseLock) := rfl
  have short : (looseBody ++ [255]).length ≤ Header.maxLength := by decide +kernel
  obtain ⟨requests, responses, padded, -⟩ := frames_carry_messages [1, 2, 3]
  exact ⟨asked, requests _ asked, answered, responses _ answered, opened, short,
    padded _ _ _ opened short⟩

end FollowerSync.Wire
