import FollowerSync.Proofs.Bursts

set_option autoImplicit false

namespace FollowerSync.Wire
open Leader Decoder

instance : Canonical Header :=
  .of_spelled (.decode_bind fun _ => .decode_bind fun _ => spelled_pure rfl)

instance : Readable Header where
  selfDelimiting := .decode_bind fun _ => .decode_bind fun _ => selfDelimiting_pure _
  takes_encode header fits := by
    change (encode header.length ++ encode header.checksum).length < _ at fits
    exact .decode_bind fits fun fits => .decode_last fits rfl

theorem Header.encode_injective {h h' : Header} (same : encode h = encode h') : h = h' := by
  have read := Header.decode_encode h []
  rw [same, Header.decode_encode] at read
  simp_all

namespace Frame

theorem takeBody_eq_ok_iff {bytes body rest : Bytes} :
    takeBody bytes = (.ok body, rest) ↔
      bytes = enclose body ++ rest ∧ body.length ≤ Header.maxLength := by
  constructor
  · intro taken
    unfold takeBody at taken
    split at taken
    · cases taken
    · rename_i header behind accepted
      split at taken
      · cases taken
      split at taken
      · cases taken
      · rename_i short enough
        dsimp only at taken
        split at taken
        · rename_i checked
          cases taken
          have counted : (behind.take header.length.toNat).length = header.length.toNat := by
            rw [List.length_take]
            omega
          have same : Header.ofBody (behind.take header.length.toNat) = header := by
            simp [Header.ofBody, counted, checked]
          rw [enclose, same, List.append_assoc, List.take_append_drop, counted]
          exact ⟨Canonical.spelling accepted, by omega⟩
        · cases taken
  · rintro ⟨rfl, short⟩
    exact takeBody_enclose short rest

section
variable {α : Type} [Encodable α] {message read : α} {bytes sent more left rest : Bytes}

theorem read_eq_ok_iff :
    Frame.read bytes = (.ok message, rest) ↔
      ∃ body left, bytes = enclose body ++ rest ∧ body.length ≤ Header.maxLength ∧
        decode body = .ok (message, left) := by
  unfold Frame.read
  constructor
  · intro accepted
    obtain ⟨opened, rfl⟩ := Prod.ext_iff.mp accepted
    cases taken : takeBody bytes with
    | mk outcome behind =>
      rw [taken] at opened
      cases outcome with
      | error fault => cases opened
      | ok body =>
        obtain ⟨left, decoded⟩ := open?_eq_ok_iff.mp opened
        obtain ⟨same, short⟩ := takeBody_eq_ok_iff.mp taken
        exact ⟨body, left, same, short, decoded⟩
  · rintro ⟨body, left, rfl, short, decoded⟩
    rw [takeBody_enclose short]
    exact Prod.ext (open?_eq_ok_iff.mpr ⟨left, decoded⟩) rfl

/-- What is read from the bytes of a frame, or from a part of them, is the message in it. A body
cut short holds no message, and one that runs on into other bytes has another length. -/
theorem read_of_written [Readable α] (small : (encode message).length < UInt64.size)
    (written : sent ++ more = write message ++ rest)
    (accepted : Frame.read sent = (.ok read, left)) :
    Fits message ∧ read = message ∧ left ++ more = rest := by
  obtain ⟨body, padding, rfl, short, decoded⟩ := read_eq_ok_iff.mp accepted
  have takes := Readable.takes_encode message small
  have parts : encode (Header.ofBody body) ++ (body ++ (left ++ more)) =
      encode (Header.ofBody (encode message)) ++ (encode message ++ rest) := by
    simpa [write, enclose] using written
  obtain ⟨headers, bodies⟩ := List.append_inj parts (by simp [Header.length_encode])
  have header := Header.encode_injective headers
  have isBody : body = encode message := by
    rcases Nat.lt_or_ge body.length (encode message).length with cut | whole
    · have isFront : body <+: encode message ++ rest := bodies ▸ List.prefix_append body _
      have isPrefix := List.prefix_of_prefix_length_le isFront (List.prefix_append _ _)
        (Nat.le_of_lt cut)
      have differ : body ≠ encode message := fun same =>
        Nat.ne_of_lt cut (congrArg List.length same)
      obtain ⟨malformed, failed⟩ :=
        Readable.selfDelimiting.error_of_prefix takes isPrefix differ
      rw [decoded] at failed
      cases failed
    · have counted := congrArg (fun h : Header => h.length.toNat) header
      rw [Header.ofBody_length short, Header.ofBody_length (Nat.le_trans whole short)] at counted
      exact (List.append_inj bodies counted).1
  subst body
  rw [takes.whole] at decoded
  exact ⟨short, by simp_all, List.append_cancel_left bodies⟩

end

/-- The header says how long the body behind it is, and a reader takes as much. -/
def Admissible (frame : Bytes) : Prop :=
  ∃ (header : Header) (body : Bytes), frame = encode header ++ body ∧
    header.length.toNat = body.length ∧ header.length.toNat ≤ Header.maxLength

theorem admissible_enclose_iff (body : Bytes) :
    Admissible (enclose body) ↔ body.length ≤ Header.maxLength := by
  constructor
  · rintro ⟨header, body', same, counted, le⟩
    have length : (encode (Header.ofBody body)).length = (encode header).length := by
      rw [Header.length_encode, Header.length_encode]
    obtain ⟨-, rfl⟩ := List.append_inj same length
    exact counted ▸ le
  · intro short
    exact ⟨Header.ofBody body, body, rfl, Header.ofBody_length short,
      (Header.ofBody_length short).symm ▸ short⟩

theorem read_write_of_long {α β : Type} [Encodable α] [Encodable β] {message : α} {n : Nat}
    (length : (encode message).length = n) (long : Header.maxLength < n) (small : n < UInt32.size)
    (rest : Bytes) :
    Frame.read (α := β) (write message ++ rest) =
      (.error (tooLarge (.ofNat n)), encode message ++ rest) := by
  subst length
  have counted : (Header.ofBody (encode message)).length.toNat = (encode message).length :=
    UInt32.toNat_ofNat_of_lt' small
  have taken : takeBody (write message ++ rest) =
      (.error (tooLarge (Header.ofBody (encode message)).length), encode message ++ rest) := by
    unfold takeBody write enclose
    rw [List.append_assoc, Header.decode_encode]
    dsimp only
    rw [counted]
    exact if_pos long
  unfold Frame.read
  rw [taken]
  rfl

end Frame

/-- A frame that its reader can take is written for the messages within the limit, and for no
others. -/
theorem written_frame_admissible_iff {α : Type} [Encodable α] [Readable α] (message : α)
    (small : (encode message).length < UInt64.size) (rest : Bytes) :
    (Frame.Admissible (Frame.write message) ↔ Fits message) ∧
    ((∃ read : α, (Frame.read (Frame.write message ++ rest)).1 = .ok read) ↔ Fits message) := by
  refine ⟨Frame.admissible_enclose_iff _, ?_, ?_⟩
  · rintro ⟨read, accepted⟩
    have written : (Frame.write message ++ rest) ++ [] = Frame.write message ++ rest :=
      List.append_nil _
    exact (Frame.read_of_written small written (Prod.ext accepted rfl)).1
  · intro fits
    have takes := Readable.takes_encode message small
    exact ⟨message, congrArg Prod.fst (Frame.read_write fits takes.whole rest)⟩

theorem countRequest_admissible :
    (encode countRequest).length < UInt64.size ∧ Fits countRequest ∧
      Frame.Admissible (Frame.write countRequest) ∧
      ∃ read : Request, (Frame.read (Frame.write countRequest ++ [1, 2, 3])).1 = .ok read := by
  have small : (encode countRequest).length < UInt64.size := by decide +kernel
  have fits : Fits countRequest := by decide +kernel
  obtain ⟨written, readable⟩ := written_frame_admissible_iff countRequest small [1, 2, 3]
  exact ⟨small, fits, written.mpr fits, readable.mpr fits⟩

def runOf (n : Nat) : String := String.ofList (List.replicate n 'a')

theorem runOf_utf8ByteSize (n : Nat) : (runOf n).utf8ByteSize = n := by
  induction n with
  | zero => rfl
  | succ n ih =>
    have longer : runOf (n + 1) = "a" ++ runOf n := by
      rw [runOf, List.replicate_succ]
      simp [runOf]
    have one : "a".utf8ByteSize = 1 := rfl
    rw [longer, String.utf8ByteSize_append, ih, one, Nat.add_comm]

def oversized : Response := .error .internal (runOf 16777201)

theorem length_encode_error (code : Code) (reason : String) :
    (encode (Response.error code reason)).length = 16 + reason.utf8ByteSize := by
  change (littleEndian 4 _ ++ littleEndian 4 _ ++ encode reason).length = _
  rw [List.length_append, List.length_append, littleEndian_length, littleEndian_length,
    length_encode_string]
  omega

theorem oversized_length : (encode oversized).length = Header.maxLength + 1 := by
  rw [oversized, length_encode_error, runOf_utf8ByteSize, Header.maxLength]

/-- The frame is written all the same, and its reader refuses it. -/
theorem oversized_not_admissible :
    ¬Frame.Admissible (Frame.write oversized) ∧
      Frame.read (α := Response) (Frame.write oversized ++ [1, 2, 3]) =
        (.error (.network "Frame too large: 16777217 bytes"), encode oversized ++ [1, 2, 3]) := by
  have text : Frame.tooLarge (.ofNat (Header.maxLength + 1)) =
      .network "Frame too large: 16777217 bytes" := by decide +kernel
  have refused := Frame.read_write_of_long (β := Response) oversized_length (Nat.lt_succ_self _)
    (by decide) [1, 2, 3]
  rw [text] at refused
  refine ⟨fun admissible => ?_, refused⟩
  have short := (Frame.admissible_enclose_iff _).mp admissible
  rw [oversized_length] at short
  exact Nat.not_succ_le_self _ short

end FollowerSync.Wire
