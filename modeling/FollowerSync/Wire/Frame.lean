import FollowerSync.Fault
import FollowerSync.Wire.Codec
import FollowerSync.Wire.Crc32

set_option autoImplicit false

namespace FollowerSync.Wire

structure Header where
  length : UInt32
  checksum : UInt32
  deriving DecidableEq, Repr

instance : Encodable Header where
  encode h := encode h.length ++ encode h.checksum
  decode := do
    let length ← decode
    let checksum ← decode
    return { length, checksum }

theorem Header.decode_encode (h : Header) (rest : Bytes) :
    (decode : Decoder Header) (encode h ++ rest) = .ok (h, rest) := by
  have length := decode_encode_uint32 h.length (encode h.checksum ++ rest)
  have checksum := decode_encode_uint32 h.checksum rest
  rw [← List.append_assoc] at length
  exact (Decoder.bind_ok length).trans (Decoder.bind_ok checksum)

namespace Header

def size : Nat := 8

def maxLength : Nat := 16 * 1024 * 1024

def ofFront (front : Bytes) : Header :=
  ⟨.ofNat (ofLittleEndian (front.take 4)), .ofNat (ofLittleEndian ((front.drop 4).take 4))⟩

/-- The header for a body. The length is kept modulo `2 ^ 32`. -/
def ofBody (body : Bytes) : Header := ⟨.ofNat body.length, Crc32.checksum body⟩

end Header

namespace Frame

def enclose (body : Bytes) : Bytes := encode (Header.ofBody body) ++ body

def write {α : Type} [Encodable α] (message : α) : Bytes := enclose (encode message)

def cutOff : Fault := .io "early eof"

def tooLarge (length : UInt32) : Fault :=
  .network ("Frame too large: " ++ toString length.toNat ++ " bytes")

def corrupted : Fault := .network "Message checksum mismatch"

def takeBody (bytes : Bytes) : Except Fault Bytes × Bytes :=
  match (decode : Decoder Header) bytes with
  | .error _ => (.error cutOff, [])
  | .ok (header, rest) =>
    if Header.maxLength < header.length.toNat then (.error (tooLarge header.length), rest)
    else if rest.length < header.length.toNat then (.error cutOff, [])
    else
      let body := rest.take header.length.toNat
      let rest := rest.drop header.length.toNat
      if Crc32.checksum body = header.checksum then (.ok body, rest) else (.error corrupted, rest)

theorem takeBody_enclose {body : Bytes} (short : body.length ≤ Header.maxLength) (rest : Bytes) :
    takeBody (enclose body ++ rest) = (.ok body, rest) := by
  have length : (Header.ofBody body).length.toNat = body.length := by
    have small : body.length < UInt32.size := Nat.lt_of_le_of_lt short (by decide)
    exact UInt32.toNat_ofNat_of_lt' small
  unfold takeBody enclose
  rw [List.append_assoc, Header.decode_encode]
  dsimp only
  rw [length, if_neg (Nat.not_lt.mpr short), if_neg (by simp), List.take_left, List.drop_left]
  exact if_pos rfl

def open? {α : Type} [Encodable α] (body : Bytes) : Except Fault α :=
  match (decode : Decoder α) body with
  | .ok (message, _) => .ok message
  | .error malformed => .error (.serialization malformed.message)

def read {α : Type} [Encodable α] (bytes : Bytes) : Except Fault α × Bytes :=
  let (body, rest) := takeBody bytes
  (body.bind open?, rest)

theorem read_write {α : Type} [Encodable α] {message : α} {left : Bytes}
    (short : (encode message).length ≤ Header.maxLength)
    (decoded : (decode : Decoder α) (encode message) = .ok (message, left)) (rest : Bytes) :
    read (write message ++ rest) = (.ok message, rest) := by
  unfold read write
  rw [takeBody_enclose short]
  change (open? (encode message), rest) = _
  unfold open?
  rw [decoded]

structure Reading (α : Type) where
  messages : List α
  fault : Option Fault
  rest : Bytes

/-- Every frame takes up at least one byte, so the number of bytes bounds that of the frames. -/
def readUpTo {α : Type} [Encodable α] : Nat → Bytes → Reading α
  | 0, bytes => ⟨[], none, bytes⟩
  | limit + 1, bytes =>
    if bytes.isEmpty then ⟨[], none, []⟩
    else
      match read bytes with
      | (.error fault, rest) => ⟨[], some fault, rest⟩
      | (.ok message, rest) =>
        let later := readUpTo limit rest
        { later with messages := message :: later.messages }

def readAll {α : Type} [Encodable α] (bytes : Bytes) : Reading α := readUpTo bytes.length bytes

end Frame
end FollowerSync.Wire
