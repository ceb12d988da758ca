import FollowerSync.Duration
import FollowerSync.Wire.Utf8

/-!
# Binary form of values

Numbers are little endian and of fixed size; a flag and the presence of an optional value take a
byte; a text is its length in 64 bits and its UTF-8 bytes; an alternative is its number in 32
bits; a record is its fields in order. Each type has an encoder and a decoder that takes its bytes
from the front of the input.
-/

set_option autoImplicit false

namespace FollowerSync.Wire

abbrev Bytes := List UInt8

inductive Malformed where
  | cutShort
  /-- The input has fewer bytes than a text is to have. -/
  | textTooLong
  | notText (problem : Utf8.Problem)
  | notFlag (value : UInt8)
  | notPresence (value : UInt8)
  | noAlternative (index : UInt32) (count : Nat)
  | durationOverflow
  deriving DecidableEq, Repr

namespace Malformed

def message : Malformed → String
  | cutShort => "io error: unexpected end of file"
  | textTooLong => "io error: "
  | notText problem => "string is not valid utf8: " ++ problem.message
  | notFlag value =>
    "invalid u8 while decoding bool, expected 0 or 1, found " ++ toString value.toNat
  | notPresence value => "tag for enum is not valid, found " ++ toString value.toNat
  | noAlternative index count =>
    "invalid value: integer `" ++ toString index.toNat ++
      "`, expected variant index 0 <= i < " ++ toString count
  | durationOverflow => "overflow deserializing Duration"

end Malformed

abbrev Decoder := StateT Bytes (Except Malformed)

class Encodable (α : Type) where
  encode : α → Bytes
  decode : Decoder α

export Encodable (encode decode)

/-- The `width` lowest bytes of a number, the least significant first. -/
def littleEndian : Nat → Nat → Bytes
  | 0, _ => []
  | width + 1, n => .ofNat (n % 256) :: littleEndian width (n / 256)

def ofLittleEndian : Bytes → Nat
  | [] => 0
  | b :: bytes => b.toNat + 256 * ofLittleEndian bytes

@[simp] theorem littleEndian_length (width n : Nat) : (littleEndian width n).length = width := by
  induction width generalizing n with
  | zero => rfl
  | succ width ih => simp [littleEndian, ih]

theorem ofLittleEndian_littleEndian {width n : Nat} (h : n < Nat.pow 256 width) :
    ofLittleEndian (littleEndian width n) = n := by
  induction width generalizing n with
  | zero => simp_all [littleEndian, ofLittleEndian]
  | succ width ih =>
    have tail : n / 256 < Nat.pow 256 width :=
      Nat.div_lt_of_lt_mul (by rwa [Nat.pow_eq, Nat.pow_succ'] at h)
    simp only [littleEndian, ofLittleEndian, ih tail, UInt8.toNat_ofNat']
    omega

theorem littleEndian_ofLittleEndian (bytes : Bytes) :
    littleEndian bytes.length (ofLittleEndian bytes) = bytes := by
  induction bytes with
  | nil => rfl
  | cons b bytes ih =>
    have small : b.toNat < 256 := b.toNat_lt
    simp only [List.length_cons, littleEndian, ofLittleEndian, Nat.add_mul_mod_self_left,
      Nat.mod_eq_of_lt small, UInt8.ofNat_toNat, List.cons.injEq, true_and]
    rw [Nat.add_mul_div_left _ _ (by decide), Nat.div_eq_of_lt small, Nat.zero_add, ih]

theorem ofLittleEndian_lt (bytes : Bytes) : ofLittleEndian bytes < Nat.pow 256 bytes.length := by
  induction bytes with
  | nil => simp [ofLittleEndian]
  | cons b bytes ih =>
    have small : b.toNat < 256 := b.toNat_lt
    simp only [ofLittleEndian, List.length_cons, Nat.pow_eq, Nat.pow_succ] at ih ⊢
    omega

theorem Decoder.bind_ok {α β : Type} {d : Decoder α} {f : α → Decoder β} {input rest : Bytes}
    {a : α} (first : d input = .ok (a, rest)) : (d >>= f) input = f a rest := by
  change (d input).bind (fun r => f r.1 r.2) = f a rest
  rw [first]
  rfl

def takeBytes (count : Nat) (short : Malformed) : Decoder Bytes := fun input =>
  if count ≤ input.length then .ok (input.take count, input.drop count) else .error short

theorem takeBytes_append {bytes : Bytes} {count : Nat} (whole : bytes.length = count)
    (short : Malformed) (rest : Bytes) :
    takeBytes count short (bytes ++ rest) = .ok (bytes, rest) := by
  subst whole
  unfold takeBytes
  have fits : bytes.length ≤ (bytes ++ rest).length := by simp
  rw [if_pos fits, List.take_left, List.drop_left]

def takeNat (width : Nat) : Decoder Nat :=
  return ofLittleEndian (← takeBytes width .cutShort)

theorem takeNat_littleEndian (width : Nat) {n : Nat} (h : n < Nat.pow 256 width) (rest : Bytes) :
    takeNat width (littleEndian width n ++ rest) = .ok (n, rest) := by
  have taken := takeBytes_append (littleEndian_length width n) .cutShort rest
  unfold takeNat
  rw [Decoder.bind_ok taken, ofLittleEndian_littleEndian h]
  rfl

instance : Encodable UInt8 where
  encode b := [b]
  decode := return .ofNat (← takeNat 1)

instance : Encodable UInt32 where
  encode n := littleEndian 4 n.toNat
  decode := return .ofNat (← takeNat 4)

theorem decode_encode_uint32 (n : UInt32) (rest : Bytes) :
    (decode : Decoder UInt32) (encode n ++ rest) = .ok (n, rest) := by
  have taken := takeNat_littleEndian 4 n.toNat_lt rest
  refine (Decoder.bind_ok taken).trans ?_
  rw [UInt32.ofNat_toNat]
  rfl

instance : Encodable UInt64 where
  encode n := littleEndian 8 n.toNat
  decode := return .ofNat (← takeNat 8)

instance : Encodable Bool where
  encode b := [if b then 1 else 0]
  decode := do
    let b : UInt8 ← decode
    if b = 0 then return false
    else if b = 1 then return true
    else throw (.notFlag b)

instance : Encodable String where
  encode s := encode (UInt64.ofNat s.utf8ByteSize) ++ s.toUTF8.data.toList
  decode := do
    let size : UInt64 ← decode
    let bytes ← takeBytes size.toNat .textTooLong
    match Utf8.text? bytes with
    | some s => return s
    | none => throw (.notText ((Utf8.problem? bytes).getD (.invalid 0 1)))

instance {α : Type} [Encodable α] : Encodable (Option α) where
  encode
    | none => [0]
    | some a => 1 :: encode a
  decode := do
    let b : UInt8 ← decode
    if b = 0 then return none
    else if b = 1 then return some (← decode)
    else throw (.notPresence b)

/-- Seconds in 64 bits and the rest in nanoseconds in 32. A rest of a second or more is carried
over when read. -/
instance : Encodable Duration where
  encode d := encode (UInt64.ofNat d.secs) ++ encode (UInt32.ofNat d.subsecNanos)
  decode := do
    let secs : UInt64 ← decode
    let nanos : UInt32 ← decode
    match Duration.ofNanos? (secs.toNat * nanosPerSecond + nanos.toNat) with
    | some d => return d
    | none => throw .durationOverflow

def takeIndex (count : Nat) : Decoder Nat := do
  let index : UInt32 ← decode
  if index.toNat < count then return index.toNat else throw (.noAlternative index count)

def encodeIndex (index : Nat) : Bytes := encode (UInt32.ofNat index)

end FollowerSync.Wire
