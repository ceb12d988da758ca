import Mathlib.Algebra.Group.Nat.Defs
import FollowerSync.Proofs.Streams

set_option autoImplicit false

namespace FollowerSync.Wire
open Leader

namespace Crc32

/-- The highest bit of the polynomial is set, so the bit that a step shifts out can be read off
the result. -/
theorem eq_zero_of_bitStep {r : Register} (zero : bitStep r = 0#32) : r = 0#32 := by
  unfold bitStep at zero
  have top : ((r >>> 1) ^^^ polynomial).getLsbD 31 = true := by
    simp [polynomial]
  split at zero
  · rw [zero] at top
    simp at top
  · rename_i even
    apply BitVec.eq_of_getLsbD_eq
    intro i _
    cases i with
    | zero => simpa using even
    | succ i =>
      have bit := congrArg (fun x => x.getLsbD i) zero
      simpa [BitVec.getLsbD_ushiftRight, Nat.add_comm 1] using bit

theorem bitStep_injective {x y : Register} (same : bitStep x = bitStep y) : x = y := by
  have none : bitStep (x ^^^ y) = 0#32 := by rw [bitStep_xor, same, BitVec.xor_self]
  exact BitVec.xor_eq_zero_iff.mp (eq_zero_of_bitStep none)

theorem bitSteps_injective (n : Nat) {x y : Register} (same : bitSteps n x = bitSteps n y) :
    x = y := by
  induction n generalizing x y with
  | zero => exact same
  | succ n ih => exact bitStep_injective (ih same)

theorem bitSteps_add (m n : Nat) (r : Register) :
    bitSteps (m + n) r = bitSteps n (bitSteps m r) := by
  induction m generalizing r with
  | zero => rw [Nat.zero_add, bitSteps]
  | succ m ih =>
    rw [Nat.add_right_comm]
    exact ih (bitStep r)

theorem bitStep_double {n : Nat} (small : 2 * n < 2 ^ 32) :
    bitStep (BitVec.ofNat 32 (2 * n)) = BitVec.ofNat 32 n := by
  have even : (BitVec.ofNat 32 (2 * n)).getLsbD 0 = false := by
    rw [BitVec.getLsbD_ofNat, Nat.testBit_zero]
    simp
  unfold bitStep
  rw [even, if_neg Bool.false_ne_true]
  apply BitVec.eq_of_toNat_eq
  rw [BitVec.toNat_ushiftRight, BitVec.toNat_ofNat, BitVec.toNat_ofNat, Nat.shiftRight_eq_div_pow]
  omega

/-- What lies above the lowest bits only moves down while those are shifted out. -/
theorem bitSteps_shifted (k : Nat) {n : Nat} (small : 2 ^ k * n < 2 ^ 32) :
    bitSteps k (BitVec.ofNat 32 (2 ^ k * n)) = BitVec.ofNat 32 n := by
  induction k with
  | zero => simp [bitSteps]
  | succ k ih =>
    have twice : 2 ^ (k + 1) * n = 2 * (2 ^ k * n) := by rw [Nat.pow_succ', Nat.mul_assoc]
    rw [twice] at small ⊢
    rw [bitSteps, bitStep_double small]
    exact ih (by omega)

theorem ofNat_byte_add (b : UInt8) (n : Nat) :
    BitVec.ofNat 32 (b.toNat + 256 * n) =
      b.toBitVec.zeroExtend 32 ^^^ BitVec.ofNat 32 (2 ^ 8 * n) := by
  apply BitVec.eq_of_getLsbD_eq
  intro i lt
  have small : b.toNat < 2 ^ 8 := b.toNat_lt
  have whole : b.toNat + 256 * n = 2 ^ 8 * n + b.toNat := by omega
  have bit : b.toNat.testBit i = b.toBitVec.getLsbD i := BitVec.testBit_toNat _
  rw [BitVec.getLsbD_xor, BitVec.getLsbD_ofNat, BitVec.getLsbD_ofNat, whole,
    Nat.testBit_two_pow_mul_add n small, Nat.testBit_two_pow_mul, bit]
  by_cases low : i < 8
  · have next : ¬8 ≤ i := by omega
    simp [low, next, lt]
  · have next : 8 ≤ i := by omega
    simp [low, next, lt, BitVec.getLsbD_of_ge]

/-- Up to four bytes can as well be put into the register at once, before anything is shifted. -/
theorem register_eq_bitSteps {bytes : List UInt8} (short : bytes.length ≤ 4) (start : Register) :
    register start bytes =
      bitSteps (8 * bytes.length) (start ^^^ BitVec.ofNat 32 (ofLittleEndian bytes)) := by
  induction bytes generalizing start with
  | nil => simp [register, bitSteps, ofLittleEndian]
  | cons b bytes ih =>
    have fewer : bytes.length ≤ 3 := Nat.le_of_succ_le_succ short
    have small : 2 ^ 8 * ofLittleEndian bytes < 2 ^ 32 := by
      have lt := ofLittleEndian_lt bytes
      have le : Nat.pow 256 bytes.length ≤ Nat.pow 256 3 := Nat.pow_le_pow_right (by decide) fewer
      have value : Nat.pow 256 3 = 2 ^ 24 := by decide
      omega
    have first : register start (b :: bytes) = register (byteStep start b) bytes := rfl
    have steps : 8 * (b :: bytes).length = 8 + 8 * bytes.length := by
      rw [List.length_cons]
      omega
    rw [first, ih (by omega), steps, bitSteps_add, ofLittleEndian, ofNat_byte_add,
      ← BitVec.xor_assoc, bitSteps_xor 8, bitSteps_shifted 8 small]
    rfl

theorem register_bytes_injective {start : Register} {xs ys : List UInt8}
    (length : xs.length = ys.length) (short : xs.length ≤ 4)
    (same : register start xs = register start ys) : xs = ys := by
  have bound {bytes : List UInt8} (short : bytes.length ≤ 4) :
      ofLittleEndian bytes < 2 ^ 32 :=
    Nat.lt_of_lt_of_le (ofLittleEndian_lt bytes) (Nat.pow_le_pow_right (by decide) short)
  rw [register_eq_bitSteps short, register_eq_bitSteps (length ▸ short), ← length] at same
  have filled := BitVec.xor_right_inj _ |>.mp (bitSteps_injective _ same)
  have number := congrArg BitVec.toNat filled
  rw [BitVec.toNat_ofNat, BitVec.toNat_ofNat, Nat.mod_eq_of_lt (bound short),
    Nat.mod_eq_of_lt (bound (length ▸ short))] at number
  rw [← littleEndian_ofLittleEndian xs, number, length, littleEndian_ofLittleEndian]

theorem register_start_injective {bytes : List UInt8} {x y : Register}
    (same : register x bytes = register y bytes) : x = y := by
  induction bytes generalizing x y with
  | nil => exact same
  | cons b bytes ih =>
    have stepped : byteStep x b = byteStep y b := ih same
    exact BitVec.xor_left_inj _ |>.mp (bitSteps_injective 8 stepped)

theorem checksum_ne {before old new after : List UInt8} (length : new.length = old.length)
    (short : old.length ≤ 4) (ne : new ≠ old) :
    checksum (before ++ new ++ after) ≠ checksum (before ++ old ++ after) := by
  intro same
  have ends : register (~~~0#32) (before ++ new ++ after) =
      register (~~~0#32) (before ++ old ++ after) :=
    BitVec.not_inj.mp (congrArg UInt32.toBitVec same)
  rw [register_append, register_append _ (before ++ old), register_append, register_append] at ends
  exact ne (register_bytes_injective length (length ▸ short) (register_start_injective ends))

end Crc32

/-- A body after a change that is confined to four consecutive bytes. -/
structure Burst (body changed : Bytes) : Prop where
  length_eq : changed.length = body.length
  confined : ∃ start, ∀ i, i < start ∨ start + 4 ≤ i → changed[i]? = body[i]?
  ne : changed ≠ body

theorem Burst.checksum_ne {body changed : Bytes} (burst : Burst body changed) :
    Crc32.checksum changed ≠ Crc32.checksum body := by
  obtain ⟨start, same⟩ := burst.confined
  have before : changed.take start = body.take start := by
    apply List.ext_getElem?
    intro i
    rw [List.getElem?_take, List.getElem?_take]
    split
    · exact same i (.inl ‹_›)
    · rfl
  have after : (changed.drop start).drop 4 = (body.drop start).drop 4 := by
    apply List.ext_getElem?
    intro i
    rw [List.drop_drop, List.drop_drop, List.getElem?_drop, List.getElem?_drop]
    exact same _ (.inr (by omega))
  have split (bytes : Bytes) : bytes =
      bytes.take start ++ (bytes.drop start).take 4 ++ (bytes.drop start).drop 4 := by
    rw [List.append_assoc, List.take_append_drop, List.take_append_drop]
  rw [split changed, split body, before, after]
  refine Crc32.checksum_ne ?_ (List.length_take_le 4 _) fun same => burst.ne ?_
  · rw [List.length_take, List.length_take, List.length_drop, List.length_drop, burst.length_eq]
  · rw [split changed, split body, before, after, same]

theorem takeBody_of_checksum_ne {header : Header} {body : Bytes}
    (short : body.length ≤ Header.maxLength) (counted : header.length.toNat = body.length)
    (differ : Crc32.checksum body ≠ header.checksum) (rest : Bytes) :
    Frame.takeBody (encode header ++ body ++ rest) = (.error Frame.corrupted, rest) := by
  unfold Frame.takeBody
  rw [List.append_assoc, Header.decode_encode]
  dsimp only
  rw [counted, if_neg (Nat.not_lt.mpr short), if_neg (by simp), List.take_left, List.drop_left]
  exact if_neg differ

theorem Header.ofBody_length {body : Bytes} (short : body.length ≤ Header.maxLength) :
    (Header.ofBody body).length.toNat = body.length := by
  have small : body.length < UInt32.size := Nat.lt_of_le_of_lt short (by decide)
  exact UInt32.toNat_ofNat_of_lt' small

theorem Header.length_encode (header : Header) : (encode header).length = Header.size := by
  change (littleEndian 4 _ ++ littleEndian 4 _).length = 8
  rw [List.length_append, littleEndian_length, littleEndian_length]

theorem Frame.write_take_size {α : Type} [Encodable α] (message : α) :
    (Frame.write message).take Header.size = encode (Header.ofBody (encode message)) :=
  List.take_left' (Header.length_encode _)

/-- Whatever is read, and whatever comes after it. -/
theorem burst_refused {α β : Type} [Encodable α] [Encodable β] (message : α)
    (fits : Fits message) (changed : Bytes) (burst : Burst (encode message) changed)
    (rest : Bytes) :
    Frame.read (α := β) ((Frame.write message).take Header.size ++ changed ++ rest) =
      (.error (.network "Message checksum mismatch"), rest) := by
  have short : changed.length ≤ Header.maxLength := burst.length_eq ▸ fits
  have counted : (Header.ofBody (encode message)).length.toNat = changed.length := by
    rw [burst.length_eq, Header.ofBody_length fits]
  unfold Frame.read
  rw [Frame.write_take_size, takeBody_of_checksum_ne short counted burst.checksum_ne]
  rfl

def countRequest : Request := .collectionCount "db" "s1"

def smudgedBody : Bytes := ((encode countRequest).set 12 0xFF).set 15 1

theorem smudgedBody_refused :
    Fits countRequest ∧ Burst (encode countRequest) smudgedBody ∧
      Frame.read (α := Request)
        ((Frame.write countRequest).take Header.size ++ smudgedBody ++ [1, 2, 3]) =
          (.error (.network "Message checksum mismatch"), [1, 2, 3]) := by
  have fits : Fits countRequest := by decide +kernel
  have burst : Burst (encode countRequest) smudgedBody := by
    refine ⟨by simp [smudgedBody], ⟨12, fun i outside => ?_⟩, by decide +kernel⟩
    rw [smudgedBody, List.getElem?_set_ne (by omega), List.getElem?_set_ne (by omega)]
  exact ⟨fits, burst, burst_refused countRequest fits smudgedBody burst [1, 2, 3]⟩

end FollowerSync.Wire
