set_option autoImplicit false

namespace FollowerSync.Wire.Crc32

abbrev Register := BitVec 32

def polynomial : Register := 0xEDB88320#32

def bitStep (r : Register) : Register :=
  if r.getLsbD 0 then (r >>> 1) ^^^ polynomial else r >>> 1

def bitSteps : Nat → Register → Register
  | 0, r => r
  | n + 1, r => bitSteps n (bitStep r)

def byteStep (r : Register) (b : UInt8) : Register :=
  bitSteps 8 (r ^^^ (b.toBitVec.zeroExtend 32))

def register (start : Register) (bytes : List UInt8) : Register := bytes.foldl byteStep start

def checksum (bytes : List UInt8) : UInt32 := ⟨~~~(register (~~~0#32) bytes)⟩

theorem register_append (start : Register) (xs ys : List UInt8) :
    register start (xs ++ ys) = register (register start xs) ys :=
  List.foldl_append

theorem bitStep_xor (x y : Register) : bitStep (x ^^^ y) = bitStep x ^^^ bitStep y := by
  unfold bitStep
  rw [BitVec.getLsbD_xor, BitVec.ushiftRight_xor_distrib]
  cases x.getLsbD 0 <;> cases y.getLsbD 0
  · rfl
  · simp [BitVec.xor_assoc]
  · simp only [Bool.bne_false, if_true, Bool.false_eq_true, if_false]
    rw [BitVec.xor_assoc, BitVec.xor_comm (y >>> 1), BitVec.xor_assoc]
  · simp only [bne_self_eq_false, Bool.false_eq_true, if_false, if_true]
    rw [BitVec.xor_assoc, ← BitVec.xor_assoc polynomial, BitVec.xor_comm polynomial,
      BitVec.xor_assoc, BitVec.xor_self, BitVec.xor_zero]

theorem bitSteps_xor (n : Nat) (x y : Register) :
    bitSteps n (x ^^^ y) = bitSteps n x ^^^ bitSteps n y := by
  induction n generalizing x y with
  | zero => rfl
  | succ n ih => simp only [bitSteps, bitStep_xor, ih]

end FollowerSync.Wire.Crc32
