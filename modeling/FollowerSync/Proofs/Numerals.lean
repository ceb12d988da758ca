import FollowerSync.Document.Toml.Writer
import FollowerSync.Proofs.Quotations

set_option autoImplicit false

namespace FollowerSync.Document.Toml
open Numeric

namespace Scan
variable {α β : Type} {s : Scan α} {f : α → Scan β} {a : α} {cs rest : List Char}

theorem bind_some (first : s cs = some (a, rest)) : (s >>= f) cs = f a rest := by
  change (s cs).bind _ = _
  rw [first]
  rfl

theorem bind_none (first : s cs = none) : (s >>= f) cs = none := by
  change (s cs).bind _ = _
  rw [first]
  rfl

theorem optional_some (first : s cs = some (a, rest)) : optional s cs = some (some a, rest) := by
  simp [optional, first]

theorem optional_none (first : s cs = none) : optional s cs = some (none, cs) := by
  simp [optional, first]

end Scan

section
variable {c e : Char} {ds rest tail : List Char} {width : Nat}

theorem isDigit_iff : isDigit c ↔ 48 ≤ c.toNat ∧ c.toNat ≤ 57 := by
  simp only [isDigit, Bool.and_eq_true, decide_eq_true_eq, Char.le_def, UInt32.le_iff_toNat_le]
  rfl

theorem hexDigit?_eq (c : Char) : hexDigit? c =
    if 48 ≤ c.toNat ∧ c.toNat ≤ 57 then some (c.toNat - 48)
    else if 97 ≤ c.toNat ∧ c.toNat ≤ 102 then some (c.toNat - 97 + 10)
    else if 65 ≤ c.toNat ∧ c.toNat ≤ 70 then some (c.toNat - 65 + 10)
    else none := by
  simp only [hexDigit?, Char.le_def, UInt32.le_iff_toNat_le]
  rfl

theorem digitBelow?_ten (c : Char) :
    digitBelow? 10 c = if isDigit c then some (c.toNat - 48) else none := by
  simp only [isDigit_iff, digitBelow?, hexDigit?_eq]
  split
  · next digit =>
    have : c.toNat - 48 < 10 := by omega
    simp [this]
  · split
    · simp
    · split <;> simp

structure Ends (e : Char) : Prop where
  noDigit : isDigit e = false
  noJoint : e ≠ '_'
  noDash : e ≠ '-'
  noColon : e ≠ ':'

theorem ends_lineEnd : Ends '\n' := ⟨rfl, by decide, by decide, by decide⟩

theorem ends_point : Ends '.' := ⟨rfl, by decide, by decide, by decide⟩

theorem moreDigits_append (digits : ∀ c ∈ ds, isDigit c) (ends : Ends e) :
    moreDigits 10 (ds ++ e :: rest) = some (ds.map fun c => c.toNat - 48, e :: rest) := by
  induction ds with
  | nil =>
    rw [List.nil_append, moreDigits]
    · simp [digitBelow?_ten, ends.noDigit]
    · exact fun _ _ same => absurd same ends.noJoint
    · exact fun same => absurd same ends.noJoint
  | cons c ds ih =>
    rw [List.forall_mem_cons] at digits
    have noJoint : c ≠ '_' := by
      rintro rfl
      cases digits.1
    rw [List.cons_append, moreDigits]
    · simp [digitBelow?_ten, digits.1, ih digits.2]
    · exact fun _ _ same => absurd same noJoint
    · exact fun same => absurd same noJoint

theorem someDigits_append (digits : ∀ c ∈ ds, isDigit c) (nonempty : ds ≠ []) (ends : Ends e) :
    someDigits 10 (ds ++ e :: rest) = some (ds.map fun c => c.toNat - 48, e :: rest) := by
  cases ds with
  | nil => exact absurd rfl nonempty
  | cons c ds =>
    rw [List.forall_mem_cons] at digits
    have first : (digitBelow? 10 c).map (·, ds ++ e :: rest) =
        some (c.toNat - 48, ds ++ e :: rest) := by
      simp [digitBelow?_ten, digits.1]
    rw [someDigits]
    refine (Scan.bind_some first).trans ?_
    rw [Scan.bind_some (moreDigits_append digits.2 ends)]
    rfl

theorem ofDigits_toDigits (n : Nat) :
    ofDigits 10 ((Nat.toDigits 10 n).map fun c => c.toNat - 48) = n := by
  rw [ofDigits, List.foldl_map]
  exact Nat.ofDigitChars_ten_toDigits

theorem isDigit_of_mem_toDigits {n : Nat} (mem : c ∈ Nat.toDigits 10 n) : isDigit c := by
  have digit := Nat.isDigit_of_mem_toDigits (by decide) (by decide) mem
  simpa [isDigit, Char.isDigit, Char.le_def] using digit

theorem toDigits_leading (n : Nat) :
    ∃ c cs, Nat.toDigits 10 n = c :: cs ∧ (c = '0' → n = 0 ∧ cs = []) := by
  induction n using Nat.strongRecOn with
  | ind n ih =>
    by_cases small : n < 10
    · rw [Nat.toDigits_of_lt_base small]
      exact ⟨n.digitChar, [], rfl, fun zero => ⟨by simpa using zero, rfl⟩⟩
    · obtain ⟨c, cs, front, leading⟩ := ih (n / 10) (by omega)
      rw [Nat.toDigits_of_base_le (by decide) (by omega), front]
      exact ⟨c, _, rfl, fun zero => by have := (leading zero).1; omega⟩

theorem toDigits_eq_cons (n : Nat) : ∃ c cs, Nat.toDigits 10 n = c :: cs ∧ isDigit c := by
  obtain ⟨c, cs, front, -⟩ := toDigits_leading n
  exact ⟨c, cs, front, isDigit_of_mem_toDigits (n := n) (front ▸ List.mem_cons_self)⟩

theorem wholeDigits_toDigits (n : Nat) (ends : Ends e) :
    wholeDigits (Nat.toDigits 10 n ++ e :: rest) =
      some ((Nat.toDigits 10 n).map fun c => c.toNat - 48, e :: rest) := by
  obtain ⟨c, cs, front, leading⟩ := toDigits_leading n
  by_cases zero : c = '0'
  · obtain ⟨-, rfl⟩ := leading zero
    rw [front, zero]
    rfl
  · have digits : someDigits 10 (Nat.toDigits 10 n ++ e :: rest) =
        some ((Nat.toDigits 10 n).map fun c => c.toNat - 48, e :: rest) :=
      someDigits_append (fun _ => isDigit_of_mem_toDigits) Nat.toDigits_ne_nil ends
    rw [← digits, front, List.cons_append, wholeDigits]
    exact fun _ same => absurd (List.cons.inj same).1 zero

theorem fixedDigits_append {n : Nat} (digits : ∀ c ∈ ds, isDigit c) (ends : Ends e)
    (taken : fixedDigits width (ds ++ e :: rest) = some (n, tail)) :
    ∃ ds', (∀ c ∈ ds', isDigit c) ∧ tail = ds' ++ e :: rest := by
  simp only [fixedDigits] at taken
  split at taken
  · next all =>
    have short : width ≤ ds.length := by
      refine Nat.le_of_not_lt fun long => ?_
      obtain ⟨k, rfl⟩ := Nat.exists_eq_add_of_lt long
      have : e ∈ (ds ++ e :: rest).take (ds.length + k + 1) := by
        simp [List.take_append, Nat.add_assoc]
      have digit := List.all_eq_true.mp all.2 e this
      rw [ends.noDigit] at digit
      cases digit
    cases taken
    exact ⟨ds.drop width, fun c mem => digits c (List.mem_of_mem_drop mem),
      List.drop_append_of_le_length short⟩
  · cases taken

theorem fixedBetween_append {low high n : Nat} (digits : ∀ c ∈ ds, isDigit c) (ends : Ends e)
    (taken : fixedBetween low high width (ds ++ e :: rest) = some (n, tail)) :
    ∃ ds', (∀ c ∈ ds', isDigit c) ∧ tail = ds' ++ e :: rest := by
  cases first : fixedDigits width (ds ++ e :: rest) with
  | none =>
    rw [fixedBetween, Scan.bind_none first] at taken
    cases taken
  | some p =>
    obtain ⟨m, cs⟩ := p
    rw [fixedBetween, Scan.bind_some first] at taken
    split at taken
    · cases taken
      exact fixedDigits_append digits ends first
    · cases taken

theorem char_eq_none (digits : ∀ c ∈ ds, isDigit c) (ends : Ends e) (joint : c = '-' ∨ c = ':') :
    Scan.char c (ds ++ e :: rest) = none := by
  cases ds with
  | nil =>
    have : e ≠ c := by
      rintro rfl
      exact joint.elim ends.noDash ends.noColon
    simp [Scan.char, this]
  | cons d ds =>
    have : d ≠ c := by
      have digit := digits d List.mem_cons_self
      rintro rfl
      rcases joint with rfl | rfl <;> cases digit
    simp [Scan.char, this]

theorem date_eq_none (digits : ∀ c ∈ ds, isDigit c) (ends : Ends e) :
    date (ds ++ e :: rest) = none := by
  cases first : fixedDigits 4 (ds ++ e :: rest) with
  | none => exact Scan.bind_none first
  | some p =>
    obtain ⟨year, cs⟩ := p
    obtain ⟨ds', digits', rfl⟩ := fixedDigits_append digits ends first
    rw [date, Scan.bind_some first, Scan.bind_none (char_eq_none digits' ends (.inl rfl))]

theorem time_eq_none (digits : ∀ c ∈ ds, isDigit c) (ends : Ends e) :
    time (ds ++ e :: rest) = none := by
  refine Scan.bind_none ?_
  cases first : fixedBetween 0 23 2 (ds ++ e :: rest) with
  | none => exact Scan.bind_none first
  | some p =>
    obtain ⟨hour, cs⟩ := p
    obtain ⟨ds', digits', rfl⟩ := fixedBetween_append digits ends first
    rw [hourAndMinute, Scan.bind_some first, Scan.bind_none (char_eq_none digits' ends (.inr rfl))]

theorem fixedDigits_dash (cs : List Char) : fixedDigits (width + 1) ('-' :: cs) = none := by
  simp [fixedDigits, isDigit]

theorem fixedBetween_dash (low high : Nat) (cs : List Char) :
    fixedBetween low high (width + 1) ('-' :: cs) = none :=
  Scan.bind_none (fixedDigits_dash cs)

def signed (negative : Bool) (cs : List Char) : List Char := if negative then '-' :: cs else cs

theorem signed_append (negative : Bool) (cs rest : List Char) :
    signed negative cs ++ rest = signed negative (cs ++ rest) := by
  cases negative <;> rfl

theorem signed_eq_cons (negative : Bool) (n : Nat) :
    ∃ c cs, signed negative (Nat.toDigits 10 n ++ rest) = c :: cs ∧ (isDigit c ∨ c = '-') := by
  cases negative with
  | true => exact ⟨'-', _, rfl, .inr rfl⟩
  | false =>
    obtain ⟨c, cs, front, digit⟩ := toDigits_eq_cons n
    exact ⟨c, cs ++ rest, by rw [front]; rfl, .inl digit⟩

theorem moment_eq_none (negative : Bool) (digits : ∀ c ∈ ds, isDigit c) (ends : Ends e) :
    moment (signed negative (ds ++ e :: rest)) = none := by
  have none : date (signed negative (ds ++ e :: rest)) = none ∧
      time (signed negative (ds ++ e :: rest)) = none := by
    cases negative with
    | true =>
      exact ⟨Scan.bind_none (fixedDigits_dash _),
        Scan.bind_none (Scan.bind_none (fixedBetween_dash ..))⟩
    | false => exact ⟨date_eq_none digits ends, time_eq_none digits ends⟩
  rw [moment, Scan.bind_some (Scan.optional_none none.1)]
  exact none.2

theorem sign_signed (negative : Bool) (n : Nat) :
    sign (signed negative (Nat.toDigits 10 n ++ rest)) =
      some (negative, Nat.toDigits 10 n ++ rest) := by
  cases negative with
  | true => rfl
  | false =>
    obtain ⟨c, cs, front, digit⟩ := toDigits_eq_cons n
    rw [signed, if_neg Bool.false_ne_true, front, List.cons_append]
    unfold sign
    split
    · next same =>
      obtain ⟨rfl, -⟩ := List.cons.inj same
      cases digit
    · next same =>
      obtain ⟨rfl, -⟩ := List.cons.inj same
      cases digit
    · rfl

theorem decimal_eq_none (negative : Bool) (n : Nat) :
    decimal (signed negative (Nat.toDigits 10 n ++ '\n' :: rest)) = none := by
  rw [decimal, Scan.bind_some (sign_signed negative n),
    Scan.bind_some (wholeDigits_toDigits n ends_lineEnd)]
  rfl

theorem specialFloat_eq_none (negative : Bool) (n : Nat) :
    specialFloat (signed negative (Nat.toDigits 10 n ++ rest)) = none := by
  rw [specialFloat, Scan.bind_some (sign_signed negative n)]
  obtain ⟨c, cs, front, digit⟩ := toDigits_eq_cons n
  have other : c ≠ 'i' ∧ c ≠ 'n' := by
    constructor <;> (rintro rfl; cases digit)
  rw [front, List.cons_append]
  have noWord {w : String} {d : Char} {ds : List Char} (word : w.toList = d :: ds) (ne : c ≠ d) :
      Scan.word w (c :: (cs ++ rest)) = none := by
    simp [Scan.word, word, ne.symm]
  rw [Scan.bind_some (Scan.optional_none (noWord rfl other.1))]
  exact Scan.bind_none (noWord rfl other.2)

theorem signed_ne_marked (negative : Bool) (n : Nat) {mark : Char} (cs : List Char)
    (ne : mark ≠ '\n') :
    signed negative (Nat.toDigits 10 n ++ '\n' :: rest) ≠ '0' :: mark :: cs := by
  cases negative with
  | true => exact fun same => absurd (List.cons.inj same).1 (by decide)
  | false =>
    obtain ⟨c, cs', front, leading⟩ := toDigits_leading n
    intro same
    rw [signed, if_neg Bool.false_ne_true, front, List.cons_append] at same
    obtain ⟨zero, same⟩ := List.cons.inj same
    rw [(leading zero).2, List.nil_append] at same
    exact ne (List.cons.inj same).1.symm

theorem wholeNumber_signed (negative : Bool) (n : Nat) (rest : List Char) :
    wholeNumber (signed negative (Nat.toDigits 10 n ++ '\n' :: rest)) =
      some (if negative then -(n : Int) else n, '\n' :: rest) := by
  unfold wholeNumber
  split
  · next same => exact absurd same (signed_ne_marked negative n _ (by decide))
  · next same => exact absurd same (signed_ne_marked negative n _ (by decide))
  · next same => exact absurd same (signed_ne_marked negative n _ (by decide))
  · rw [signedDigits, Scan.bind_some (sign_signed negative n),
      Scan.bind_some (wholeDigits_toDigits n ends_lineEnd), ofDigits_toDigits]
    rfl

end

theorem toList_integerText (n : Int) :
    (integerText n).toList = signed (n < 0) (Nat.toDigits 10 n.natAbs) := by
  by_cases negative : n < 0 <;> simp [integerText, digitsText, signed, negative]

theorem takes_integer {n : Int} (fits : fitsInt64 n) :
    numeral.Takes (integerText n).toList (.integer n) := by
  intro rest
  have value : (if decide (n < 0) then -(n.natAbs : Int) else n.natAbs) = n := by
    by_cases negative : n < 0
    · rw [decide_eq_true negative, if_pos rfl]
      omega
    · rw [decide_eq_false negative, if_neg Bool.false_ne_true]
      omega
  have whole := wholeNumber_signed (n < 0) n.natAbs rest
  rw [value] at whole
  rw [toList_integerText, signed_append, numeral,
    Scan.bind_some (Scan.optional_none (moment_eq_none _ (fun _ => isDigit_of_mem_toDigits)
      ends_lineEnd))]
  dsimp only
  rw [Scan.bind_some (Scan.optional_none (decimal_eq_none _ _))]
  dsimp only
  rw [Scan.bind_some (Scan.optional_none (specialFloat_eq_none _ _))]
  dsimp only
  have read : integer (signed (n < 0) (Nat.toDigits 10 n.natAbs ++ '\n' :: rest)) =
      some (n, '\n' :: rest) := by
    rw [integer, Scan.bind_some whole, if_pos fits]
    rfl
  rw [Scan.bind_some read]
  rfl

section
variable {ds : List Char}

def pointed (negative : Bool) (n : Nat) (ds : List Char) : Binary64 :=
  .ofDecimal negative (ofDigits 10 ((Nat.toDigits 10 n ++ ds).map fun c => c.toNat - 48))
    (-ds.length)

theorem takes_pointed (negative : Bool) (n : Nat) (digits : ∀ c ∈ ds, isDigit c)
    (nonempty : ds ≠ []) (fits : (pointed negative n ds).isInfinite = false) :
    numeral.Takes (signed negative (Nat.toDigits 10 n ++ '.' :: ds))
      (.float (pointed negative n ds)) := by
  intro rest
  have fraction : (Scan.char '.' *> someDigits 10) ('.' :: (ds ++ '\n' :: rest)) =
      some (ds.map fun c => c.toNat - 48, '\n' :: rest) :=
    someDigits_append digits nonempty ends_lineEnd
  have read : decimal (signed negative (Nat.toDigits 10 n ++ '.' :: (ds ++ '\n' :: rest))) =
      some (pointed negative n ds, '\n' :: rest) := by
    rw [decimal, Scan.bind_some (sign_signed negative n),
      Scan.bind_some (wholeDigits_toDigits n ends_point)]
    have peeked : Scan.peek ('.' :: (ds ++ '\n' :: rest)) =
        some (some '.', '.' :: (ds ++ '\n' :: rest)) := rfl
    have ended : Scan.peek ('\n' :: rest) = some (some '\n', '\n' :: rest) := rfl
    have noPower : (pure 0 : Scan Int) ('\n' :: rest) = some (0, '\n' :: rest) := rfl
    rw [Scan.bind_some peeked]
    simp only [if_true]
    rw [Scan.bind_some fraction, Scan.bind_some ended, if_neg (by decide), Scan.bind_some noPower,
      ← List.map_append, List.length_map, Int.zero_sub]
    change (if ((pointed negative n ds).isInfinite && !(pointed negative n ds).negative) = true
      then failure else pure (pointed negative n ds) : Scan Binary64) ('\n' :: rest) = _
    rw [fits]
    rfl
  rw [signed_append, List.append_assoc, List.cons_append, numeral,
    Scan.bind_some (Scan.optional_none (moment_eq_none _ (fun _ => isDigit_of_mem_toDigits)
      ends_point))]
  dsimp only
  rw [Scan.bind_some (Scan.optional_some read)]
  rfl

end
end FollowerSync.Document.Toml
