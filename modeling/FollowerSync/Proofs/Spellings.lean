import FollowerSync.Wire.Codec

set_option autoImplicit false

namespace FollowerSync.Wire

namespace Decoder
variable {α β : Type} {d : Decoder α} {f : α → Decoder β} {a a' : α} {b : β}
  {input input' rest rest' taken x y z : Bytes}

def Takes (d : Decoder α) (taken : Bytes) (a : α) : Prop :=
  ∀ rest, d (taken ++ rest) = .ok (a, rest)

def SelfDelimiting (d : Decoder α) : Prop :=
  ∀ input a rest, d input = .ok (a, rest) → ∃ taken, input = taken ++ rest ∧ d.Takes taken a

theorem of_bind_ok (accepted : (d >>= f) input = .ok (b, rest)) :
    ∃ a mid, d input = .ok (a, mid) ∧ f a mid = .ok (b, rest) := by
  change (d input).bind (fun r => f r.1 r.2) = .ok (b, rest) at accepted
  cases first : d input with
  | error malformed => simp [first, Except.bind] at accepted
  | ok r => exact ⟨r.1, r.2, rfl, by simpa [first, Except.bind] using accepted⟩

theorem Takes.whole (takes : d.Takes taken a) : d taken = .ok (a, []) := by
  simpa using takes []

theorem takes_pure_iff : (pure a : Decoder α).Takes z a' ↔ z = [] ∧ a' = a := by
  constructor
  · intro takes
    have whole : Except.ok (a, z) = .ok (a', []) := takes.whole
    simp_all
  · rintro ⟨rfl, rfl⟩ rest
    rfl

theorem Takes.bind (first : d.Takes x a) (next : (f a).Takes y b) : (d >>= f).Takes (x ++ y) b := by
  intro rest
  rw [List.append_assoc, bind_ok (first (y ++ rest))]
  exact next rest

theorem Takes.bind_pure (first : d.Takes x a) (last : f a = pure b) : (d >>= f).Takes x b := by
  have rest : (f a).Takes [] b := by
    rw [last]
    exact takes_pure_iff.mpr ⟨rfl, rfl⟩
  rw [← List.append_nil x]
  exact first.bind rest

theorem Takes.of_bind (self : d.SelfDelimiting) (takes : (d >>= f).Takes z b) :
    ∃ a x y, z = x ++ y ∧ d.Takes x a ∧ (f a).Takes y b := by
  obtain ⟨a, mid, first, next⟩ := of_bind_ok takes.whole
  obtain ⟨x, rfl, front⟩ := self _ _ _ first
  refine ⟨a, x, mid, rfl, front, fun rest => ?_⟩
  rw [← bind_ok (f := f) (front (mid ++ rest)), ← List.append_assoc]
  exact takes rest

theorem selfDelimiting_pure (a : α) : (pure a : Decoder α).SelfDelimiting := by
  rintro input a rest ⟨⟩
  exact ⟨[], rfl, fun _ => rfl⟩

theorem selfDelimiting_throw (malformed : Malformed) :
    (throw malformed : Decoder α).SelfDelimiting := nofun

theorem SelfDelimiting.bind (self : d.SelfDelimiting) (next : ∀ a, (f a).SelfDelimiting) :
    (d >>= f).SelfDelimiting := by
  intro input b rest accepted
  obtain ⟨a, mid, first, second⟩ := of_bind_ok accepted
  obtain ⟨x, rfl, front⟩ := self _ _ _ first
  obtain ⟨y, rfl, back⟩ := next a _ _ _ second
  exact ⟨x ++ y, by simp, front.bind back⟩

theorem SelfDelimiting.append (self : d.SelfDelimiting) (accepted : d input = .ok (a, rest))
    (more : Bytes) : d (input ++ more) = .ok (a, rest ++ more) := by
  obtain ⟨taken, rfl, takes⟩ := self _ _ _ accepted
  rw [List.append_assoc]
  exact takes (rest ++ more)

theorem SelfDelimiting.error_of_prefix (self : d.SelfDelimiting) (takes : d.Takes taken a)
    (cut : x <+: taken) (short : x ≠ taken) : ∃ malformed, d x = .error malformed := by
  cases accepted : d x with
  | error malformed => exact ⟨malformed, rfl⟩
  | ok r =>
    obtain ⟨more, rfl⟩ := cut
    have longer := self.append accepted more
    rw [takes.whole] at longer
    have nothing : r.2 ++ more = [] := by simp_all
    rw [List.append_eq_nil_iff] at nothing
    rw [nothing.2, List.append_nil] at short
    contradiction

theorem Takes.not_prefix_of_ne (takes : d.Takes x a) (takes' : d.Takes y a') (ne : a ≠ a') :
    ¬ x <+: y := by
  rintro ⟨more, rfl⟩
  have whole := takes'.whole
  rw [takes more] at whole
  simp_all

theorem exists_getElem?_ne_of_not_prefix (forth : ¬ x <+: y) (back : ¬ y <+: x) :
    ∃ i, i < x.length ∧ i < y.length ∧ x[i]? ≠ y[i]? := by
  induction x generalizing y with
  | nil => exact absurd List.nil_prefix forth
  | cons b x ih =>
    cases y with
    | nil => exact absurd List.nil_prefix back
    | cons c y =>
      by_cases same : b = c
      · subst c
        rw [List.prefix_cons_inj] at forth back
        obtain ⟨i, lt, lt', differ⟩ := ih forth back
        exact ⟨i + 1, by simpa, by simpa, by simpa⟩
      · exact ⟨0, by simp, by simp, by simpa⟩

theorem SelfDelimiting.exists_getElem?_ne (self : d.SelfDelimiting)
    (accepted : d input = .ok (a, rest)) (accepted' : d input' = .ok (a', rest')) (ne : a ≠ a') :
    ∃ i, i + rest.length < input.length ∧ i + rest'.length < input'.length ∧
      input[i]? ≠ input'[i]? := by
  obtain ⟨x, rfl, takes⟩ := self _ _ _ accepted
  obtain ⟨y, rfl, takes'⟩ := self _ _ _ accepted'
  have forth := takes.not_prefix_of_ne takes' ne
  have back := takes'.not_prefix_of_ne takes ne.symm
  obtain ⟨i, lt, lt', differ⟩ := exists_getElem?_ne_of_not_prefix forth back
  refine ⟨i, by simpa, by simpa, ?_⟩
  rw [List.getElem?_append_left lt, List.getElem?_append_left lt']
  exact differ

/-- What `d` takes for a value, put after `before`, is `P` of the value. -/
def Spelled (P : Bytes → β → Prop) (before : Bytes) (d : Decoder β) : Prop :=
  ∀ taken b, d.Takes taken b → P (before ++ taken) b

section
variable {P : Bytes → β → Prop} {before : Bytes}

theorem spelled_pure (whole : P before b) : (pure b : Decoder β).Spelled P before := by
  intro taken b' takes
  obtain ⟨rfl, rfl⟩ := takes_pure_iff.mp takes
  rw [List.append_nil]
  exact whole

theorem spelled_throw (malformed : Malformed) :
    (throw malformed : Decoder β).Spelled P before := by
  intro taken b takes
  cases takes.whole

theorem Spelled.bind (self : d.SelfDelimiting)
    (next : ∀ a x, d.Takes x a → (f a).Spelled P (before ++ x)) : (d >>= f).Spelled P before := by
  intro taken b takes
  obtain ⟨a, x, y, rfl, front, last⟩ := takes.of_bind self
  rw [← List.append_assoc]
  exact next a x front y b last

end

theorem selfDelimiting_takeBytes (count : Nat) (short : Malformed) :
    (takeBytes count short).SelfDelimiting := by
  intro input bytes rest accepted
  unfold takeBytes at accepted
  split at accepted
  · cases accepted
    refine ⟨input.take count, by simp, takeBytes_append ?_ short⟩
    simp_all
  · cases accepted

theorem takes_takeBytes_iff {count : Nat} {short : Malformed} :
    (takeBytes count short).Takes z x ↔ z = x ∧ x.length = count := by
  constructor
  · intro takes
    have whole := takes.whole
    unfold takeBytes at whole
    split at whole
    · simp only [Except.ok.injEq, Prod.mk.injEq, List.drop_eq_nil_iff] at whole
      obtain ⟨rfl, short⟩ := whole
      rw [List.take_of_length_le short]
      exact ⟨rfl, by omega⟩
    · cases whole
  · rintro ⟨rfl, length⟩
    exact takeBytes_append length short

theorem selfDelimiting_takeNat (width : Nat) : (takeNat width).SelfDelimiting :=
  (selfDelimiting_takeBytes width .cutShort).bind fun _ => selfDelimiting_pure _

theorem takes_takeNat_iff {width n : Nat} :
    (takeNat width).Takes z n ↔ n < Nat.pow 256 width ∧ z = littleEndian width n := by
  constructor
  · intro takes
    obtain ⟨bytes, x, y, rfl, front, last⟩ := takes.of_bind (selfDelimiting_takeBytes _ _)
    obtain ⟨rfl, rfl⟩ := takes_pure_iff.mp last
    obtain ⟨rfl, rfl⟩ := takes_takeBytes_iff.mp front
    rw [littleEndian_ofLittleEndian]
    exact ⟨ofLittleEndian_lt x, List.append_nil x⟩
  · rintro ⟨small, rfl⟩
    exact takeNat_littleEndian width small

end Decoder

/-- An encoding that is read back, and that is told from what follows it. -/
class Readable (α : Type) [Encodable α] : Prop where
  selfDelimiting : (decode : Decoder α).SelfDelimiting
  takes_encode (a : α) : (encode a).length < UInt64.size → decode.Takes (encode a) a

/-- Each value has one spelling. -/
class Canonical (α : Type) [Encodable α] : Prop where
  eq_encode {a : α} {taken : Bytes} : decode.Takes taken a → taken = encode a

theorem Canonical.of_spelled {α : Type} [Encodable α]
    (spelled : (decode : Decoder α).Spelled (· = encode ·) []) : Canonical α :=
  ⟨fun takes => spelled _ _ takes⟩

namespace Decoder
variable {α β : Type} [Encodable α] [Readable α] {f : α → Decoder β} {z : Bytes} {b : β}

theorem SelfDelimiting.decode_bind (next : ∀ a, (f a).SelfDelimiting) :
    (decode >>= f).SelfDelimiting := Readable.selfDelimiting.bind next

theorem Takes.decode_bind {a : α} (fits : (encode a ++ z).length < UInt64.size)
    (next : z.length < UInt64.size → (f a).Takes z b) : (decode >>= f).Takes (encode a ++ z) b := by
  rw [List.length_append] at fits
  have front := Readable.takes_encode a (by omega)
  exact front.bind (next (by omega))

theorem Takes.decode_last {a : α} (fits : (encode a).length < UInt64.size) (last : f a = pure b) :
    (decode >>= f).Takes (encode a) b :=
  (Readable.takes_encode a fits).bind_pure last

theorem Spelled.decode_bind [Canonical α] {P : Bytes → β → Prop} {before : Bytes}
    (next : ∀ a, (f a).Spelled P (before ++ encode a)) : (decode >>= f).Spelled P before := by
  refine .bind Readable.selfDelimiting fun a x front => ?_
  rw [Canonical.eq_encode front]
  exact next a

end Decoder

open Decoder

variable {z : Bytes}

theorem takes_number_iff {α : Type} {width : Nat} {ofNat : Nat → α} {toNat : α → Nat}
    (small : ∀ a, toNat a < Nat.pow 256 width) (ofNat_toNat : ∀ a, ofNat (toNat a) = a)
    (toNat_ofNat : ∀ n < Nat.pow 256 width, toNat (ofNat n) = n) {a : α} :
    (do return ofNat (← takeNat width) : Decoder α).Takes z a ↔
      z = littleEndian width (toNat a) := by
  constructor
  · intro takes
    obtain ⟨n, x, y, rfl, front, last⟩ := takes.of_bind (selfDelimiting_takeNat width)
    obtain ⟨rfl, rfl⟩ := takes_pure_iff.mp last
    obtain ⟨lt, rfl⟩ := takes_takeNat_iff.mp front
    rw [toNat_ofNat n lt, List.append_nil]
  · rintro rfl
    have front := takes_takeNat_iff.mpr ⟨small a, rfl⟩
    exact front.bind_pure (congrArg pure (ofNat_toNat a))

theorem takes_uint8_iff {n : UInt8} : decode.Takes z n ↔ z = [n] := by
  have spelled : [n] = littleEndian 1 n.toNat := by simp [littleEndian]
  rw [spelled]
  exact takes_number_iff UInt8.toNat_lt (fun _ => UInt8.ofNat_toNat) fun n lt => by
    simpa using UInt8.toNat_ofNat_of_lt' lt

theorem takes_uint32_iff {n : UInt32} : decode.Takes z n ↔ z = encode n :=
  takes_number_iff UInt32.toNat_lt (fun _ => UInt32.ofNat_toNat) fun n lt => by
    simpa using UInt32.toNat_ofNat_of_lt' lt

theorem takes_uint64_iff {n : UInt64} : decode.Takes z n ↔ z = encode n :=
  takes_number_iff UInt64.toNat_lt (fun _ => UInt64.ofNat_toNat) fun n lt => by
    simpa using UInt64.toNat_ofNat_of_lt' lt

theorem selfDelimiting_number {α : Type} (width : Nat) (ofNat : Nat → α) :
    (do return ofNat (← takeNat width) : Decoder α).SelfDelimiting :=
  (selfDelimiting_takeNat width).bind fun _ => selfDelimiting_pure _

instance : Readable UInt8 where
  selfDelimiting := selfDelimiting_number 1 UInt8.ofNat
  takes_encode _ _ := takes_uint8_iff.mpr rfl

instance : Readable UInt32 where
  selfDelimiting := selfDelimiting_number 4 UInt32.ofNat
  takes_encode _ _ := takes_uint32_iff.mpr rfl

instance : Readable UInt64 where
  selfDelimiting := selfDelimiting_number 8 UInt64.ofNat
  takes_encode _ _ := takes_uint64_iff.mpr rfl

instance : Canonical UInt8 := ⟨takes_uint8_iff.mp⟩

instance : Canonical UInt32 := ⟨takes_uint32_iff.mp⟩

instance : Canonical UInt64 := ⟨takes_uint64_iff.mp⟩

instance : Readable Bool where
  selfDelimiting := by
    refine .decode_bind fun byte => ?_
    split
    · exact selfDelimiting_pure false
    split
    · exact selfDelimiting_pure true
    · exact selfDelimiting_throw _
  takes_encode b _ := by
    cases b
    · exact fun rest => rfl
    · exact fun rest => rfl

instance : Canonical Bool := .of_spelled <| by
  refine .decode_bind fun byte => ?_
  split
  · rename_i zero
    rw [zero]
    exact spelled_pure rfl
  split
  · rename_i one
    rw [one]
    exact spelled_pure rfl
  · exact spelled_throw _

theorem text?_eq_some_iff {bytes : Bytes} {s : String} :
    Utf8.text? bytes = some s ↔ bytes = s.toUTF8.data.toList := by
  unfold Utf8.text? String.fromUTF8?
  constructor
  · intro read
    split at read
    · cases read
      rfl
    · cases read
  · rintro rfl
    exact dif_pos s.isValidUTF8

theorem length_encode_string (s : String) : (encode s).length = 8 + s.utf8ByteSize := by
  change (littleEndian 8 _ ++ s.toUTF8.data.toList).length = _
  rw [List.length_append, littleEndian_length]
  rfl

instance : Readable String where
  selfDelimiting := by
    refine .decode_bind fun size => .bind (selfDelimiting_takeBytes _ _) fun bytes => ?_
    split
    · exact selfDelimiting_pure _
    · exact selfDelimiting_throw _
  takes_encode s fits := by
    rw [length_encode_string] at fits
    have counted : s.utf8ByteSize = (UInt64.ofNat s.utf8ByteSize).toNat :=
      (UInt64.toNat_ofNat_of_lt' (by omega)).symm
    have front := (takes_uint64_iff (n := .ofNat s.utf8ByteSize)).mpr rfl
    have middle : (takeBytes _ .textTooLong).Takes s.toUTF8.data.toList _ :=
      takes_takeBytes_iff.mpr ⟨rfl, counted⟩
    refine front.bind (middle.bind_pure ?_)
    rw [text?_eq_some_iff.mpr rfl]

instance : Canonical String := .of_spelled <| by
  refine .decode_bind fun size => .bind (selfDelimiting_takeBytes _ _) fun bytes x middle => ?_
  obtain ⟨rfl, length⟩ := takes_takeBytes_iff.mp middle
  split
  · rename_i s read
    rw [text?_eq_some_iff] at read
    subst read
    have counted : s.utf8ByteSize = size.toNat := length
    refine spelled_pure ?_
    simp [encode, counted]
  · exact spelled_throw _

section
variable {α : Type} [Encodable α] [Readable α]

instance : Readable (Option α) where
  selfDelimiting := by
    refine .decode_bind fun byte => ?_
    split
    · exact selfDelimiting_pure none
    split
    · exact .decode_bind fun a => selfDelimiting_pure (some a)
    · exact selfDelimiting_throw _
  takes_encode a fits := by
    cases a with
    | none => exact fun rest => rfl
    | some a =>
      have short : (encode a).length + 1 < UInt64.size := fits
      have front : decode.Takes [1] (1 : UInt8) := takes_uint8_iff.mpr rfl
      exact front.bind (.decode_last (by omega) rfl)

instance [Canonical α] : Canonical (Option α) := .of_spelled <| by
  refine .decode_bind fun byte => ?_
  split
  · rename_i zero
    rw [zero]
    exact spelled_pure rfl
  split
  · rename_i one
    rw [one]
    exact .decode_bind fun a => spelled_pure rfl
  · exact spelled_throw _

end

theorem ofNanos?_eq_some_iff {n : Nat} {d : Duration} :
    Duration.ofNanos? n = some d ↔ n = d.nanos := by
  unfold Duration.ofNanos?
  constructor
  · intro same
    split at same
    · cases same
      rfl
    · cases same
  · rintro rfl
    exact dif_pos d.inRange

theorem takes_duration_iff {d : Duration} :
    decode.Takes z d ↔ ∃ (secs : UInt64) (nanos : UInt32),
      secs.toNat * nanosPerSecond + nanos.toNat = d.nanos ∧ z = encode secs ++ encode nanos := by
  constructor
  · intro takes
    have spelled : (decode : Decoder Duration).Spelled (fun z d =>
        ∃ (secs : UInt64) (nanos : UInt32),
          secs.toNat * nanosPerSecond + nanos.toNat = d.nanos ∧
          z = encode secs ++ encode nanos) [] := by
      refine .decode_bind fun secs => .decode_bind fun nanos => ?_
      split
      · rename_i read
        exact spelled_pure ⟨secs, nanos, ofNanos?_eq_some_iff.mp read, rfl⟩
      · exact spelled_throw _
    exact spelled z d takes
  · rintro ⟨secs, nanos, same, rfl⟩
    have front : decode.Takes (encode secs) secs := takes_uint64_iff.mpr rfl
    have middle : decode.Takes (encode nanos) nanos := takes_uint32_iff.mpr rfl
    refine front.bind (middle.bind_pure ?_)
    rw [ofNanos?_eq_some_iff.mpr same]

instance : Readable Duration where
  selfDelimiting := by
    refine .decode_bind fun secs => .decode_bind fun nanos => ?_
    split
    · exact selfDelimiting_pure _
    · exact selfDelimiting_throw _
  takes_encode d _ := by
    have secs : (UInt64.ofNat d.secs).toNat = d.secs := UInt64.toNat_ofNat_of_lt' d.secs_lt
    have nanos : (UInt32.ofNat d.subsecNanos).toNat = d.subsecNanos :=
      UInt32.toNat_ofNat_of_lt' (Nat.lt_trans d.subsecNanos_lt (by decide))
    refine takes_duration_iff.mpr ⟨.ofNat d.secs, .ofNat d.subsecNanos, ?_, rfl⟩
    rw [secs, nanos, d.nanos_eq]

theorem encode_duration_of_lt {d : Duration} {secs : UInt64} {nanos : UInt32}
    (small : nanos.toNat < nanosPerSecond)
    (same : secs.toNat * nanosPerSecond + nanos.toNat = d.nanos) :
    encode secs ++ encode nanos = encode d := by
  have whole : d.secs = secs.toNat := by
    unfold Duration.secs nanosPerSecond at *
    omega
  have fraction : d.subsecNanos = nanos.toNat := by
    unfold Duration.subsecNanos nanosPerSecond at *
    omega
  change _ = encode (UInt64.ofNat d.secs) ++ encode (UInt32.ofNat d.subsecNanos)
  rw [whole, fraction, UInt64.ofNat_toNat, UInt32.ofNat_toNat]

theorem selfDelimiting_takeIndex (count : Nat) : (takeIndex count).SelfDelimiting := by
  refine SelfDelimiting.decode_bind fun index => ?_
  split
  · exact selfDelimiting_pure _
  · exact selfDelimiting_throw _

theorem takes_takeIndex_iff {count i : Nat} (few : count ≤ UInt32.size) :
    (takeIndex count).Takes z i ↔ i < count ∧ z = encodeIndex i := by
  constructor
  · intro takes
    have spelled : (takeIndex count).Spelled (fun z i => i < count ∧ z = encodeIndex i) [] := by
      refine .decode_bind fun index => ?_
      split
      · rename_i lt
        exact spelled_pure ⟨lt, by simp [encodeIndex]⟩
      · exact spelled_throw _
    exact spelled z i takes
  · rintro ⟨lt, rfl⟩
    have index : (UInt32.ofNat i).toNat = i := UInt32.toNat_ofNat_of_lt' (by omega)
    have front : decode.Takes (encodeIndex i) (UInt32.ofNat i) := takes_uint32_iff.mpr rfl
    refine front.bind_pure ?_
    rw [index, if_pos lt]

theorem Decoder.Takes.takeIndex_bind {β : Type} {f : Nat → Decoder β} {b : β} {count i : Nat}
    (few : count ≤ UInt32.size) (lt : i < count)
    (fits : (encodeIndex i ++ z).length < UInt64.size)
    (next : z.length < UInt64.size → (f i).Takes z b) :
    (takeIndex count >>= f).Takes (encodeIndex i ++ z) b := by
  rw [List.length_append] at fits
  have front := (takes_takeIndex_iff few).mpr ⟨lt, rfl⟩
  exact front.bind (next (by omega))

theorem Decoder.Spelled.takeIndex_bind {β : Type} {f : Nat → Decoder β} {P : Bytes → β → Prop}
    {before : Bytes} {count : Nat} (few : count ≤ UInt32.size)
    (next : ∀ i < count, (f i).Spelled P (before ++ encodeIndex i)) :
    (takeIndex count >>= f).Spelled P before := by
  refine .bind (selfDelimiting_takeIndex count) fun i x front => ?_
  obtain ⟨lt, rfl⟩ := (takes_takeIndex_iff few).mp front
  exact next i lt

end FollowerSync.Wire
