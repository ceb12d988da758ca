import FollowerSync.Document.Toml.Text

set_option autoImplicit false

namespace FollowerSync.Document.Toml

/-- Where a line ends after the text, the scan takes the text for the value. -/
def Scan.Takes {α : Type} (s : Scan α) (text : List Char) (a : α) : Prop :=
  ∀ rest, s (text ++ '\n' :: rest) = some (a, '\n' :: rest)

namespace Text

theorem toNat_lt_of_needsEscape {c : Char} (control : needsEscape c) : c.toNat < 128 := by
  refine Nat.lt_of_not_le fun high => ?_
  have : ' ' ≤ c := by
    rw [Char.le_def, UInt32.le_iff_toNat_le]
    change 32 ≤ c.toNat
    omega
  have : c ≠ '\x7f' := by
    rintro rfl
    exact absurd high (by decide)
  simp_all [needsEscape, isPlain]

theorem hexText_of_ascii : ∀ n < 128,
    (hexText (.ofNat n)).length = 4 ∧ charOfHex? (hexText (.ofNat n)) = some (.ofNat n) := by
  decide +kernel

theorem escape?_letter : ∀ p ∈ escapes, ∀ rest, escape? (p.1 :: rest) = some (p.2, rest) := by
  simp [escapes, escape?, List.lookup_cons]

def Escapable (c : Char) : Prop := c = '"' ∨ c = '\n' ∨ c = '\t' ∨ c = '\\' ∨ needsEscape c

theorem escape?_escapeOf {c : Char} (escapable : Escapable c) (rest : List Char) :
    ∃ letters, escapeOf c = '\\' :: letters ∧ escape? (letters ++ rest) = some (c, rest) := by
  unfold escapeOf
  split
  · next letter stands found =>
    obtain rfl : stands = c := by simpa using List.find?_some found
    exact ⟨[letter], rfl, escape?_letter _ (List.mem_of_find?_eq_some found) rest⟩
  · have ascii : c.toNat < 128 := by
      rcases escapable with rfl | rfl | rfl | rfl | control
      all_goals first | decide | exact toNat_lt_of_needsEscape control
    obtain ⟨four, back⟩ := hexText_of_ascii c.toNat ascii
    rw [Char.ofNat_toNat] at four back
    obtain ⟨a, b, d, e, digits⟩ : ∃ a b d e, hexText c = [a, b, d, e] := by
      match hexText c, four with
      | [a, b, d, e], _ => exact ⟨a, b, d, e, rfl⟩
    refine ⟨'u' :: hexText c, rfl, ?_⟩
    rw [digits] at back ⊢
    simp [escape?, back]

/-- How a character of a body in double quotes is put down after so many quotes in a row. -/
inductive Put (manyLines : Bool) (spare run : Nat) (c : Char) : List Char → Prop
  | escape : Escapable c → Put manyLines spare run c (escapeOf c)
  | quote : c = '"' → run < spare → Put manyLines spare run c [c]
  | lineEnd : c = '\n' → manyLines → Put manyLines spare run c [c]
  | plain : c ≠ '"' → c ≠ '\\' → isPlain c → Put manyLines spare run c [c]

theorem escaped_cons (manyLines : Bool) (spare run : Nat) (c : Char) (cs : List Char) :
    ∃ piece, Put manyLines spare run c piece ∧ escaped manyLines spare run (c :: cs) =
      piece ++ escaped manyLines spare (if c = '"' then run + 1 else 0) cs := by
  rw [escaped]
  by_cases isQuote : c = '"'
  · rw [if_pos isQuote, if_pos isQuote]
    refine ⟨_, ?_, rfl⟩
    split
    · next spared => exact .quote isQuote spared
    · exact .escape (.inl isQuote)
  · rw [if_neg isQuote, if_neg isQuote]
    refine ⟨_, ?_, rfl⟩
    split
    · next isLineEnd => exact .lineEnd isLineEnd.1 isLineEnd.2
    · split
      · next escapable => exact .escape (.inr escapable)
      · next plain =>
        simp only [not_or] at plain
        obtain ⟨noFeed, -, noSlash, noControl⟩ := plain
        exact .plain isQuote noSlash (by simpa [needsEscape, noFeed] using noControl)

section
variable {c : Char} {cs rest : List Char} {fuel : Nat}

theorem lineFeed_eq_none (breaks : c ≠ '\n' ∧ c ≠ '\x0d') : lineFeed (c :: cs) = none := by
  unfold lineFeed
  split <;> simp_all

theorem ne_of_isPlain (plain : isPlain c) : c ≠ '\n' ∧ c ≠ '\x0d' := by
  constructor <;> (rintro rfl; cases plain)

theorem prepend_some (body : List Char) :
    prepend c (some (body, rest)) = some (c :: body, rest) := rfl

theorem basicBody_plain (noQuote : c ≠ '"') (noSlash : c ≠ '\\') (plain : isPlain c) :
    basicBody (fuel + 1) (c :: cs) = prepend c (basicBody fuel cs) := by
  simp [basicBody, noQuote, noSlash, plain]

theorem basicBody_escapeOf (escapable : Escapable c) :
    basicBody (fuel + 1) (escapeOf c ++ cs) = prepend c (basicBody fuel cs) := by
  obtain ⟨letters, begun, read⟩ := escape?_escapeOf escapable cs
  rw [begun, List.cons_append, basicBody, if_neg (by decide), if_pos rfl, read]

theorem basicBody_escaped {run : Nat} (enough : cs.length < fuel) :
    basicBody fuel (escaped false 0 run cs ++ '"' :: rest) = some (cs, rest) := by
  induction cs generalizing run fuel with
  | nil =>
    obtain ⟨fuel, rfl⟩ := Nat.exists_eq_add_of_lt enough
    simp [escaped, basicBody]
  | cons c cs ih =>
    obtain ⟨fuel, rfl⟩ := Nat.exists_eq_add_of_lt enough
    obtain ⟨piece, put, text⟩ := escaped_cons false 0 run c cs
    rw [text, List.append_assoc]
    cases put with
    | escape escapable => rw [basicBody_escapeOf escapable, ih (by simp; omega), prepend_some]
    | quote _ spared => cases spared
    | lineEnd _ allowed => cases allowed
    | plain noQuote noSlash plain =>
      rw [List.singleton_append, basicBody_plain noQuote noSlash plain, ih (by simp; omega),
        prepend_some]

theorem literalBody_append (plain : ∀ c ∈ cs, isPlain c ∧ c ≠ '\x27') :
    literalBody (cs ++ '\x27' :: rest) = some (cs, rest) := by
  induction cs with
  | nil => simp [literalBody]
  | cons c cs ih =>
    rw [List.forall_mem_cons] at plain
    simp [literalBody, plain.1, ih plain.2, prepend]

theorem quoteRun_cons_self (q : Char) : quoteRun q (q :: cs) = quoteRun q cs + 1 := by
  simp [quoteRun]

theorem quoteRun_cons_ne {q : Char} (ne : c ≠ q) : quoteRun q (c :: cs) = 0 := by
  simp [quoteRun, ne]

theorem quoteRun_replicate {q : Char} (ne : c ≠ q) (k : Nat) :
    quoteRun q (List.replicate k q ++ c :: cs) = k := by
  induction k with
  | zero => exact quoteRun_cons_ne ne
  | succ k ih => rw [List.replicate_succ, List.cons_append, quoteRun_cons_self, ih]

def closers (q : Char) (k : Nat) : List Char := List.replicate k q ++ List.replicate 3 q

theorem closers_eq (q : Char) (k : Nat) : closers q k = q :: List.replicate (k + 2) q := by
  rw [closers, List.replicate_append_replicate, ← List.replicate_succ]

theorem closing?_closers {q : Char} (rest : List Char) (ne : q ≠ '\n') {k : Nat} (few : k ≤ 2)
    (other : Option (List Char × List Char)) :
    (if 3 ≤ quoteRun q (closers q k ++ '\n' :: rest) then closing? q (closers q k ++ '\n' :: rest)
      else other) = some (List.replicate k q, '\n' :: rest) := by
  have length : (closers q k).length = k + 3 := by simp [closers]
  have run : quoteRun q (closers q k ++ '\n' :: rest) = k + 3 := by
    rw [closers, List.replicate_append_replicate, quoteRun_replicate ne.symm]
  rw [run, if_pos (by omega), closing?, run, if_pos (by omega), Nat.add_sub_cancel,
    List.drop_left' length]

/-- A body that begins with quotes either ends with them or does not begin with more of them than
it may have in a row. -/
theorem quoteRun_escaped (manyLines : Bool) (spare run : Nat) (cs rest : List Char) :
    (∃ k ≤ spare - run, cs = List.replicate k '"' ∧
        escaped manyLines spare run cs = List.replicate k '"') ∨
      quoteRun '"' (escaped manyLines spare run cs ++ rest) ≤ spare - run := by
  induction cs generalizing run with
  | nil => exact .inl ⟨0, Nat.zero_le _, rfl, rfl⟩
  | cons c cs ih =>
    by_cases spared : c = '"' ∧ run < spare
    · obtain ⟨rfl, spared⟩ := spared
      have text : escaped manyLines spare run ('"' :: cs) =
          '"' :: escaped manyLines spare (run + 1) cs := by
        simp [escaped, spared]
      rw [text, List.cons_append, quoteRun_cons_self]
      rcases ih (run + 1) with ⟨k, le, whole, same⟩ | short
      · exact .inl ⟨k + 1, by omega, by rw [whole, List.replicate_succ],
          by rw [same, List.replicate_succ]⟩
      · exact .inr (by omega)
    · obtain ⟨piece, put, text⟩ := escaped_cons manyLines spare run c cs
      suffices none : quoteRun '"' (piece ++ (escaped manyLines spare
          (if c = '"' then run + 1 else 0) cs ++ rest)) = 0 by
        rw [text, List.append_assoc, none]
        exact .inr (Nat.zero_le _)
      cases put with
      | escape escapable =>
        obtain ⟨letters, begun, -⟩ := escape?_escapeOf escapable []
        rw [begun, List.cons_append, quoteRun_cons_ne (by decide)]
      | quote isQuote spared' => exact absurd ⟨isQuote, spared'⟩ spared
      | lineEnd isLineEnd _ =>
        rw [List.singleton_append, quoteRun_cons_ne (isLineEnd ▸ by decide)]
      | plain noQuote _ _ => rw [List.singleton_append, quoteRun_cons_ne noQuote]

theorem manyBasicBody_plain (noQuote : c ≠ '"') (noSlash : c ≠ '\\') (plain : isPlain c) :
    manyBasicBody (fuel + 1) .inText (c :: cs) = prepend c (manyBasicBody fuel .inText cs) := by
  have noFeed : lineFeed (c :: cs) = none := lineFeed_eq_none (ne_of_isPlain plain)
  simp [manyBasicBody, noFeed, noQuote, noSlash, plain]

theorem manyBasicBody_lineEnd :
    manyBasicBody (fuel + 1) .inText ('\n' :: cs) =
      prepend '\n' (manyBasicBody fuel .inText cs) := by
  simp [manyBasicBody, lineFeed]

theorem manyBasicBody_escapeOf (escapable : Escapable c) :
    manyBasicBody (fuel + 1) .inText (escapeOf c ++ cs) =
      prepend c (manyBasicBody fuel .inText cs) := by
  obtain ⟨letters, begun, read⟩ := escape?_escapeOf escapable cs
  have noFeed : lineFeed ('\\' :: (letters ++ cs)) = none := rfl
  simp [begun, manyBasicBody, noFeed, read]

theorem manyBasicBody_quote :
    manyBasicBody (fuel + 1) .inText ('"' :: cs) =
      if 3 ≤ quoteRun '"' ('"' :: cs) then closing? '"' ('"' :: cs)
      else prepend '"' (manyBasicBody fuel .inText cs) := by
  have noFeed : lineFeed ('"' :: cs) = none := rfl
  simp [manyBasicBody, noFeed]

theorem manyBasicBody_closers {k : Nat} (few : k ≤ 2) :
    manyBasicBody (fuel + 1) .inText (closers '"' k ++ '\n' :: rest) =
      some (List.replicate k '"', '\n' :: rest) := by
  have closed := closing?_closers (q := '"') rest (by decide) few
  rw [closers_eq, List.cons_append] at closed ⊢
  rw [manyBasicBody_quote, closed]

theorem manyBasicBody_escaped {run : Nat} (enough : cs.length < fuel) :
    manyBasicBody fuel .inText (escaped true 2 run cs ++ (closers '"' 0 ++ '\n' :: rest)) =
      some (cs, '\n' :: rest) := by
  induction cs generalizing run fuel with
  | nil =>
    obtain ⟨fuel, rfl⟩ := Nat.exists_eq_add_one_of_ne_zero (Nat.ne_zero_of_lt enough)
    exact manyBasicBody_closers (Nat.zero_le 2)
  | cons c cs ih =>
    obtain ⟨fuel, rfl⟩ := Nat.exists_eq_add_one_of_ne_zero (Nat.ne_zero_of_lt enough)
    have later (run : Nat) : manyBasicBody fuel .inText
        (escaped true 2 run cs ++ (closers '"' 0 ++ '\n' :: rest)) = some (cs, '\n' :: rest) :=
      ih (Nat.lt_of_succ_lt_succ enough)
    obtain ⟨piece, put, text⟩ := escaped_cons true 2 run c cs
    cases put with
    | escape escapable =>
      rw [text, List.append_assoc, manyBasicBody_escapeOf escapable, later, prepend_some]
    | lineEnd isLineEnd _ =>
      subst c
      rw [text, List.append_assoc, List.singleton_append, manyBasicBody_lineEnd, later,
        prepend_some]
    | plain noQuote noSlash plain =>
      rw [text, List.append_assoc, List.singleton_append,
        manyBasicBody_plain noQuote noSlash plain, later, prepend_some]
    | quote isQuote spared =>
      subst c
      rcases quoteRun_escaped true 2 run ('"' :: cs) (closers '"' 0 ++ '\n' :: rest) with
        ⟨k, few, whole, same⟩ | short
      · have : closers '"' k = List.replicate k '"' ++ closers '"' 0 := by simp [closers]
        rw [same, whole, ← List.append_assoc, ← this, manyBasicBody_closers (by omega)]
      · rw [text, List.append_assoc, List.singleton_append] at short ⊢
        rw [manyBasicBody_quote, if_neg (by omega), later, prepend_some]

theorem le_longestRun (q : Char) (run : Nat) (cs : List Char) : run ≤ longestRun q run cs := by
  induction cs generalizing run with
  | nil => exact Nat.le_refl run
  | cons c cs ih =>
    rw [longestRun]
    split
    · exact Nat.le_of_succ_le (ih (run + 1))
    · exact Nat.le_max_left ..

theorem ne_of_longestRun_eq_zero {q : Char} (none : longestRun q 0 cs = 0) : ∀ c ∈ cs, c ≠ q := by
  induction cs with
  | nil => exact fun _ => nofun
  | cons c cs ih =>
    rw [longestRun] at none
    split at none
    · have := le_longestRun q (0 + 1) cs
      omega
    · next ne =>
      rw [Nat.zero_max] at none
      exact List.forall_mem_cons.mpr ⟨ne, ih none⟩

theorem quoteRun_of_longestRun {q : Char} {bound run : Nat} (few : longestRun q run cs ≤ bound)
    (rest : List Char) : (∃ k ≤ bound - run, cs = List.replicate k q) ∨
      quoteRun q (cs ++ rest) ≤ bound - run := by
  induction cs generalizing run with
  | nil => exact .inl ⟨0, Nat.zero_le _, rfl⟩
  | cons c cs ih =>
    rw [longestRun] at few
    split at few
    · next isQuote =>
      subst c
      have := le_longestRun q (run + 1) cs
      rw [List.cons_append, quoteRun_cons_self]
      rcases ih few with ⟨k, le, whole⟩ | short
      · exact .inl ⟨k + 1, by omega, by rw [whole, List.replicate_succ]⟩
      · exact .inr (by omega)
    · next ne =>
      rw [List.cons_append, quoteRun_cons_ne ne]
      exact .inr (Nat.zero_le _)

theorem manyLiteralBody_plain (noQuote : c ≠ '\x27') (plain : isPlain c) :
    manyLiteralBody (fuel + 1) (c :: cs) = prepend c (manyLiteralBody fuel cs) := by
  have noFeed : lineFeed (c :: cs) = none := lineFeed_eq_none (ne_of_isPlain plain)
  simp [manyLiteralBody, noFeed, noQuote, plain]

theorem manyLiteralBody_quote :
    manyLiteralBody (fuel + 1) ('\x27' :: cs) =
      if 3 ≤ quoteRun '\x27' ('\x27' :: cs) then closing? '\x27' ('\x27' :: cs)
      else prepend '\x27' (manyLiteralBody fuel cs) := by
  have noFeed : lineFeed ('\x27' :: cs) = none := rfl
  simp [manyLiteralBody, noFeed]

theorem manyLiteralBody_closers {k : Nat} (few : k ≤ 2) :
    manyLiteralBody (fuel + 1) (closers '\x27' k ++ '\n' :: rest) =
      some (List.replicate k '\x27', '\n' :: rest) := by
  have closed := closing?_closers (q := '\x27') rest (by decide) few
  rw [closers_eq, List.cons_append] at closed ⊢
  rw [manyLiteralBody_quote, closed]

theorem manyLiteralBody_append {run : Nat} (plain : ∀ c ∈ cs, isPlain c ∨ c = '\n')
    (few : longestRun '\x27' run cs ≤ 2) (enough : cs.length < fuel) :
    manyLiteralBody fuel (cs ++ (closers '\x27' 0 ++ '\n' :: rest)) = some (cs, '\n' :: rest) := by
  induction cs generalizing run fuel with
  | nil =>
    obtain ⟨fuel, rfl⟩ := Nat.exists_eq_add_one_of_ne_zero (Nat.ne_zero_of_lt enough)
    exact manyLiteralBody_closers (Nat.zero_le 2)
  | cons c cs ih =>
    obtain ⟨fuel, rfl⟩ := Nat.exists_eq_add_one_of_ne_zero (Nat.ne_zero_of_lt enough)
    rw [List.forall_mem_cons] at plain
    have later {run : Nat} (few : longestRun '\x27' run cs ≤ 2) :=
      ih plain.2 few (Nat.lt_of_succ_lt_succ enough)
    by_cases isQuote : c = '\x27'
    · subst c
      have counted : longestRun '\x27' (run + 1) cs ≤ 2 := by simpa [longestRun] using few
      rcases quoteRun_of_longestRun few (closers '\x27' 0 ++ '\n' :: rest) with
        ⟨k, le, whole⟩ | short
      · have : closers '\x27' k = List.replicate k '\x27' ++ closers '\x27' 0 := by simp [closers]
        rw [whole, ← List.append_assoc, ← this, manyLiteralBody_closers (by omega)]
      · rw [List.cons_append] at short ⊢
        rw [manyLiteralBody_quote, if_neg (by omega), later counted, prepend_some]
    · have counted : longestRun '\x27' 0 cs ≤ 2 := by
        rw [longestRun, if_neg isQuote] at few
        omega
      rcases plain.1 with plain | isLineEnd
      · rw [List.cons_append, manyLiteralBody_plain isQuote plain, later counted, prepend_some]
      · subst c
        rw [List.cons_append, manyLiteralBody, lineFeed]
        dsimp only
        rw [later counted, prepend_some]

theorem scan_of_line (short : ∀ q ∈ ['"', '\x27'], quoteRun q cs < 3)
    {body : List Char} (read : line cs = some (body, rest)) :
    scan cs = some (.ofList body, rest) := by
  rw [List.forall_mem_cons, List.forall_mem_singleton] at short
  unfold scan
  split
  · simp only [quoteRun_cons_self] at short
    omega
  · simp only [quoteRun_cons_self] at short
    omega
  · simp [read]

end

theorem quoteRun_lt_three {q q' : Char} {body rest : List Char}
    (edge : (∃ k ≤ 0, body = List.replicate k q) ∨ quoteRun q (body ++ q :: '\n' :: rest) ≤ 0)
    (noFeed : q ≠ '\n') : quoteRun q' (q :: (body ++ q :: '\n' :: rest)) < 3 := by
  by_cases same : q = q'
  · subst q'
    rw [quoteRun_cons_self]
    rcases edge with ⟨k, none, rfl⟩ | short
    · obtain rfl := Nat.le_zero.mp none
      simp [quoteRun_cons_self, quoteRun_cons_ne noFeed.symm]
    · omega
  · rw [quoteRun_cons_ne same]
    decide

theorem length_le_escaped (manyLines : Bool) (spare run : Nat) (cs : List Char) :
    cs.length ≤ (escaped manyLines spare run cs).length := by
  induction cs generalizing run with
  | nil => exact Nat.zero_le _
  | cons c cs ih =>
    obtain ⟨piece, put, text⟩ := escaped_cons manyLines spare run c cs
    have : 0 < piece.length := by
      cases put with
      | escape escapable =>
        obtain ⟨letters, begun, -⟩ := escape?_escapeOf escapable []
        simp [begun]
      | _ => exact Nat.one_pos
    have := ih (if c = '"' then run + 1 else 0)
    rw [text, List.length_append, List.length_cons]
    omega

theorem takes_basic (cs : List Char) :
    scan.Takes (quoted ['"'] (escaped false 0 0 cs)).toList (.ofList cs) := by
  intro rest
  simp only [quoted, String.toList_ofList, List.append_assoc, List.singleton_append]
  refine scan_of_line (fun q _ => quoteRun_lt_three ?_ (by decide)) (basicBody_escaped ?_)
  · rcases quoteRun_escaped false 0 0 cs ('"' :: '\n' :: rest) with ⟨k, le, -, same⟩ | short
    · exact .inl ⟨k, le, same⟩
    · exact .inr short
  · have := length_le_escaped false 0 0 cs
    rw [List.length_append]
    omega

theorem takes_literal {cs : List Char} (plain : ∀ c ∈ cs, isPlain c)
    (none : longestRun '\x27' 0 cs = 0) : scan.Takes (quoted ['\x27'] cs).toList (.ofList cs) := by
  intro rest
  simp only [quoted, String.toList_ofList, List.append_assoc, List.singleton_append]
  refine scan_of_line (fun q _ => quoteRun_lt_three ?_ (by decide)) (literalBody_append ?_)
  · exact quoteRun_of_longestRun (Nat.le_of_eq none) _
  · exact fun c mem => ⟨plain c mem, ne_of_longestRun_eq_zero none c mem⟩

theorem toList_manyLined (q : Char) (hasLines : Bool) (body rest : List Char) :
    (manyLined q hasLines body).toList ++ '\n' :: rest =
      q :: q :: q :: ((if hasLines then ['\n'] else []) ++
        (body ++ (closers q 0 ++ '\n' :: rest))) := by
  simp [manyLined, quoted, closers, List.replicate_succ]

theorem skipLineFeed_opening {hasLines : Bool} {body : List Char}
    (clear : hasLines = false → ∀ c ∈ body.head?, c ≠ '\n' ∧ c ≠ '\x0d') (nonempty : body ≠ []) :
    skipLineFeed ((if hasLines then ['\n'] else []) ++ body) = body := by
  cases hasLines with
  | true => rfl
  | false =>
    cases body with
    | nil => contradiction
    | cons c cs =>
      simp [skipLineFeed, lineFeed_eq_none (clear rfl c rfl)]

theorem lt_length_opening (hasLines : Bool) {n : Nat} {body : List Char} (le : n ≤ body.length)
    (rest : List Char) : n < ((if hasLines then ['\n'] else []) ++ (body ++ rest)).length + 1 := by
  simp only [List.length_append]
  omega

theorem takes_manyBasic (cs : List Char) :
    scan.Takes (manyLined '"' (cs.contains '\n') (escaped true 2 0 cs)).toList (.ofList cs) := by
  intro rest
  have opened : skipLineFeed ((if cs.contains '\n' then ['\n'] else []) ++
      (escaped true 2 0 cs ++ (closers '"' 0 ++ '\n' :: rest))) =
      escaped true 2 0 cs ++ (closers '"' 0 ++ '\n' :: rest) := by
    refine skipLineFeed_opening (fun noFeed => ?_) (by simp [closers])
    cases cs with
    | nil => simp [escaped, closers]
    | cons c cs =>
      obtain ⟨piece, put, text⟩ := escaped_cons true 2 0 c cs
      rw [text, List.append_assoc]
      cases put with
      | escape escapable =>
        obtain ⟨letters, begun, -⟩ := escape?_escapeOf escapable []
        simp [begun]
      | quote isQuote _ => simp [isQuote]
      | lineEnd isLineEnd _ => simp [isLineEnd] at noFeed
      | plain _ _ plain => simpa using ne_of_isPlain plain
  have enough := lt_length_opening (cs.contains '\n') (length_le_escaped true 2 0 cs)
    (closers '"' 0 ++ '\n' :: rest)
  simp only [toList_manyLined, scan]
  rw [opened, manyBasicBody_escaped enough]
  rfl

theorem takes_manyLiteral {cs : List Char} (plain : ∀ c ∈ cs, isPlain c ∨ c = '\n')
    (few : longestRun '\x27' 0 cs ≤ 2) :
    scan.Takes (manyLined '\x27' (cs.contains '\n') cs).toList (.ofList cs) := by
  intro rest
  have opened : skipLineFeed ((if cs.contains '\n' then ['\n'] else []) ++
      (cs ++ (closers '\x27' 0 ++ '\n' :: rest))) = cs ++ (closers '\x27' 0 ++ '\n' :: rest) := by
    refine skipLineFeed_opening (fun noFeed => ?_) (by simp [closers])
    cases cs with
    | nil => simp [closers]
    | cons c cs =>
      rw [List.forall_mem_cons] at plain
      have noFeed : c ≠ '\n' := fun isLineEnd => by simp [isLineEnd] at noFeed
      simpa using ne_of_isPlain (plain.1.resolve_right noFeed)
  have enough := lt_length_opening (cs.contains '\n') (Nat.le_refl cs.length)
    (closers '\x27' 0 ++ '\n' :: rest)
  simp only [toList_manyLined, scan]
  rw [opened, manyLiteralBody_append plain few enough]
  rfl

/-- Whatever the text, what is written for it is read as the text. -/
theorem takes_render (s : String) : scan.Takes (render s).toList s := by
  obtain ⟨cs, rfl⟩ : ∃ cs, s = .ofList cs := ⟨s.toList, String.ofList_toList.symm⟩
  have plain (controls : cs.any needsEscape = false) (c : Char) (mem : c ∈ cs) :
      isPlain c ∨ c = '\n' := by
    have := List.any_eq_false.mp controls c mem
    by_cases plain : isPlain c
    · exact .inl plain
    · exact .inr (by simpa [needsEscape, plain] using this)
  unfold render
  simp only [String.toList_ofList]
  split
  · exact takes_basic cs
  split
  · next literal =>
    simp only [Bool.and_eq_true, Bool.not_eq_true', decide_eq_true_eq] at literal
    obtain ⟨⟨controls, none⟩, noFeed⟩ := literal
    refine takes_literal (fun c mem => (plain controls c mem).resolve_right ?_) none
    rintro rfl
    simp [mem] at noFeed
  split
  · exact takes_manyBasic cs
  split
  · next literal =>
    simp only [Bool.and_eq_true, Bool.not_eq_true', decide_eq_true_eq] at literal
    exact takes_manyLiteral (plain literal.1) literal.2
  split
  · next hasLines =>
    have read := takes_manyBasic cs
    rwa [hasLines] at read ⊢
  · exact takes_basic cs

end Text
end FollowerSync.Document.Toml
