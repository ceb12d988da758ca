import Mathlib.Data.List.TakeDrop
import FollowerSync.Document.Toml.Reader
import FollowerSync.Document.Toml.Writer
import FollowerSync.Proofs.Numerals

/-!
# Documents are read back

A document of sections with plain values is written line by line, and line by line the reader finds
the statements it was written for: a header for each section, then its keys with their values.
Filled statement by statement, the tables of the document come to hold what the sections held.
-/

set_option autoImplicit false

namespace FollowerSync.Document.Toml

section
variable {name : String} {gap rest : List Char} {c d : Char}

def Bare (name : String) : Prop := name.toList ≠ [] ∧ ∀ c ∈ name.toList, isBareKey c

theorem blanks_solid (solid : isBlank d = false) : blanks (d :: rest) = some ((), d :: rest) := by
  have none : (d :: rest).dropWhile isBlank = d :: rest := by simp [solid]
  rw [blanks, none]

theorem blanks_append (gap : List Char) (gaps : ∀ c ∈ gap, isBlank c) (solid : isBlank d = false) :
    blanks (gap ++ d :: rest) = some ((), d :: rest) := by
  rw [blanks, List.dropWhile_append_of_pos gaps]
  exact blanks_solid solid

theorem takeWhile_append {p : Char → Bool} {cs : List Char} (all : ∀ c ∈ cs, p c)
    (stop : p c = false) : Scan.takeWhile p (cs ++ c :: rest) = some (cs, c :: rest) := by
  have none : (c :: rest).takeWhile p = [] ∧ (c :: rest).dropWhile p = c :: rest := by simp [stop]
  rw [Scan.takeWhile, List.span_eq_takeWhile_dropWhile, List.takeWhile_append_of_pos all,
    List.dropWhile_append_of_pos all, none.1, none.2, List.append_nil]

theorem isBareKey_of_isBlank (blank : isBlank c) : isBareKey c = false := by
  have : c = ' ' ∨ c = '\t' := by simpa [isBlank] using blank
  rcases this with rfl | rfl <;> rfl

theorem isBlank_of_isBareKey (bare : isBareKey c) : isBlank c = false := by
  refine eq_false_of_ne_true fun blank => ?_
  rw [isBareKey_of_isBlank blank] at bare
  cases bare

theorem Bare.eq_cons (bare : Bare name) : ∃ c cs, name.toList = c :: cs ∧ isBareKey c := by
  obtain ⟨c, cs, front⟩ := List.exists_cons_of_ne_nil bare.1
  exact ⟨c, cs, front, bare.2 c (front ▸ List.mem_cons_self)⟩

theorem keyPart_append (bare : Bare name) (gaps : ∀ c ∈ gap, isBlank c) (solid : isBlank d = false)
    (stop : isBareKey d = false) :
    keyPart (name.toList ++ (gap ++ d :: rest)) = some (name, d :: rest) := by
  obtain ⟨c, cs, front, first⟩ := bare.eq_cons
  have begun : blanks (name.toList ++ (gap ++ d :: rest)) =
      some ((), name.toList ++ (gap ++ d :: rest)) := by
    rw [front]
    exact blanks_solid (isBlank_of_isBareKey first)
  have noQuote : Text.line (name.toList ++ (gap ++ d :: rest)) = none := by
    rw [front, List.cons_append]
    unfold Text.line
    split
    · next same =>
      cases same
      cases first
    · next same =>
      cases same
      cases first
    · rfl
  have taken : Scan.takeWhile isBareKey (name.toList ++ (gap ++ d :: rest)) =
      some (name.toList, gap ++ d :: rest) := by
    cases gap with
    | nil => exact takeWhile_append bare.2 stop
    | cons b gap =>
      exact takeWhile_append bare.2 (isBareKey_of_isBlank (gaps b List.mem_cons_self))
  have named : name.toList.isEmpty = false := List.isEmpty_eq_false_iff.mpr bare.1
  rw [keyPart, Scan.bind_some begun, Scan.bind_some (Scan.optional_none noQuote)]
  dsimp only
  rw [Scan.bind_some taken, named]
  have ended : blanks (gap ++ d :: rest) = some ((), d :: rest) :=
    blanks_append gap gaps solid
  rw [if_neg Bool.false_ne_true]
  have again : (pure name.toList : Scan (List Char)) (gap ++ d :: rest) =
    some (name.toList, gap ++ d :: rest) := rfl
  rw [Scan.bind_some again, Scan.bind_some ended, String.ofList_toList]
  rfl

theorem key_append (bare : Bare name) (gap : List Char) (gaps : ∀ c ∈ gap, isBlank c)
    (solid : isBlank d = false) (stop : isBareKey d = false) (noDot : d ≠ '.') :
    key (name.toList ++ (gap ++ d :: rest)) = some ({ groups := [], name }, d :: rest) := by
  have part : keyPart (name.toList ++ (gap ++ d :: rest)) = some (name, d :: rest) :=
    keyPart_append bare gaps solid stop
  have peeked : Scan.peek (d :: rest) = some (some d, d :: rest) := rfl
  have parts : keyParts (78 + 1) (name.toList ++ (gap ++ d :: rest)) =
      some ([name], d :: rest) := by
    rw [keyParts, Scan.bind_some part, Scan.bind_some peeked]
    simp [noDot]
    rfl
  exact Scan.bind_some parts

theorem lineRest_lineEnd : lineRest ('\n' :: rest) = some ((), rest) := by
  have begun : blanks ('\n' :: rest) = some ((), '\n' :: rest) :=
    blanks_solid rfl
  have noComment : comment ('\n' :: rest) = none := rfl
  rw [lineRest, Scan.bind_some begun, Scan.bind_some (Scan.optional_none noComment)]
  rfl

end

/-- A text that is read as the value, and that does not look like the text of a list or a table. -/
structure Legible (v : Value) (text : List Char) : Prop where
  opening : ∃ c cs, text = c :: cs ∧ isBlank c = false ∧ c ≠ '[' ∧ c ≠ '{'
  takes : scalar.Takes text v

theorem Legible.value {v : Value} {text : List Char} (legible : Legible v text)
    (fuel levels : Nat) : (value fuel (levels + 1)).Takes text v := by
  intro rest
  obtain ⟨c, cs, rfl, -, noList, noTable⟩ := legible.opening
  have peeked : Scan.peek (c :: cs ++ '\n' :: rest) = some (some c, c :: cs ++ '\n' :: rest) := rfl
  rw [Toml.value, Scan.bind_some peeked]
  have read := legible.takes rest
  simpa [noList, noTable] using read

theorem legible_text (s : String) : Legible (.text s) (Text.render s).toList := by
  obtain ⟨q, cs, begun, isQuote⟩ : ∃ q cs, (Text.render s).toList = q :: cs ∧
      (q = '"' ∨ q = '\x27') := by
    unfold Text.render
    dsimp only
    split_ifs <;> simp [Text.manyLined, Text.quoted, List.replicate_succ]
  refine ⟨⟨q, cs, begun, ?_⟩, fun rest => ?_⟩
  · rcases isQuote with rfl | rfl <;> decide
  · have read := Text.takes_render s rest
    have peeked : Scan.peek (q :: cs ++ '\n' :: rest) =
        some (some q, q :: cs ++ '\n' :: rest) := rfl
    rw [begun] at read ⊢
    rw [scalar, Scan.bind_some peeked]
    rcases isQuote with rfl | rfl <;> exact Scan.bind_some read

theorem legible_of_numeral {v : Value} {text : List Char}
    (opening : ∃ c cs, text = c :: cs ∧ (isDigit c ∨ c = '-')) (takes : numeral.Takes text v) :
    Legible v text := by
  obtain ⟨c, cs, rfl, numeric⟩ := opening
  have other : isBlank c = false ∧ c ≠ '[' ∧ c ≠ '{' ∧ c ≠ '"' ∧ c ≠ '\x27' ∧ c ≠ 't' ∧
      c ≠ 'f' := by
    rcases numeric with digit | rfl
    · refine ⟨?_, ?_, ?_, ?_, ?_, ?_, ?_⟩
      · refine eq_false_of_ne_true fun blank => ?_
        have : c = ' ' ∨ c = '\t' := by simpa [isBlank] using blank
        rcases this with rfl | rfl <;> cases digit
      all_goals
        rintro rfl
        cases digit
    · decide
  obtain ⟨solid, noList, noTable, noDouble, noSingle, noTrue, noFalse⟩ := other
  refine ⟨⟨c, cs, rfl, solid, noList, noTable⟩, fun rest => ?_⟩
  have peeked : Scan.peek (c :: cs ++ '\n' :: rest) = some (some c, c :: cs ++ '\n' :: rest) := rfl
  have read := takes rest
  rw [scalar, Scan.bind_some peeked]
  simpa [noDouble, noSingle, noTrue, noFalse] using read

theorem legible_integer {n : Int} (fits : fitsInt64 n) :
    Legible (.integer n) (integerText n).toList := by
  refine legible_of_numeral ?_ (takes_integer fits)
  rw [toList_integerText, ← List.append_nil (Nat.toDigits ..)]
  exact signed_eq_cons ..

theorem legible_pointed (negative : Bool) (n : Nat) {ds : List Char} (digits : ∀ c ∈ ds, isDigit c)
    (nonempty : ds ≠ []) (fits : (pointed negative n ds).isInfinite = false) :
    Legible (.float (pointed negative n ds))
      (signed negative (Nat.toDigits 10 n ++ '.' :: ds)) := by
  exact legible_of_numeral (signed_eq_cons negative n)
    (takes_pointed negative n digits nonempty fits)

theorem legible_boolean (b : Bool) :
    Legible (.boolean b) (if b then "true" else "false").toList := by
  cases b with
  | true => exact ⟨⟨'t', _, rfl, by decide⟩, fun _ => rfl⟩
  | false => exact ⟨⟨'f', _, rfl, by decide⟩, fun _ => rfl⟩

/-- The lines that hold the statement, or that hold none. -/
structure Spells (cs : List Char) (s : Option Statement) : Prop where
  nonempty : cs ≠ []
  read (fuel : Nat) (rest : List Char) : statement fuel (cs ++ rest) = some (s, rest)

theorem spells_nothing : Spells ['\n'] none where
  nonempty := List.cons_ne_nil _ _
  read fuel rest := by
    have begun : blanks ('\n' :: rest) = some ((), '\n' :: rest) :=
      blanks_solid rfl
    have peeked : Scan.peek ('\n' :: rest) = some (some '\n', '\n' :: rest) := rfl
    rw [List.singleton_append, statement, Scan.bind_some begun, Scan.bind_some peeked]
    exact Scan.bind_some lineRest_lineEnd

theorem spells_header {name : String} (bare : Bare name) :
    Spells ('[' :: (name.toList ++ [']', '\n'])) (some (.tableHeader { groups := [], name })) where
  nonempty := List.cons_ne_nil _ _
  read fuel rest := by
    have text : '[' :: (name.toList ++ [']', '\n']) ++ rest =
        '[' :: (name.toList ++ ']' :: '\n' :: rest) := by simp
    have begun : blanks ('[' :: (name.toList ++ ']' :: '\n' :: rest)) =
        some ((), '[' :: (name.toList ++ ']' :: '\n' :: rest)) :=
      blanks_solid rfl
    have peeked : Scan.peek ('[' :: (name.toList ++ ']' :: '\n' :: rest)) =
        some (some '[', '[' :: (name.toList ++ ']' :: '\n' :: rest)) := rfl
    have opened : Scan.char '[' ('[' :: (name.toList ++ ']' :: '\n' :: rest)) =
        some ((), name.toList ++ ']' :: '\n' :: rest) := rfl
    have closed : Scan.char ']' (']' :: '\n' :: rest) = some ((), '\n' :: rest) := rfl
    have named : key (name.toList ++ ']' :: '\n' :: rest) =
        some ({ groups := [], name }, ']' :: '\n' :: rest) :=
      key_append bare [] (fun _ => nofun) rfl rfl (by decide)
    obtain ⟨c, cs, front, first⟩ := bare.eq_cons
    have next : Scan.peek (name.toList ++ ']' :: '\n' :: rest) =
        some (some c, name.toList ++ ']' :: '\n' :: rest) := by
      rw [front]
      rfl
    have single : ¬ some c = some '[' := by
      rintro ⟨⟩
      cases first
    have read : header ('[' :: (name.toList ++ ']' :: '\n' :: rest)) =
        some (.tableHeader { groups := [], name }, '\n' :: rest) := by
      rw [header, Scan.bind_some opened, Scan.bind_some next, if_neg single, Scan.bind_some named,
        Scan.bind_some closed]
      rfl
    rw [text, statement, Scan.bind_some begun, Scan.bind_some peeked]
    exact (Scan.bind_some read).trans (Scan.bind_some lineRest_lineEnd)

theorem statement_cons {c : Char} (first : isBareKey c) (cs : List Char) (fuel : Nat) :
    statement fuel (c :: cs) = (do
      let (k, v) ← pairOf (value fuel (depthLimit - 1))
      lineRest
      return some (.pair k v) : Scan (Option Statement)) (c :: cs) := by
  have begun : blanks (c :: cs) = some ((), c :: cs) :=
    blanks_solid (isBlank_of_isBareKey first)
  have peeked : Scan.peek (c :: cs) = some (some c, c :: cs) := rfl
  have other : c ≠ '#' ∧ c ≠ '\n' ∧ c ≠ '\x0d' ∧ c ≠ '[' := by
    refine ⟨?_, ?_, ?_, ?_⟩ <;> (rintro rfl; cases first)
  rw [statement, Scan.bind_some begun, Scan.bind_some peeked]
  simp [other]

theorem spells_pair {name : String} {v : Value} {text : List Char} (bare : Bare name)
    (legible : Legible v text) :
    Spells (name.toList ++ (' ' :: '=' :: ' ' :: (text ++ ['\n'])))
      (some (.pair { groups := [], name } v)) where
  nonempty := by simp
  read fuel rest := by
    obtain ⟨c, cs, front, first⟩ := bare.eq_cons
    obtain ⟨d, ds, opening, solid, -⟩ := legible.opening
    have whole : name.toList ++ (' ' :: '=' :: ' ' :: (text ++ ['\n'])) ++ rest =
        name.toList ++ ' ' :: '=' :: ' ' :: (text ++ '\n' :: rest) := by simp
    have named : key (name.toList ++ ' ' :: '=' :: ' ' :: (text ++ '\n' :: rest)) =
        some ({ groups := [], name }, '=' :: ' ' :: (text ++ '\n' :: rest)) :=
      key_append bare [' '] (by simp [isBlank]) rfl rfl (by decide)
    have equals : Scan.char '=' ('=' :: ' ' :: (text ++ '\n' :: rest)) =
        some ((), ' ' :: (text ++ '\n' :: rest)) := rfl
    have spaced : blanks (' ' :: (text ++ '\n' :: rest)) = some ((), text ++ '\n' :: rest) := by
      rw [opening]
      exact blanks_append [' '] (by simp [isBlank]) solid
    have read : pairOf (value fuel (78 + 1)) (name.toList ++ ' ' :: '=' :: ' ' ::
        (text ++ '\n' :: rest)) = some (({ groups := [], name }, v), '\n' :: rest) := by
      rw [pairOf, Scan.bind_some named, Scan.bind_some equals, Scan.bind_some spaced,
        Scan.bind_some (legible.value fuel 78 rest)]
      rfl
    have pair := statement_cons first (cs ++ ' ' :: '=' :: ' ' :: (text ++ '\n' :: rest)) fuel
    rw [whole]
    rw [← List.cons_append, ← front] at pair
    rw [pair]
    exact (Scan.bind_some read).trans (Scan.bind_some lineRest_lineEnd)

inductive Lines : List Char → List Statement → Prop
  | nil : Lines [] []
  | cons {cs cs' : List Char} {s : Option Statement} {ss : List Statement} :
      Spells cs s → Lines cs' ss → Lines (cs ++ cs') (s.toList ++ ss)

namespace Lines
variable {cs cs' : List Char} {ss ss' : List Statement}

theorem append (first : Lines cs ss) (later : Lines cs' ss') : Lines (cs ++ cs') (ss ++ ss') := by
  induction first with
  | nil => exact later
  | cons spells _ ih =>
    rw [List.append_assoc, List.append_assoc]
    exact .cons spells ih

theorem read (lines : Lines cs ss) {bound : Nat} (enough : cs.length < bound) (fuel : Nat) :
    statements fuel bound cs = some ss := by
  induction lines generalizing bound with
  | nil => rw [statements]
  | @cons cs cs' s ss spells _ ih =>
    obtain ⟨bound, rfl⟩ := Nat.exists_eq_add_one_of_ne_zero (Nat.ne_zero_of_lt enough)
    obtain ⟨c, tail, front⟩ := List.exists_cons_of_ne_nil spells.nonempty
    have shorter : cs'.length < bound := by
      simp only [front, List.length_append, List.length_cons] at enough
      omega
    have first := spells.read fuel cs'
    rw [front, List.cons_append] at first ⊢
    rw [statements]
    · simp [first, ih shorter]
    · simp

end Lines

def Section.statements (s : Section) : List Statement :=
  .tableHeader { groups := [], name := s.name } ::
    s.fields.map fun (key, v) => .pair { groups := [], name := key } v

structure Section.Legible (s : Section) : Prop where
  bare : Bare s.name
  fields : ∀ p ∈ s.fields, Bare p.1 ∧
    ∀ text, scalarText? p.2 = some text → Toml.Legible p.2 text.toList

theorem exists_of_mapM_cons {α β : Type} {f : α → Option β} {a : α} {as : List α} {bs : List β}
    (mapped : (a :: as).mapM f = some bs) :
    ∃ b later, f a = some b ∧ as.mapM f = some later ∧ b :: later = bs := by
  cases first : f a with
  | none => simp [List.mapM_cons, first] at mapped
  | some b =>
    cases others : as.mapM f with
    | none => simp [List.mapM_cons, first, others] at mapped
    | some later =>
      exact ⟨b, later, rfl, rfl, by simpa [List.mapM_cons, first, others] using mapped⟩

theorem exists_mapM {α β : Type} {f : α → Option β} {as : List α}
    (each : ∀ a ∈ as, ∃ b, f a = some b) : ∃ bs, as.mapM f = some bs := by
  induction as with
  | nil => exact ⟨[], rfl⟩
  | cons a as ih =>
    rw [List.forall_mem_cons] at each
    obtain ⟨⟨b, first⟩, others⟩ := each
    obtain ⟨bs, later⟩ := ih others
    exact ⟨b :: bs, by simp [List.mapM_cons, first, later]⟩

theorem exists_write? {sections : List Section}
    (each : ∀ s ∈ sections, ∀ p ∈ s.fields, ∃ text, scalarText? p.2 = some text) :
    ∃ text, write? sections = some text := by
  have parts : ∀ s ∈ sections, ∃ text, s.text? = some text := by
    intro s mem
    have pairs : ∀ p ∈ s.fields, ∃ text, pairText? p = some text := by
      intro p field
      obtain ⟨text, value⟩ := each s mem p field
      exact ⟨_, Option.map_eq_some_iff.mpr ⟨text, value, rfl⟩⟩
    obtain ⟨texts, written⟩ := exists_mapM pairs
    exact ⟨_, Option.map_eq_some_iff.mpr ⟨texts, written, rfl⟩⟩
  obtain ⟨texts, written⟩ := exists_mapM parts
  exact ⟨_, Option.map_eq_some_iff.mpr ⟨texts, written, rfl⟩⟩

theorem lines_of_pairs {fields : List (String × Value)} {texts : List String}
    (legible : ∀ p ∈ fields,
      Bare p.1 ∧ ∀ text, scalarText? p.2 = some text → Legible p.2 text.toList)
    (written : fields.mapM pairText? = some texts) :
    Lines (String.join texts).toList
      (fields.map fun (key, v) => .pair { groups := [], name := key } v) := by
  induction fields generalizing texts with
  | nil =>
    cases written
    exact .nil
  | cons p fields ih =>
    obtain ⟨key, v⟩ := p
    rw [List.forall_mem_cons] at legible
    obtain ⟨⟨bare, read⟩, legible⟩ := legible
    obtain ⟨line, later, first, others, rfl⟩ := exists_of_mapM_cons written
    obtain ⟨text, value, rfl⟩ := Option.map_eq_some_iff.mp first
    have lines := Lines.cons (spells_pair bare (read text value)) (ih legible others)
    simpa using lines

theorem Section.lines {s : Section} {text : String} (legible : s.Legible)
    (written : s.text? = some text) : Lines text.toList s.statements := by
  obtain ⟨texts, pairs, rfl⟩ := Option.map_eq_some_iff.mp written
  have lines := Lines.cons (spells_header legible.bare) (lines_of_pairs legible.fields pairs)
  simpa [Section.statements] using lines

theorem lines_of_sections {sections : List Section} {texts : List String}
    (legible : ∀ s ∈ sections, s.Legible) (written : sections.mapM Section.text? = some texts) :
    Lines ("\n".intercalate texts).toList (sections.flatMap Section.statements) := by
  induction sections generalizing texts with
  | nil =>
    cases written
    exact .nil
  | cons s sections ih =>
    rw [List.forall_mem_cons] at legible
    obtain ⟨text, later, first, others, rfl⟩ := exists_of_mapM_cons written
    have ahead := Section.lines legible.1 first
    have behind := ih legible.2 others
    cases later with
    | nil =>
      have none : some [] = some (sections.flatMap Section.statements) :=
        behind.read Nat.one_pos 0
      rw [List.flatMap_cons, ← Option.some.inj none, List.append_nil]
      simpa using ahead
    | cons text' later =>
      have lines := ahead.append (Lines.cons spells_nothing behind)
      simpa using lines

namespace Fields
variable {key : String} {f : Option Entry → Option Entry} {fields later : Fields}

theorem alter_append (new : key ∉ fields.map Prod.fst) :
    alter key f (fields ++ later) = (alter key f later).map (fields ++ ·) := by
  induction fields with
  | nil => simp
  | cons p fields ih =>
    rw [List.map_cons, List.mem_cons, not_or] at new
    have ne : p.1 ≠ key := new.1 ∘ Eq.symm
    rw [List.cons_append, alter, if_neg ne, ih new.2]
    cases alter key f later <;> rfl

theorem alter_last (new : key ∉ fields.map Prod.fst) (e : Entry) :
    alter key f (fields ++ [(key, e)]) = (f (some e)).map fun e => fields ++ [(key, e)] := by
  rw [alter_append new, alter, if_pos rfl]
  cases f (some e) <;> rfl

theorem alter_new (new : key ∉ fields.map Prod.fst) :
    alter key f fields = (f none).map fun e => fields ++ [(key, e)] := by
  rw [← List.append_nil fields, alter_append new, alter]
  cases f none <;> simp

end Fields

def settled (p : String × Value) : String × Entry := (p.1, .value p.2)

theorem add_header {done : Fields} {path : List String} {name : String}
    (new : name ∉ done.map Prod.fst) :
    Draft.add { fields := done, path } (.tableHeader { groups := [], name }) =
      some { fields := done ++ [(name, .table .header [])], path := [name] } := by
  simp [Draft.add, Fields.along, Fields.alter_new new, Fields.openTable]

theorem add_pair {done inner : Fields} {name key : String} {v : Value}
    (new : name ∉ done.map Prod.fst) (newKey : key ∉ inner.map Prod.fst) :
    Draft.add { fields := done ++ [(name, .table .header inner)], path := [name] }
        (.pair { groups := [], name := key } v) =
      some { fields := done ++ [(name, .table .header (inner ++ [(key, .value v)]))],
             path := [name] } := by
  simp [Draft.add, Fields.along, Fields.alter_last new, Fields.assign, Fields.alter_new newKey]

theorem add_pairs {done inner : Fields} {name : String} {pairs : List (String × Value)}
    (new : name ∉ done.map Prod.fst) (newKeys : ∀ p ∈ pairs, p.1 ∉ inner.map Prod.fst)
    (distinct : (pairs.map Prod.fst).Nodup) :
    (pairs.map fun (key, v) => Statement.pair { groups := [], name := key } v).foldlM Draft.add
        { fields := done ++ [(name, .table .header inner)], path := [name] } =
      some { fields := done ++ [(name, .table .header (inner ++ pairs.map settled))],
             path := [name] } := by
  induction pairs generalizing inner with
  | nil => simp
  | cons p pairs ih =>
    rw [List.forall_mem_cons] at newKeys
    rw [List.map_cons, List.nodup_cons] at distinct
    have apart : ∀ q ∈ pairs, q.1 ∉ (inner ++ [settled p]).map Prod.fst := by
      intro q mem
      have other : q.1 ≠ p.1 := by
        intro same
        exact distinct.1 (same ▸ List.mem_map_of_mem mem)
      simpa [settled, other] using newKeys.2 q mem
    have later := ih apart distinct.2
    rw [List.append_assoc, List.singleton_append] at later
    rw [List.map_cons, List.foldlM_cons, add_pair new newKeys.1]
    exact later

def Section.entry (s : Section) : String × Entry :=
  (s.name, .table .header (s.fields.map settled))

theorem add_section {done : Fields} {path : List String} {s : Section}
    (new : s.name ∉ done.map Prod.fst) (distinct : (s.fields.map Prod.fst).Nodup) :
    s.statements.foldlM Draft.add { fields := done, path } =
      some { fields := done ++ [s.entry], path := [s.name] } := by
  rw [Section.statements, List.foldlM_cons, add_header new]
  have newKeys : ∀ p ∈ s.fields, p.1 ∉ ([] : Fields).map Prod.fst := fun _ _ => List.not_mem_nil
  exact add_pairs new newKeys distinct

/-- Sections of different names, each with different keys. -/
structure Distinct (sections : List Section) : Prop where
  names : (sections.map Section.name).Nodup
  keys : ∀ s ∈ sections, (s.fields.map Prod.fst).Nodup

theorem add_sections {done : Fields} (path : List String) {sections : List Section}
    (new : ∀ s ∈ sections, s.name ∉ done.map Prod.fst) (distinct : Distinct sections) :
    ∃ path', (sections.flatMap Section.statements).foldlM Draft.add { fields := done, path } =
      some { fields := done ++ sections.map Section.entry, path := path' } := by
  induction sections generalizing done path with
  | nil => exact ⟨path, by simp⟩
  | cons s sections ih =>
    obtain ⟨names, keys⟩ := distinct
    rw [List.forall_mem_cons] at new keys
    rw [List.map_cons, List.nodup_cons] at names
    have apart : ∀ s' ∈ sections, s'.name ∉ (done ++ [s.entry]).map Prod.fst := by
      intro s' mem
      have other : s'.name ≠ s.name := by
        intro same
        exact names.1 (same ▸ List.mem_map_of_mem mem)
      simpa [Section.entry, other] using new.2 s' mem
    obtain ⟨path', later⟩ := ih [s.name] apart ⟨names.2, keys.2⟩
    rw [List.append_assoc, List.singleton_append] at later
    refine ⟨path', ?_⟩
    rw [List.flatMap_cons, List.foldlM_append, add_section new.1 keys.1]
    exact later

theorem fieldValues_settled (fields : List (String × Value)) :
    fieldValues (fields.map settled) = fields := by
  induction fields with
  | nil => rfl
  | cons p fields ih => rw [List.map_cons, settled, fieldValues, ih, Entry.toValue]

theorem fieldValues_sections (sections : List Section) :
    fieldValues (sections.map Section.entry) = sections.map fun s => (s.name, .table s.fields) := by
  induction sections with
  | nil => rfl
  | cons s sections ih =>
    rw [List.map_cons, Section.entry, fieldValues, ih, Entry.toValue, fieldValues_settled]
    rfl

theorem assemble?_sections {sections : List Section} (distinct : Distinct sections) :
    assemble? (sections.flatMap Section.statements) =
      some (.table (sections.map fun s => (s.name, .table s.fields))) := by
  have new : ∀ s ∈ sections, s.name ∉ ([] : Fields).map Prod.fst := fun _ _ => List.not_mem_nil
  obtain ⟨path, filled⟩ := add_sections [] new distinct
  rw [assemble?, filled, ← fieldValues_sections]
  rfl

theorem Section.toList_text {s : Section} {text : String} (written : s.text? = some text) :
    ∃ cs, text.toList = '[' :: cs := by
  obtain ⟨texts, -, rfl⟩ := Option.map_eq_some_iff.mp written
  exact ⟨s.name.toList ++ (']' :: '\n' :: texts.flatMap String.toList), by simp⟩

theorem skipMark_intercalate {sections : List Section} {texts : List String}
    (written : sections.mapM Section.text? = some texts) :
    skipMark ("\n".intercalate texts).toList = ("\n".intercalate texts).toList := by
  cases sections with
  | nil =>
    cases written
    rfl
  | cons s sections =>
    obtain ⟨text, later, first, -, rfl⟩ := exists_of_mapM_cons written
    obtain ⟨cs, begun⟩ := Section.toList_text first
    cases later <;> simp [begun, skipMark]

/-- A document that is written is read as the tables it was written for. -/
theorem read?_of_write? {sections : List Section} {text : String}
    (written : write? sections = some text) (legible : ∀ s ∈ sections, s.Legible)
    (distinct : Distinct sections) :
    read? text = some (.table (sections.map fun s => (s.name, .table s.fields))) := by
  obtain ⟨texts, parts, rfl⟩ := Option.map_eq_some_iff.mp written
  have read := (lines_of_sections legible parts).read (Nat.lt_succ_self _)
  rw [read?, skipMark_intercalate parts]
  exact (congrArg (Option.bind · assemble?) (read _)).trans (assemble?_sections distinct)

end FollowerSync.Document.Toml
