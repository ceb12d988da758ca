import FollowerSync.Document.Toml.Scan

set_option autoImplicit false

namespace FollowerSync.Document.Toml

def hexDigit? (c : Char) : Option Nat :=
  if '0' ≤ c ∧ c ≤ '9' then some (c.toNat - '0'.toNat)
  else if 'a' ≤ c ∧ c ≤ 'f' then some (c.toNat - 'a'.toNat + 10)
  else if 'A' ≤ c ∧ c ≤ 'F' then some (c.toNat - 'A'.toNat + 10)
  else none

def charOfHex? (ds : List Char) : Option Char := do
  let n ← ds.foldlM (fun n d => return 16 * n + (← hexDigit? d)) 0
  if n.isValidChar then return .ofNat n else none

def escapes : List (Char × Char) :=
  [('b', '\x08'), ('t', '\t'), ('n', '\n'), ('f', '\x0c'), ('r', '\x0d'), ('"', '"'),
    ('\\', '\\')]

def escape? : Scan Char
  | 'u' :: a :: b :: c :: d :: cs => do return (← charOfHex? [a, b, c, d], cs)
  | 'U' :: a :: b :: c :: d :: e :: f :: g :: h :: cs => do
    return (← charOfHex? [a, b, c, d, e, f, g, h], cs)
  | c :: cs => do return (← escapes.lookup c, cs)
  | [] => none

def prepend (c : Char) (rest : Option (List Char × List Char)) : Option (List Char × List Char) :=
  rest.map fun (body, cs) => (c :: body, cs)

namespace Text

def basicBody : Nat → Scan (List Char)
  | 0, _ => none
  | _, [] => none
  | fuel + 1, c :: cs =>
    if c = '"' then some ([], cs)
    else if c = '\\' then
      match escape? cs with
      | some (e, cs) => prepend e (basicBody fuel cs)
      | none => none
    else if isPlain c then prepend c (basicBody fuel cs)
    else none

def literalBody : Scan (List Char)
  | [] => none
  | c :: cs =>
    if c = '\x27' then some ([], cs)
    else if isPlain c then prepend c (literalBody cs)
    else none

def quoteRun (quote : Char) (cs : List Char) : Nat := (cs.takeWhile (· = quote)).length

/-- At a run of quotes in a text over several lines: one or two stand for themselves; up to two
may stand before the three that close the text. -/
def closing? (quote : Char) (cs : List Char) : Option (List Char × List Char) :=
  let run := quoteRun quote cs
  if 3 ≤ run ∧ run ≤ 5 then some (List.replicate (run - 3) quote, cs.drop run) else none

/-- Where a scan stands in a text over several lines. -/
inductive Place where
  | inText
  /-- After a backslash and blanks: the line has to end. -/
  | joining
  /-- After such a line end: blanks and line ends are left out. -/
  | joined

def manyBasicBody : Nat → Place → Scan (List Char)
  | 0, _, _ => none
  | _, _, [] => none
  | fuel + 1, .joining, c :: cs =>
    if isBlank c then manyBasicBody fuel .joining cs
    else
      match lineFeed (c :: cs) with
      | some (_, cs) => manyBasicBody fuel .joined cs
      | none => none
  | fuel + 1, place, c :: cs =>
    let left := match place with
      | .joined => true
      | _ => false
    match lineFeed (c :: cs) with
    | some (_, cs) =>
      if left then manyBasicBody fuel .joined cs else prepend '\n' (manyBasicBody fuel .inText cs)
    | none =>
      if left && isBlank c then manyBasicBody fuel .joined cs
      else if c = '"' then
        if 3 ≤ quoteRun '"' (c :: cs) then closing? '"' (c :: cs)
        else prepend '"' (manyBasicBody fuel .inText cs)
      else if c = '\\' then
        match escape? cs with
        | some (e, cs) => prepend e (manyBasicBody fuel .inText cs)
        | none => manyBasicBody fuel .joining cs
      else if isPlain c then prepend c (manyBasicBody fuel .inText cs)
      else none

def manyLiteralBody : Nat → Scan (List Char)
  | 0, _ => none
  | _, [] => none
  | fuel + 1, c :: cs =>
    match lineFeed (c :: cs) with
    | some (_, cs) => prepend '\n' (manyLiteralBody fuel cs)
    | none =>
      if c = '\x27' then
        if 3 ≤ quoteRun '\x27' (c :: cs) then closing? '\x27' (c :: cs)
        else prepend c (manyLiteralBody fuel cs)
      else if isPlain c then prepend c (manyLiteralBody fuel cs)
      else none

def skipLineFeed (cs : List Char) : List Char :=
  match lineFeed cs with
  | some (_, rest) => rest
  | none => cs

def line : Scan (List Char)
  | '"' :: cs => basicBody (cs.length + 1) cs
  | '\x27' :: cs => literalBody cs
  | _ => none

def scan : Scan String := fun cs => do
  let (body, rest) ← match cs with
    | '"' :: '"' :: '"' :: cs => manyBasicBody (cs.length + 1) .inText (skipLineFeed cs)
    | '\x27' :: '\x27' :: '\x27' :: cs => manyLiteralBody (cs.length + 1) (skipLineFeed cs)
    | cs => line cs
  return (.ofList body, rest)

/-! The writer's side. -/

def longestRun (quote : Char) : Nat → List Char → Nat
  | run, [] => run
  | run, c :: cs =>
    if c = quote then longestRun quote (run + 1) cs else max run (longestRun quote 0 cs)

def needsEscape (c : Char) : Bool := !isPlain c && c ≠ '\n'

def hexText (c : Char) : List Char :=
  let ds := (Nat.toDigits 16 c.toNat).map Char.toUpper
  List.replicate (4 - ds.length) '0' ++ ds

def escapeOf (c : Char) : List Char :=
  match escapes.find? (·.2 = c) with
  | some (letter, _) => ['\\', letter]
  | none => '\\' :: 'u' :: hexText c

/-- The body of a text in double quotes. `spare` quotes in a row may stand unescaped, and line
ends too if the text runs over several lines. -/
def escaped (manyLines : Bool) (spare : Nat) : Nat → List Char → List Char
  | _, [] => []
  | run, c :: cs =>
    if c = '"' then
      (if run < spare then [c] else escapeOf c) ++ escaped manyLines spare (run + 1) cs
    else
      (if c = '\n' ∧ manyLines then [c]
        else if c = '\n' ∨ c = '\t' ∨ c = '\\' ∨ needsEscape c then escapeOf c
        else [c]) ++
      escaped manyLines spare 0 cs

def quoted (quotes body : List Char) : String := .ofList (quotes ++ body ++ quotes)

def manyLined (quote : Char) (hasLines : Bool) (body : List Char) : String :=
  quoted (List.replicate 3 quote) ((if hasLines then ['\n'] else []) ++ body)

/-- A text in the first of its possible forms: double quotes without escapes but for the tab,
single quotes, three double quotes, three single quotes; else double quotes with escapes. -/
def render (s : String) : String :=
  let cs := s.toList
  let controls := cs.any needsEscape
  let backslashes := cs.contains '\\'
  let hasLines := cs.contains '\n'
  let doubles := longestRun '"' 0 cs
  let singles := longestRun '\x27' 0 cs
  if !controls && !backslashes && doubles = 0 && !hasLines then quoted ['"'] (escaped false 0 0 cs)
  else if !controls && singles = 0 && !hasLines then quoted ['\x27'] cs
  else if !controls && !backslashes && doubles ≤ 2 then
    manyLined '"' hasLines (escaped true 2 0 cs)
  else if !controls && singles ≤ 2 then manyLined '\x27' hasLines cs
  else if hasLines then manyLined '"' hasLines (escaped true 2 0 cs)
  else quoted ['"'] (escaped false 0 0 cs)

end Text
end FollowerSync.Document.Toml
