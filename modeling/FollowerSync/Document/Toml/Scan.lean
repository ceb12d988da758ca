set_option autoImplicit false

namespace FollowerSync.Document.Toml

abbrev Scan := StateT (List Char) Option

namespace Scan

def peek : Scan (Option Char) := fun cs => some (cs.head?, cs)

def char (c : Char) : Scan Unit
  | d :: cs => if d = c then some ((), cs) else none
  | [] => none

def satisfying (p : Char → Bool) : Scan Char
  | c :: cs => if p c then some (c, cs) else none
  | [] => none

def takeWhile (p : Char → Bool) : Scan (List Char) := fun cs => some (cs.span p)

def word (w : String) : Scan Unit := fun cs =>
  if w.toList.isPrefixOf cs then some ((), cs.drop w.toList.length) else none

def optional {α : Type} (s : Scan α) : Scan (Option α) := fun cs =>
  match s cs with
  | some (a, rest) => some (some a, rest)
  | none => some (none, cs)

def commaSeparated {α : Type} (piece : Scan α) : Nat → Scan (List α)
  | 0 => failure
  | fuel + 1 => do
    let first ← piece
    match ← peek with
    | some ',' =>
      let before ← get
      char ','
      match ← optional (commaSeparated piece fuel) with
      | some later => return first :: later
      | none =>
        set before
        return [first]
    | _ => return [first]

end Scan

def isBlank (c : Char) : Bool := c = ' ' || c = '\t'

def isPlain (c : Char) : Bool := c = '\t' || (' ' ≤ c && c ≠ '\x7f')

def blanks : Scan Unit := fun cs => some ((), cs.dropWhile isBlank)

def lineFeed : Scan Unit
  | '\n' :: cs => some ((), cs)
  | '\x0d' :: '\n' :: cs => some ((), cs)
  | _ => none

def comment : Scan Unit
  | '#' :: cs => some ((), cs.dropWhile isPlain)
  | _ => none

def lineEnd : Scan Unit
  | [] => some ((), [])
  | cs => lineFeed cs

def lineRest : Scan Unit := do
  blanks
  let _ ← Scan.optional comment
  lineEnd

def spacing : Nat → Scan Unit
  | 0 => failure
  | fuel + 1 => do
    blanks
    match ← Scan.peek with
    | some '#' =>
      comment
      lineFeed
      spacing fuel
    | some '\n' | some '\x0d' =>
      lineFeed
      spacing fuel
    | _ => return

end FollowerSync.Document.Toml
