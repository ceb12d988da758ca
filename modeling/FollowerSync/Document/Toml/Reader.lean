import FollowerSync.Document.Toml.Fields
import FollowerSync.Document.Toml.Number

/-!
# Reading a settings document

The text is taken apart into statements, a line or more each: headers of tables, and keys with
their values. Lists and tables in braces may be nested, and keys dotted, up to a depth.
-/

set_option autoImplicit false

namespace FollowerSync.Document.Toml

/-- Keys of this many parts, and values nested this deep, are refused. -/
def depthLimit : Nat := 80

def isBareKey (c : Char) : Bool := c.isAlphanum || c = '-' || c = '_'

def keyPart : Scan String := do
  blanks
  let part ← match ← Scan.optional Text.line with
    | some part => pure part
    | none => do
      let part ← Scan.takeWhile isBareKey
      if part.isEmpty then failure else pure part
  blanks
  return .ofList part

def keyParts : Nat → Scan (List String)
  | 0 => failure
  | fuel + 1 => do
    let part ← keyPart
    match ← Scan.peek with
    | some '.' =>
      Scan.char '.'
      return part :: (← keyParts fuel)
    | _ => return [part]

def key : Scan Key := do
  let parts ← keyParts (depthLimit - 1)
  match parts.getLast? with
  | some name => return { groups := parts.dropLast, name }
  | none => failure

def pairOf (value : Scan Value) : Scan (Key × Value) := do
  let k ← key
  Scan.char '='
  blanks
  return (k, ← value)

def listOf (value : Scan Value) (fuel : Nat) : Scan Value := do
  Scan.char '['
  let item := do
    spacing fuel
    let v ← value
    spacing fuel
    return v
  let items ← match ← Scan.optional (Scan.commaSeparated item fuel) with
    | some items => do
      let _ ← Scan.optional (Scan.char ',')
      pure items
    | none => pure []
  spacing fuel
  Scan.char ']'
  return .list items

def tableOf (value : Scan Value) (fuel : Nat) : Scan Value := do
  Scan.char '{'
  let pair := do
    let p ← pairOf value
    blanks
    return p
  let pairs := (← Scan.optional (Scan.commaSeparated pair fuel)).getD []
  blanks
  Scan.char '}'
  match inlineTable? pairs with
  | some v => return v
  | none => failure

def scalar : Scan Value := do
  match ← Scan.peek with
  | some '"' | some '\x27' => return .text (← Text.scan)
  | some 't' =>
    Scan.word "true"
    return .boolean true
  | some 'f' =>
    Scan.word "false"
    return .boolean false
  | _ => numeral

/-- A value with so many levels of brackets and braces at most. The fuel bounds the number of
parts on each level. -/
def value (fuel : Nat) : Nat → Scan Value
  | 0 => scalar
  | levels + 1 => do
    match ← Scan.peek with
    | some '[' => listOf (value fuel levels) fuel
    | some '{' => tableOf (value fuel levels) fuel
    | _ => scalar

def header : Scan Statement := do
  Scan.char '['
  if (← Scan.peek) = some '[' then
    Scan.char '['
    let k ← key
    Scan.word "]]"
    return .rowHeader k
  else
    let k ← key
    Scan.char ']'
    return .tableHeader k

def statement (fuel : Nat) : Scan (Option Statement) := do
  blanks
  match ← Scan.peek with
  | none => return none
  | some '#' | some '\n' | some '\x0d' =>
    lineRest
    return none
  | some '[' =>
    let s ← header
    lineRest
    return some s
  | some _ =>
    let (k, v) ← pairOf (value fuel (depthLimit - 1))
    lineRest
    return some (.pair k v)

def statements (fuel : Nat) : Nat → List Char → Option (List Statement)
  | _, [] => some []
  | 0, _ => none
  | lines + 1, cs => do
    let (s, rest) ← statement fuel cs
    let later ← statements fuel lines rest
    return s.toList ++ later

def skipMark : List Char → List Char
  | '\ufeff' :: cs => cs
  | cs => cs

def read? (text : String) : Option Value := do
  let cs := skipMark text.toList
  assemble? (← statements (cs.length + 1) (cs.length + 1) cs)

end FollowerSync.Document.Toml
