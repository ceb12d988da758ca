import FollowerSync.Fault
import FollowerSync.Numeric.Text

set_option autoImplicit false

namespace FollowerSync.Command
open Numeric

/-- A failure: what was tried, and the causes, the nearest first; none if they are left out. -/
structure Failure where
  headline : String
  causes : Option (List String) := some []
  deriving DecidableEq

namespace Failure

def indented (first next : String) (s : String) : String :=
  first ++ ("\n" ++ next).intercalate (s.splitOn "\n")

def causeLines : List String → List String
  | [cause] => [indented "    " "    " cause]
  | causes => causes.mapIdx fun i cause =>
    let n := digitsText i
    indented (String.ofList (List.replicate (5 - n.length) ' ') ++ n ++ ": ") "       " cause

def text (f : Failure) : String :=
  "Error: " ++ f.headline ++
    match f.causes with
    | none => ""
    | some [] => "\n"
    | some causes => "\n\nCaused by:\n" ++ "\n".intercalate (causeLines causes) ++ "\n"

end Failure

def causesOf : Fault → List String
  | .io reason => [(Fault.io reason).message, reason]
  | .serialization reason => [(Fault.serialization reason).message, reason]
  | fault => [fault.message]

/-- What was tried, failing for a fault. A document that cannot be read is not explained. -/
def failing (headline : String) : Fault → Failure
  | .configParse => { headline, causes := none }
  | fault => { headline, causes := some (causesOf fault) }

def jsonChar (c : Char) : List Char :=
  if c = '"' then ['\\', '"']
  else if c = '\\' then ['\\', '\\']
  else if c = '\x08' then ['\\', 'b']
  else if c = '\t' then ['\\', 't']
  else if c = '\n' then ['\\', 'n']
  else if c = '\x0c' then ['\\', 'f']
  else if c = '\x0d' then ['\\', 'r']
  else if c < ' ' then
    let ds := Nat.toDigits 16 c.toNat
    '\\' :: 'u' :: List.replicate (4 - ds.length) '0' ++ ds
  else [c]

def jsonString (s : String) : String := .ofList ('"' :: s.toList.flatMap jsonChar ++ ['"'])

def jsonObject (fields : List (String × String)) : String :=
  let lines := fields.map fun (name, value) => "  " ++ jsonString name ++ ": " ++ value
  "\x7b\n" ++ ",\n".intercalate lines ++ "\n\x7d"

end FollowerSync.Command
