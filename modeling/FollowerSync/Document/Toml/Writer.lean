import FollowerSync.Document.Toml.Number
import FollowerSync.Numeric.Text

set_option autoImplicit false

namespace FollowerSync.Document.Toml
open Numeric

structure Section where
  name : String
  fields : List (String × Value)

def integerText (n : Int) : String := (if n < 0 then "-" else "") ++ digitsText n.natAbs

def scalarText? : Value → Option String
  | .text s => some (Text.render s)
  | .integer n => if fitsInt64 n then some (integerText n) else none
  | .float x => some x.settingText
  | .boolean b => some (if b then "true" else "false")
  | _ => none

def pairText? : String × Value → Option String
  | (name, v) => (scalarText? v).map fun t => name ++ " = " ++ t ++ "\n"

def Section.text? (s : Section) : Option String :=
  (s.fields.mapM pairText?).map fun lines => "[" ++ s.name ++ "]\n" ++ String.join lines

def write? (sections : List Section) : Option String :=
  (sections.mapM Section.text?).map ("\n".intercalate ·)

end FollowerSync.Document.Toml
