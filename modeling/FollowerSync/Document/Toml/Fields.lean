import FollowerSync.Document.Value

set_option autoImplicit false

namespace FollowerSync.Document.Toml

inductive Origin where
  | header
  | passage
  | dotted
  deriving DecidableEq

inductive Entry where
  | value (v : Value)
  | table (origin : Origin) (fields : List (String × Entry))
  | rows (tables : List (List (String × Entry)))

abbrev Fields := List (String × Entry)

mutual

def Entry.toValue : Entry → Value
  | .value v => v
  | .table _ fields => .table (fieldValues fields)
  | .rows tables => .list (rowValues tables)

def fieldValues : List (String × Entry) → List (String × Value)
  | [] => []
  | (key, entry) :: fields => (key, entry.toValue) :: fieldValues fields

def rowValues : List (List (String × Entry)) → List Value
  | [] => []
  | row :: rows => .table (fieldValues row) :: rowValues rows

end

namespace Fields

def alter (key : String) (f : Option Entry → Option Entry) : Fields → Option Fields
  | [] => do return [(key, ← f none)]
  | (k, entry) :: fields =>
    if k = key then do return (k, ← f (some entry)) :: fields
    else do return (k, entry) :: (← alter key f fields)

def alterLast (f : Fields → Option Fields) : List Fields → Option (List Fields)
  | [] => none
  | [row] => do return [← f row]
  | row :: rows => do return row :: (← alterLast f rows)

/-- Changes the table that a header's path leads to; tables on the way that are not there yet
come to be in passing. Through a list of tables the path leads into its last one. -/
def along (f : Fields → Option Fields) : List String → Fields → Option Fields
  | [], fields => f fields
  | key :: path, fields =>
    fields.alter key fun
      | none => (along f path []).map (.table .passage)
      | some (.table origin inner) => (along f path inner).map (.table origin)
      | some (.rows tables) => (alterLast (along f path) tables).map .rows
      | some (.value _) => none

/-- A table may be opened once, also when it came to be in passing before. -/
def openTable : Option Entry → Option Entry
  | none => some (.table .header [])
  | some (.table .passage inner) => some (.table .header inner)
  | _ => none

def openRow : Option Entry → Option Entry
  | none => some (.rows [[]])
  | some (.rows tables) => some (.rows (tables ++ [[]]))
  | _ => none

/-- Gives a dotted key its value. The tables on its way may not have a header of their own, and
the innermost one has to have come to be by a dotted key. -/
def assign (v : Value) : List String → String → Fields → Option Fields
  | [], key, fields =>
    fields.alter key fun
      | none => some (.value v)
      | some _ => none
  | [group], key, fields =>
    fields.alter group fun
      | none => (assign v [] key []).map (.table .dotted)
      | some (.table .dotted inner) => (assign v [] key inner).map (.table .dotted)
      | some _ => none
  | group :: path, key, fields =>
    fields.alter group fun
      | none => (assign v path key []).map (.table .dotted)
      | some (.table .header _) => none
      | some (.table origin inner) => (assign v path key inner).map (.table origin)
      | some (.rows tables) => (alterLast (assign v path key) tables).map .rows
      | some (.value _) => none

end Fields

structure Key where
  groups : List String
  name : String

def inlineTable? (pairs : List (Key × Value)) : Option Value := do
  let fields ← pairs.foldlM (fun fields (key, v) => Fields.assign v key.groups key.name fields) []
  return .table (fieldValues fields)

inductive Statement where
  | tableHeader (key : Key)
  | rowHeader (key : Key)
  | pair (key : Key) (v : Value)

/-- The fields so far, and the path of the table being filled. -/
structure Draft where
  fields : Fields := []
  path : List String := []

def Draft.add (draft : Draft) : Statement → Option Draft
  | .tableHeader key => do
    let fields ← draft.fields.along (Fields.alter key.name Fields.openTable) key.groups
    return { fields, path := key.groups ++ [key.name] }
  | .rowHeader key => do
    let fields ← draft.fields.along (Fields.alter key.name Fields.openRow) key.groups
    return { fields, path := key.groups ++ [key.name] }
  | .pair key v => do
    let fields ← draft.fields.along (Fields.assign v key.groups key.name) draft.path
    return { draft with fields }

def assemble? (statements : List Statement) : Option Value := do
  let draft ← statements.foldlM Draft.add {}
  return .table (fieldValues draft.fields)

end FollowerSync.Document.Toml
