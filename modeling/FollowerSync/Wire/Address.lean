set_option autoImplicit false

namespace FollowerSync.Wire.Address

def ofEndpoint (endpoint : String) : String :=
  match endpoint.toList with
  | 't' :: 'c' :: 'p' :: ':' :: '/' :: '/' :: rest => .ofList rest
  | _ => endpoint

def parts? (address : String) : Option (String × String) :=
  let reversed := address.toList.reverse
  match reversed.dropWhile (· ≠ ':') with
  | [] => none
  | _ :: host => some (.ofList host.reverse, .ofList (reversed.takeWhile (· ≠ ':')).reverse)

/-- A host without the brackets that keep its colons apart from the last one. -/
def unbracketed (host : String) : String :=
  match host.toList with
  | '[' :: cs => if cs.getLast? = some ']' then .ofList cs.dropLast else host
  | _ => host

def number? (bound : Nat) (s : String) : Option Nat :=
  let ds := match s.toList with
    | '+' :: ds => ds
    | ds => ds
  if ds.isEmpty ∨ ds.any (fun c => !c.isDigit) then none
  else
    let n := ds.foldl (fun n c => 10 * n + (c.toNat - '0'.toNat)) 0
    if n < bound then some n else none

def complaint? (address : String) : Option String :=
  match parts? address with
  | none => some "invalid socket address"
  | some (_, service) =>
    match number? UInt16.size service with
    | none => some "invalid port value"
    | some _ => none

end FollowerSync.Wire.Address
