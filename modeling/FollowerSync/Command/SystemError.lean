set_option autoImplicit false

namespace FollowerSync.Command.SystemError

def texts : List (Nat × String) :=
  [(1, "Operation not permitted"), (2, "No such file or directory"), (5, "Input/output error"),
    (13, "Permission denied"), (17, "File exists"), (20, "Not a directory"),
    (21, "Is a directory"), (22, "Invalid argument"), (24, "Too many open files"),
    (26, "Text file busy"), (27, "File too large"), (28, "No space left on device"),
    (30, "Read-only file system"), (32, "Broken pipe"), (36, "File name too long"),
    (40, "Too many levels of symbolic links"), (97, "Address family not supported by protocol"),
    (99, "Cannot assign requested address"), (100, "Network is down"),
    (101, "Network is unreachable"), (103, "Software caused connection abort"),
    (104, "Connection reset by peer"), (107, "Transport endpoint is not connected"),
    (110, "Connection timed out"), (111, "Connection refused"), (112, "Host is down"),
    (113, "No route to host")]

def lookupTexts : List (Nat × String) :=
  [(3001, "Temporary failure in name resolution"),
    (3004, "Non-recoverable failure in name resolution"),
    (3007, "No address associated with hostname"), (3008, "Name or service not known")]

/-- A number may also be given by its negative, which in 32 bits is a large number. -/
def number (code : UInt32) : Nat := if code < 0x80000000 then code.toNat else (-code).toNat

/-- The text for an error. `details` is what is said where the number is not known. -/
def text (code : UInt32) (details : String) : String :=
  let n := number code
  match lookupTexts.lookup n with
  | some reason => "failed to lookup address information: " ++ reason
  | none =>
    ((texts.lookup n).getD details) ++ " (os error " ++ toString n ++ ")"

end FollowerSync.Command.SystemError
