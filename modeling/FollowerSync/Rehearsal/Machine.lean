import FollowerSync.Command.Run
import FollowerSync.Rehearsal.Network

set_option autoImplicit false

namespace FollowerSync.Rehearsal
open Wire

/-- What a path leads to, seen from the folder. -/
inductive Place where
  | folder
  | file (name : String)
  | nowhere (reading writing : String)

structure Machine where
  files : List (String × Bytes)
  network : Network
  said : List String := []
  line : Line := {}

namespace Machine

def noSuchFile : String := "No such file or directory (os error 2)"

def notFolder : String := "Not a directory (os error 20)"

def isFolder : String := "Is a directory (os error 21)"

def nameTooLong : String := "File name too long (os error 36)"

def content? (m : Machine) (name : String) : Option Bytes := m.files.lookup name

/-- Follows the parts of a path. What lies outside the folder is not known. -/
def locate (m : Machine) (path : String) : Place :=
  let parts := path.splitOn "/"
  if parts.any (255 < ·.utf8ByteSize) then .nowhere nameTooLong nameTooLong
  else
    match parts.filter (fun part => part ≠ "" ∧ part ≠ "."), path.startsWith "/" with
    | [], _ => .folder
    | _, true => .nowhere noSuchFile noSuchFile
    | [".."], false => .folder
    | [name], false =>
      let last := parts.getLast?
      if last ≠ some "" ∧ last ≠ some "." then .file name
      else if (m.content? name).isSome then .nowhere notFolder notFolder
      else .nowhere noSuchFile (if last = some "" then isFolder else noSuchFile)
    | first :: _, false =>
      let reason := if (m.content? first).isSome then notFolder else noSuchFile
      .nowhere reason reason

def read (m : Machine) (path : String) : Config.FileBytes :=
  match m.locate path with
  | .folder => .error isFolder
  | .nowhere reading _ => .error reading
  | .file name =>
    match m.content? name with
    | some bytes => .ok bytes
    | none => .error noSuchFile

def exists? (m : Machine) (path : String) : Bool :=
  match m.locate path with
  | .folder => true
  | .nowhere .. => false
  | .file name => (m.content? name).isSome

def write (m : Machine) (path : String) (bytes : Bytes) : Except String Machine :=
  match m.locate path with
  | .folder => .error isFolder
  | .nowhere _ writing => .error writing
  | .file name => .ok { m with files := m.files.filter (·.1 ≠ name) ++ [(name, bytes)] }

def answer : (c : Command.Call) → Machine → Machine × Option c.Reply
  | .readFile path, m => (m, some (m.read path))
  | .pathExists path, m => (m, some (m.exists? path))
  | .writeFile path text, m =>
    match m.write path text.toUTF8.data.toList with
    | .ok m => (m, some (.ok ()))
    | .error reason => (m, some (.error reason))
  | .socket c, m =>
    let (line, reply) := m.network.answer c m.line
    ({ m with line }, reply)
  | .say line, m => ({ m with said := line :: m.said }, some ())

def invoke (m : Machine) (args : List String) : Machine × Option Command.Exit :=
  (Command.invoke args).play answer m

def heard (m : Machine) : List Leader.Request := m.line.heard

def printed (m : Machine) : String := String.join (m.said.reverse.map (· ++ "\n"))

end Machine
end FollowerSync.Rehearsal
