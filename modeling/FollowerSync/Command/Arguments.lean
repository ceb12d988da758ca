import FollowerSync.Wire.Address

set_option autoImplicit false

namespace FollowerSync.Command

inductive Kind where
  | flag
  | text
  | path
  | number
  deriving DecidableEq

structure OptionForm where
  name : String
  letter : Option Char := none
  kind : Kind := .text

inductive Refusal where
  | help
  | version
  | misuse
  deriving DecidableEq

abbrev Given := List (String × String)

structure Grammar where
  options : List OptionForm
  hasVersion : Bool := false

def Kind.accepts (value : String) : Kind → Bool
  | flag | text => true
  | path => value ≠ ""
  | number => (Wire.Address.number? UInt64.size value).isSome

def Given.add (given : Given) (o : OptionForm) (value : String) : Except Refusal Given :=
  if (given.lookup o.name).isSome ∨ !o.kind.accepts value then .error .misuse
  else .ok (given ++ [(o.name, value)])

def isDashed (arg : String) : Bool :=
  match arg.toList with
  | '-' :: _ :: _ => true
  | _ => false

inductive Written where
  | long (name : String) (attached : Option String)
  | short (letter : Char) (attached : Option String)
  | mark
  | plain

def written (arg : String) : Written :=
  match arg.toList with
  | ['-', '-'] => .mark
  | '-' :: '-' :: cs =>
    match cs.span (· ≠ '=') with
    | (name, _ :: value) => .long (.ofList name) (some (.ofList value))
    | (name, []) => .long (.ofList name) none
  | ['-'] => .plain
  | '-' :: letter :: '=' :: value => .short letter (some (.ofList value))
  | ['-', letter] => .short letter none
  | '-' :: letter :: value => .short letter (some (.ofList value))
  | _ => .plain

namespace Grammar

def ending (g : Grammar) (name : String) : Option Refusal :=
  if name = "help" then some .help
  else if name = "version" ∧ g.hasVersion then some .version
  else none

def nameOf (g : Grammar) (letter : Char) : String :=
  if letter = 'h' then "help"
  else if letter = 'V' then "version"
  else ((g.options.find? (·.letter = some letter)).map (·.name)).getD ""

/-- Takes options from the front of the arguments; yields what is left at the first argument that
is none. -/
def take (g : Grammar) : Given → List String → Except Refusal (Given × List String)
  | given, [] => .ok (given, [])
  | given, arg :: args =>
    let option (name : String) (attached : Option String) :
        Except Refusal (Given × List String) :=
      match g.ending name with
      | some refusal => if attached.isSome then .error .misuse else .error refusal
      | none =>
        match g.options.find? (·.name = name), attached with
        | none, _ => .error .misuse
        | some o, some value =>
          if o.kind = .flag then .error .misuse
          else do g.take (← given.add o value) args
        | some o, none =>
          if o.kind = .flag then do g.take (← given.add o "") args
          else
            match args with
            | [] => .error .misuse
            | value :: args =>
              if isDashed value then .error .misuse else do g.take (← given.add o value) args
    match written arg with
    | .long name attached => option name attached
    | .short letter attached =>
      match g.ending (g.nameOf letter) with
      | some refusal => .error refusal
      | none => option (g.nameOf letter) attached
    | .mark => if args.isEmpty then .ok (given, []) else .error .misuse
    | .plain => .ok (given, arg :: args)

end Grammar

inductive Action where
  | init (output node : String)
  | validate
  | count (leader database shard : String)
  | recount (leader database shard : String)
  | cancelLock (leader database : String) (id : UInt64) (clientId : String)
  | backoff (failures : Nat)
  deriving DecidableEq

structure Invocation where
  config : String
  json : Bool
  action : Action
  deriving DecidableEq

def defaultPath : String := "shardsync.toml"

def general : Grammar where
  options := [{ name := "config", letter := some 'c', kind := .path },
    { name := "log-level", letter := some 'l' }, { name := "json", kind := .flag }]
  hasVersion := true

namespace Given

def required (given : Given) (name : String) : Except Refusal String :=
  match given.lookup name with
  | some value => .ok value
  | none => .error .misuse

def number (given : Given) (name : String) : Except Refusal Nat := do
  match Wire.Address.number? UInt64.size (← given.required name) with
  | some n => return n
  | none => throw .misuse

end Given

def shardOptions : List OptionForm :=
  [{ name := "leader" }, { name := "database" }, { name := "shard" }]

def grammar? : String → Option Grammar
  | "init" => some ⟨[{ name := "output", letter := some 'o', kind := .path },
      { name := "node-id" }], false⟩
  | "validate" => some ⟨[], false⟩
  | "count" | "recount" => some ⟨shardOptions, false⟩
  | "cancel-lock" => some ⟨[{ name := "leader" }, { name := "database" },
      { name := "id", kind := .number }, { name := "client-id" }], false⟩
  | "backoff" => some ⟨[{ name := "failures", kind := .number }], false⟩
  | _ => none

def action (command : String) (given : Given) : Except Refusal Action := do
  match command with
  | "init" =>
    return .init ((given.lookup "output").getD defaultPath)
      ((given.lookup "node-id").getD "PRMR-0001")
  | "validate" => return .validate
  | "count" =>
    return .count (← given.required "leader") (← given.required "database")
      (← given.required "shard")
  | "recount" =>
    return .recount (← given.required "leader") (← given.required "database")
      (← given.required "shard")
  | "cancel-lock" =>
    return .cancelLock (← given.required "leader") (← given.required "database")
      (.ofNat (← given.number "id")) ((given.lookup "client-id").getD "")
  | "backoff" => return .backoff (← given.number "failures")
  | _ => throw .misuse

def helpOn : List String → Refusal
  | [] => .help
  | [topic] => if topic = "help" ∨ (grammar? topic).isSome then .help else .misuse
  | _ => .misuse

def parse (args : List String) : Except Refusal Invocation := do
  let (given, rest) ← general.take [] args
  match rest with
  | [] => throw .misuse
  | "help" :: topic => throw (helpOn topic)
  | command :: args =>
    match grammar? command with
    | none => throw .misuse
    | some g =>
      let (own, rest) ← g.take [] args
      if !rest.isEmpty then throw .misuse
      return { config := (given.lookup "config").getD defaultPath
               json := (given.lookup "json").isSome, action := ← action command own }

def usage : String :=
  "Usage: shardsync [--config PATH] [--log-level LEVEL] [--json] COMMAND\n\n" ++
    "Commands:\n" ++
    "  init         [--output PATH] [--node-id ID]\n" ++
    "  validate\n" ++
    "  count        --leader ENDPOINT --database NAME --shard NAME\n" ++
    "  recount      --leader ENDPOINT --database NAME --shard NAME\n" ++
    "  cancel-lock  --leader ENDPOINT --database NAME --id LOCK [--client-id ID]\n" ++
    "  backoff      --failures COUNT"

end FollowerSync.Command
