import FollowerSync.Command.Run
import FollowerSync.Command.SystemError
import Std.Async.DNS
import Std.Async.TCP
import Std.Async.Timer

set_option autoImplicit false

namespace FollowerSync.Console
open Command Std.Net Std.Async

def reason : IO.Error → String
  | .interrupted _ code details | .noFileOrDirectory _ code details
  | .alreadyExists _ code details | .invalidArgument _ code details
  | .permissionDenied _ code details | .resourceExhausted _ code details
  | .inappropriateType _ code details | .noSuchThing _ code details
  | .otherError code details | .resourceBusy code details | .resourceVanished code details
  | .unsupportedOperation code details | .hardwareFault code details
  | .unsatisfiedConstraints code details | .illegalOperation code details
  | .protocolError code details | .timeExpired code details => SystemError.text code details
  | .unexpectedEof => "unexpected end of file"
  | .userError details => details

def attempt {α : Type} (act : IO α) : IO (Except String α) := do
  try return .ok (← act) catch e => return .error (reason e)

def milliseconds (d : Duration) : Std.Time.Millisecond.Offset :=
  .ofInt (min ((d.nanos + 999999) / 1000000) 0x4000000000000000)

def within {α : Type} (limit : Duration) (act : Async α) : IO (Option α) :=
  (Async.race (some <$> act) (do sleep (milliseconds limit); return none)).block

def socketAddress (service : UInt16) : IPAddr → SocketAddress
  | .v4 addr => .v4 ⟨addr, service⟩
  | .v6 addr => .v6 ⟨addr, service⟩

def resolve (host : String) : Async (Array IPAddr) :=
  match IPv4Addr.ofString host, IPv6Addr.ofString (Wire.Address.unbracketed host) with
  | some addr, _ => return #[.v4 addr]
  | none, some addr => return #[.v6 addr]
  | none, none =>
    if host = "" then throw (.userError (SystemError.text 3008 "")) else DNS.getAddrInfo host ""

def connectAny (service : UInt16) : List IPAddr → Async TCP.Socket.Client
  | [] => throw (.userError "could not resolve to any address")
  | addr :: others => do
    let client ← TCP.Socket.Client.mk
    try
      client.connect (socketAddress service addr)
      return client
    catch e =>
      if others.isEmpty then throw e else connectAny service others

def connect (address : String) : Async TCP.Socket.Client := do
  match Wire.Address.parts? address with
  | none => throw (.userError "invalid socket address")
  | some (host, service) =>
    let service := ((Wire.Address.number? UInt16.size service).getD 0).toUInt16
    connectAny service (← resolve host).toList

partial def receive (client : TCP.Socket.Client) (count : Nat) (bytes : ByteArray) :
    Async ByteArray := do
  if bytes.size = count then return bytes
  match ← client.recv? (.ofNat (count - bytes.size)) with
  | none => throw (.userError "early eof")
  | some more => receive client count (bytes ++ more)

structure Line where
  client : Option TCP.Socket.Client := none
  deadline : Nat := 0

def perform (client : TCP.Socket.Client) :
    (operation : Wire.Socket.Operation) → Async operation.Yield
  | .write bytes => client.send ⟨bytes.toArray⟩
  | .flush => return ()
  | .read count => do
    let bytes := (← receive client count .empty).toList
    if whole : bytes.length = count then return ⟨bytes, whole⟩ else throw .unexpectedEof

def timed {α : Type} (limit : Duration) (act : Async α) : IO (Option (Except String α)) := do
  match ← attempt (within limit act) with
  | .error reason => return some (.error reason)
  | .ok result => return result.map .ok

def socket (line : IO.Ref Line) : (c : Wire.Socket.Call) → IO c.Reply
  | .connect address limit => do
    if let some complaint := Wire.Address.complaint? address then
      return some (.error complaint)
    match ← timed limit (connect address) with
    | some (.ok client) =>
      line.modify fun l => { l with client := some client }
      return some (.ok ())
    | some (.error reason) => return some (.error reason)
    | none => return none
  | .noDelay => do
    match (← line.get).client with
    | some client => attempt client.noDelay
    | none => return .error "not connected"
  | .startTimer limit => do
    let now ← IO.monoMsNow
    line.modify fun l => { l with deadline := now + limit.nanos / nanosPerMilli }
  | .perform operation => do
    let l ← line.get
    let left := l.deadline - (← IO.monoMsNow)
    match l.client with
    | some client => timed (.ofNanos (left * nanosPerMilli)) (perform client operation)
    | none => return some (.error "not connected")

def answer (line : IO.Ref Line) : (c : Call) → IO c.Reply
  | .readFile path => attempt do return (← IO.FS.readBinFile path).toList
  | .pathExists path => return (← attempt (IO.FS.realPath path)).isOk
  | .writeFile path text => attempt (IO.FS.writeFile path text)
  | .socket c => socket line c
  | .say text => IO.println text

end FollowerSync.Console

def main (args : List String) : IO UInt32 := do
  let line ← IO.mkRef {}
  let exit ← (FollowerSync.Command.invoke args).perform (FollowerSync.Console.answer line)
  if exit.status = 2 then IO.eprintln FollowerSync.Command.usage
  IO.eprint exit.complaint
  unless exit.complaint.isEmpty || exit.complaint.endsWith "\n" do IO.eprintln ""
  return exit.status.toUInt32
