import FollowerSync.Wire.Client

set_option autoImplicit false

namespace FollowerSync.Rehearsal
open Leader Wire

inductive Peer where
  | refuses (reason : String)
  | answers (response : Response)
  | sends (bytes : Bytes)
  | closes
  | hangs

structure Line where
  received : Bytes := []
  reply : Option Bytes := none
  limit : Duration := .zero

namespace Line

def heard (line : Line) : List Request := (Frame.read (α := Request) line.received).1.toOption.toList

/-- Takes bytes off the reply. Without any time for the answer, the one who asked does not get
it. -/
def read (line : Line) (reply : Bytes) (count : Nat) :
    Line × Option (Except String { bytes : Bytes // bytes.length = count }) :=
  if line.limit.isZero then (line, none)
  else
    let taken := reply.take count
    ({ line with reply := some (reply.drop count) },
      some (if whole : taken.length = count then .ok ⟨taken, whole⟩ else .error "early eof"))

end Line

/-- What a leader sends, if it does not keep the one who asks waiting. It closes the connection
when it cannot read the request. -/
def Peer.reply? (peer : Peer) (line : Line) : Option Bytes :=
  match line.heard, peer with
  | [], _ => some []
  | _, answers response => some (Frame.write response)
  | _, sends bytes => some bytes
  | _, closes | _, refuses _ => some []
  | _, hangs => none

structure Network where
  address : String
  peer : Peer

namespace Network

def isNumericHost (host : String) : Bool :=
  host = "localhost" || host.toList.all fun c => c.isDigit || c = '.' || c = ':' || c = '[' || c = ']'

def absence (host : String) : String :=
  if host = "" then "failed to lookup address information: Name or service not known"
  else if isNumericHost host then "Network is unreachable (os error 101)"
  else "failed to lookup address information: Temporary failure in name resolution"

def connect (n : Network) (address : String) (limit : Duration) : Option (Except String Unit) :=
  match Address.complaint? address with
  | some reason => some (.error reason)
  | none =>
    if address = n.address then
      match n.peer with
      | .refuses reason => some (.error reason)
      | _ => if limit.isZero then none else some (.ok ())
    else some (.error (absence (((Address.parts? address).map (·.1)).getD "")))

def perform (n : Network) (line : Line) :
    (operation : Socket.Operation) → Line × Option (Except String operation.Yield)
  | .write bytes => ({ line with received := line.received ++ bytes }, some (.ok ()))
  | .flush => (line, some (.ok ()))
  | .read count =>
    match line.reply <|> n.peer.reply? line with
    | some reply => line.read reply count
    | none => (line, none)

def answer (n : Network) : (c : Socket.Call) → Line → Line × Option c.Reply
  | .connect address limit, line => (line, some (n.connect address limit))
  | .noDelay, line => (line, some (.ok ()))
  | .startTimer limit, line => ({ line with limit }, some ())
  | .perform operation, line =>
    let (line, result) := n.perform line operation
    (line, some result)

def play {α : Type} (n : Network) (talk : Talk α) : Line × Option α := talk.play n.answer {}

end Network

structure Delivery where
  answer (address : String) : Except Fault Response
  payload (address : String) (request : Request) : Except Fault request.Payload

structure Visit where
  delivery : Delivery
  requests : List Request

def Network.exchange (n : Network) (address : String) (connectTimeout limit : Duration)
    (request : Request) : Visit :=
  let client : Client := ⟨connectTimeout⟩
  let endpoint (address : String) := "tcp://" ++ address
  let silent {α : Type} : Except Fault α := .error (.internal "no result")
  { delivery.answer address := (n.play (client.call (endpoint address) request limit)).2.getD silent
    delivery.payload address request :=
      (n.play (client.method (endpoint address) limit request)).2.getD silent
    requests := (n.play (client.call (endpoint address) request limit)).1.heard }

end FollowerSync.Rehearsal
