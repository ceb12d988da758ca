import FollowerSync.Program
import FollowerSync.Wire.Address
import FollowerSync.Wire.Frame
import FollowerSync.Wire.Message

/-!
# Asking a leader

One request goes over one connection, and the first frame that comes back is the answer. What a
socket does with what is asked of it is left open: an operation may come to its end, fail, or not
end in time.
-/

set_option autoImplicit false

namespace FollowerSync.Wire
open Leader

namespace Socket

inductive Operation where
  | write (bytes : Bytes)
  | flush
  /-- Reads so many bytes, and no fewer. -/
  | read (count : Nat)

@[reducible] def Operation.Yield : Operation → Type
  | write _ | flush => Unit
  | read count => { bytes : Bytes // bytes.length = count }

inductive Call where
  | connect (address : String) (limit : Duration)
  | noDelay
  /-- From now on, operations have so much time together. -/
  | startTimer (limit : Duration)
  | perform (operation : Operation)

/-- What has a time limit gives no reply when that is over. -/
@[reducible] def Call.Reply : Call → Type
  | connect .. => Option (Except String Unit)
  | noDelay => Except String Unit
  | startTimer _ => Unit
  | perform operation => Option (Except String operation.Yield)

end Socket

@[reducible] def socket : Signature := ⟨Socket.Call, Socket.Call.Reply⟩

abbrev Talk := Program socket

def Talk.ask (c : Socket.Call) : Talk c.Reply := Program.ask (S := socket) c

inductive Cut where
  | late
  | failed (fault : Fault)

abbrev Exchange := ExceptT Cut Talk

namespace Exchange

def perform (operation : Socket.Operation) : Exchange operation.Yield := do
  match ← ExceptT.lift (Talk.ask (.perform operation)) with
  | some (.ok a) => return a
  | some (.error reason) => throw (.failed (.io reason))
  | none => throw .late

def writeFrame {α : Type} [Encodable α] (message : α) : Exchange Unit := do
  let body := encode message
  perform (.write (encode (Header.ofBody body)))
  perform (.write body)
  perform .flush

def orFail {α : Type} : Except Fault α → Exchange α
  | .ok a => return a
  | .error fault => throw (.failed fault)

def readFrame (α : Type) [Encodable α] : Exchange α := do
  let front ← perform (.read Header.size)
  let header := Header.ofFront front
  if Header.maxLength < header.length.toNat then throw (.failed (Frame.tooLarge header.length))
  else
    let body ← perform (.read header.length.toNat)
    if Crc32.checksum body = header.checksum then orFail (Frame.open? body.val)
    else throw (.failed Frame.corrupted)

end Exchange

structure Client where
  connectTimeout : Duration

namespace Client
variable (client : Client)

def connect (address : String) : Talk (Except Fault Unit) := do
  match ← Talk.ask (.connect address client.connectTimeout) with
  | some (.ok ()) =>
    match ← Talk.ask .noDelay with
    | .ok () => return .ok ()
    | .error reason => return .error (.io reason)
  | some (.error reason) => return .error (.connectionFailed address reason)
  | none => return .error (.connectionTimeout address)

def call (endpoint : String) (request : Request) (limit : Duration) :
    Talk (Except Fault Response) := do
  let address := Address.ofEndpoint endpoint
  match ← client.connect address with
  | .error fault => return .error fault
  | .ok () =>
    Talk.ask (.startTimer limit)
    match ← ExceptT.run do Exchange.writeFrame request; Exchange.readFrame Response with
    | .ok response => return response.accept
    | .error (.failed fault) => return .error fault
    | .error .late => return .error (.connectionTimeout address)

def unexpected (operation : String) (response : Response) : Fault :=
  .network ("unexpected response to " ++ operation ++ ": " ++ response.text)

/-- Sends a request and takes what belongs to it from the response. -/
def query {α : Type} (endpoint : String) (request : Request) (limit : Duration)
    (operation : String) (take : Response → Option α) : Talk (Except Fault α) := do
  match ← client.call endpoint request limit with
  | .error fault => return .error fault
  | .ok response =>
    match take response with
    | some a => return .ok a
    | none => return .error (unexpected operation response)

def takeOk : Response → Option Unit
  | .ok => some ()
  | _ => none

def takeCount : Response → Option UInt64
  | .count count => some count
  | _ => none

def newLockId (endpoint database : String) (limit : Duration) : Talk (Except Fault UInt64) :=
  client.query endpoint (.newLockId database) limit "NewLockId" fun
    | .lockId id => some id
    | _ => none

/-- A leader without terms may grant a lock by a bare `ok`. -/
def acquireLock (endpoint : String) (request : LockRequest) (limit : Duration) :
    Talk (Except Fault LockGrant) :=
  client.query endpoint (.acquireLock request) limit "AcquireLock" fun
    | .lockGranted grant => some grant
    | .ok => some {}
    | _ => none

def cancelLock (endpoint database : String) (lockId : UInt64) (clientId : String)
    (limit : Duration) : Talk (Except Fault Unit) :=
  client.query endpoint (.cancelLock database lockId clientId) limit "CancelLock" takeOk

def addFollower (endpoint : String) (request : AddFollowerRequest) (limit : Duration) :
    Talk (Except Fault Unit) :=
  client.query endpoint (.addFollower request) limit "AddFollower" takeOk

def collectionCount (endpoint database shard : String) (limit : Duration) :
    Talk (Except Fault UInt64) :=
  client.query endpoint (.collectionCount database shard) limit "CollectionCount" takeCount

def recalculateCount (endpoint database shard : String) (limit : Duration) :
    Talk (Except Fault UInt64) :=
  client.query endpoint (.recalculateCount database shard) limit "RecalculateCount" takeCount

def method (endpoint : String) (limit : Duration) :
    (request : Request) → Talk (Except Fault request.Payload)
  | .newLockId database => client.newLockId endpoint database limit
  | .acquireLock request => client.acquireLock endpoint request limit
  | .cancelLock database lockId clientId =>
    client.cancelLock endpoint database lockId clientId limit
  | .addFollower request => client.addFollower endpoint request limit
  | .collectionCount database shard => client.collectionCount endpoint database shard limit
  | .recalculateCount database shard => client.recalculateCount endpoint database shard limit

end Client
end FollowerSync.Wire
