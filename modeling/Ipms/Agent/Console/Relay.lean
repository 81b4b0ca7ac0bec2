import Ipms.Agent.Console.Guard
import Ipms.Agent.Console.Lease
import Ipms.Lib.Run
import Ipms.Lib.Throwing

/-
  Ipms.Agent.Console.Relay

  The loop that relays a native console between the gateway's WebSocket and the
  local socket of the machine.  Completions of the two asynchronous operations
  arrive between the two halves of a pass, which each take the lock once; what
  the operating system answers is an input of the half that asks.
-/

namespace Ipms.Agent.Console

open Ipms.Lib
open Ipms.ManagementJson (Bytes)

/-! ## State -/

/-- `WINHTTP_WEB_SOCKET_BUFFER_TYPE`. -/
inductive BufferType where
  | binaryMessage | binaryFragment | utf8Message | utf8Fragment | close | other
  deriving DecidableEq

/-- A text message or a part of one. -/
def BufferType.text (type : BufferType) : Bool := type == .utf8Message || type == .utf8Fragment

/-- A binary message or a part of one. -/
def BufferType.binary (type : BufferType) : Bool :=
  type == .binaryMessage || type == .binaryFragment

/-- The last part of a message. -/
def BufferType.final (type : BufferType) : Bool := type == .utf8Message || type == .binaryMessage

/-- How a relay ends. -/
inductive Ending where
  | returned
  | failed (message : String)
  | outOfBounds
  deriving DecidableEq

/-- A received part of a message. -/
structure Fragment where
  type : BufferType
  bytes : Bytes
  deriving DecidableEq

/-- A send to the local socket: the lease and the time of the pass, and the bytes it took. -/
structure Sending where
  lease : Lease
  now : Int
  bytes : Bytes

/-- The halves of a pass. -/
inductive Half where
  | first | second
  deriving DecidableEq

/-- The variables of `relay_native_hyperv_console` and of its callbacks, and what happened so
far. -/
structure Relay where
  -- `asynchronous_state`
  readReady : Bool := false
  writeReady : Bool := true
  error : Bool := false
  readSize : Nat := 0
  readType : BufferType := .other
  expectedWriteSize : Nat := 0
  readBuffer : Bytes := []
  writeBuffer : Bytes := []
  -- the variables of the loop
  lease : Lease
  guard : Guard
  preconnectionValid : Bool := false
  connecting : Bool := false
  readPending : Bool := false
  writePending : Bool := false
  isOpen : Bool := false
  connectDeadline : Int
  localWriteDeadline : Int
  websocketWriteDeadline : Int
  preconnectionDeadline : Int
  incoming : Message := {}
  localOutput : Bytes := []
  localOffset : Nat := 0
  now : Int
  progressed : Bool := false
  half : Half := .first
  ended : Option Ending := none
  -- the operations that are under way
  reading : Bool := false
  writing : Nat := 0
  -- what was completed, taken up, sent and handed on, in order
  completed : List Fragment := []
  delivered : List Fragment := []
  sends : List Sending := []
  received : List Bytes := []
  handed : List Bytes := []
  arrived : List Bytes := []

def maximumMessage : Nat := 65536

/-- The state before the first pass, if the assignment is valid. -/
def Relay.attach (sessionId generation vmId : Bytes) (created now : Int) : Option Relay :=
  if nativeConsoleUuid sessionId && nativeConsoleUuid generation && nativeConsoleUuid vmId then
    some {
      lease := Lease.new generation created
      guard := Guard.new vmId
      connectDeadline := now
      localWriteDeadline := now
      websocketWriteDeadline := now
      preconnectionDeadline := now + chronoSeconds 10
      now }
  else none

/-! ## What the loop asks -/

/-- A `check`: whether the relay is cancelled or a callback has just failed, and the time. -/
structure Check where
  cancelled : Bool
  failing : Bool
  now : Int

/-- `WSAPoll` for the connection, and `SO_ERROR` where the socket is writable. -/
inductive Poll where
  | failed | waiting
  | writable (connected : Bool)
  deriving DecidableEq

/-- `send`. -/
inductive SendResult where
  | sent (count : Nat)
  | wouldBlock | failed
  deriving DecidableEq

/-- `recv`. -/
inductive RecvResult where
  | closed | wouldBlock | failed
  | data (bytes : Bytes)
  deriving DecidableEq

/-- `connect`. -/
inductive ConnectResult where
  | connected | inProgress | failed
  deriving DecidableEq

/-- The answers to the first half of a pass. -/
structure FirstAnswers where
  check : Check
  now : Int
  networkFailed : Bool
  poll : Poll
  send : SendResult

/-- The answers to `start_local`. -/
structure LocalAnswers where
  check : Check
  opened : Bool
  watched : Bool
  configured : Bool
  connect : ConnectResult
  now : Int

/-- The answers to the second half of a pass. -/
structure SecondAnswers where
  start : LocalAnswers
  receiveStarted : Bool
  recv : RecvResult
  sendStarted : Bool
  waited : Bool

/-! ## The loop -/

/-- A part of the loop. -/
abbrev Looping := Prog Relay Ending

def require (result : Bool) (message : String) : Looping Unit :=
  throwIf (result = false) (.failed message)

def check (i : Check) : Looping Unit := do
  modify fun s => { s with error := s.error || i.failing }
  let s ← get
  require (!i.cancelled && s.lease.live i.now)
    "The native console authorization expired or was cancelled."
  require (!s.error) "The native console authenticated transport failed."

/-- The connection of the local socket. -/
def pollLocal (i : FirstAnswers) : Looping Unit := do
  let s ← get
  if s.connecting then
    require (decide (i.now < s.connectDeadline)) "The local native console connection timed out."
    match i.poll with
    | .failed => throw (.failed "The local native console connection failed.")
    | .waiting => pure ()
    | .writable connected =>
      require connected "The local native console connection failed."
      modify fun s => { s with
        connecting := false
        progressed := true
        localWriteDeadline := i.now + chronoSeconds 2 }
  else pure ()

/-- The bytes of the local buffer that are still to be sent. -/
def Relay.unsent (s : Relay) : Bytes := s.localOutput.drop s.localOffset

/-- The write to the local socket. -/
def sendLocal (i : FirstAnswers) : Looping Unit := do
  let s ← get
  if s.connecting = false ∧ s.localOffset < s.localOutput.length then
    require (decide (i.now < s.localWriteDeadline)) "The local native console write stalled."
    match i.send with
    | .sent count =>
      modify fun s => { s with
        sends := s.sends ++ [⟨s.lease, i.now, s.unsent.take count⟩]
        localOffset := s.localOffset + count
        progressed := true }
    | .wouldBlock => pure ()
    | .failed => throw (.failed "The local native console write failed.")
    modify fun s =>
      if s.localOffset = s.localOutput.length then { s with localOutput := [], localOffset := 0 }
      else s
  else pure ()

/-- The local socket in a pass. -/
def serveLocal (i : FirstAnswers) : Looping Unit := do
  let s ← get
  if s.isOpen then
    require (!i.networkFailed) "The local native console socket failed."
    require (s.lease.authorized i.now) "The native console stream has no valid lease."
    pollLocal i
    sendLocal i
  else pure ()

/-- A pass up to the state of the callbacks. -/
def firstHalf (i : FirstAnswers) : Looping Unit := do
  check i.check
  modify fun s => { s with progressed := false, now := i.now }
  let s ← get
  require (s.preconnectionValid || decide (i.now < s.preconnectionDeadline))
    "The native console preconnection timed out."
  serveLocal i
  modify fun s => { s with half := .second }

/-- The result of `connect`. -/
def connectLocal : ConnectResult → Looping Unit
  | .connected => modify fun s => { s with connecting := false }
  | .inProgress => modify fun s => { s with connecting := true }
  | .failed => throw (.failed "The fixed local native console endpoint could not be reached.")

def startLocal (i : LocalAnswers) : Looping Unit := do
  check i.check
  require i.opened "The local native console socket is unavailable."
  modify fun s => { s with isOpen := true }
  require i.watched "The native console socket notifications are unavailable."
  require i.configured "The local native console latency policy could not be configured."
  connectLocal i.connect
  modify fun s => { s with connectDeadline := i.now + chronoSeconds 2 }

/-- The packet that the gate has accepted. -/
def openStream (i : LocalAnswers) (accepted : Bool) : Looping Unit :=
  if accepted then do
    modify fun s => { s with
      preconnectionValid := true
      localOutput := s.localOutput ++ s.guard.packet }
    startLocal i
  else pure ()

/-- The preconnection gate on a message: how many of its bytes it took. -/
def passGuard (i : LocalAnswers) (message : Bytes) : Looping Nat := do
  let s ← get
  match s.guard.append message with
  | none => throw .outOfBounds
  | some (guard, taken) =>
    modify fun s => { s with guard }
    require (taken.state != .rejected)
      "The native console preconnection does not match the assigned VM."
    openStream i (taken.state == .accepted)
    return taken.consumed

/-- How many bytes of a message belong to the gate. -/
def consumed (i : LocalAnswers) (message : Bytes) : Looping Nat := do
  let s ← get
  if s.preconnectionValid then pure 0 else passGuard i message

/-- The rest of a message goes into the local buffer. -/
def appendOutput (message : Bytes) (consumed : Nat) : Looping Unit := do
  let s ← get
  if s.preconnectionValid then
    require (decide (s.localOutput.length + message.length - consumed ≤ maximumMessage + 256))
      "The native console local write buffer exceeds its bound."
    modify fun s => { s with
      localOutput := s.localOutput ++ message.drop consumed
      localWriteDeadline := s.now + chronoSeconds 2 }
  else pure ()

/-- A complete binary message. -/
def forwardMessage (i : LocalAnswers) (message : Bytes) : Looping Unit := do
  let s ← get
  require (s.lease.authorized s.now) "The native console stream preceded its lease."
  let count ← consumed i message
  appendOutput message count

/-- A complete text message. -/
def refreshLease (message : Bytes) : Looping Unit := do
  let s ← get
  modify fun s => { s with lease := (s.lease.refresh message s.now).1 }
  require (s.lease.refresh message s.now).2 "The native console lease control is invalid."

/-- A complete message. -/
def takeMessage (i : LocalAnswers) (text : Bool) (message : Bytes) : Looping Unit :=
  if text then refreshLease message else forwardMessage i message

/-- The message that a part has ended. -/
def finishMessage (i : LocalAnswers) : Looping Unit := do
  let s ← get
  if s.incoming.state = .complete then
    takeMessage i s.readType.text s.incoming.data
    modify fun s => { s with incoming := s.incoming.reset }
  else pure ()

/-- A part of a message. -/
def receiveFragment (i : LocalAnswers) : Looping Unit := do
  modify fun s => { s with progressed := true, readPending := false }
  let s ← get
  require (decide (s.readSize ≤ maximumMessage)) "The native console receive exceeds its bound."
  if s.readType = .close then throw .returned
  else
    require (s.readType.text || s.readType.binary) "The native console message type is invalid."
    modify fun s => { s with
      delivered := s.delivered ++ [⟨s.readType, s.readBuffer.take s.readSize⟩]
      incoming := s.incoming.append (s.readBuffer.take s.readSize) s.readType.text
        s.readType.final }
    let s ← get
    require (s.incoming.state != .rejected)
      "The native console message exceeds its fixed contract."
    finishMessage i

/-- The part of a message that the callbacks have left, if there is one. -/
def receiveReady (i : LocalAnswers) (ready : Bool) : Looping Unit :=
  if ready then receiveFragment i else pure ()

/-- `WinHttpWebSocketReceive`. -/
def startReceive (started : Bool) : Looping Unit := do
  let s ← get
  if s.readPending = false ∧ s.localOutput = [] then
    require started "The native console receive could not be started."
    modify fun s => { s with readPending := true, reading := true }
  else pure ()

/-- `WinHttpWebSocketSend` of what was read from the local socket. -/
def sendGateway (bytes : Bytes) (started : Bool) : Looping Unit := do
  modify fun s => { s with
    progressed := true
    writeReady := false
    expectedWriteSize := bytes.length
    writeBuffer := bytes
    received := s.received ++ [bytes] }
  require started "The native console send could not be started."
  modify fun s => { s with
    writing := s.writing + 1
    handed := s.handed ++ [bytes]
    writePending := true
    websocketWriteDeadline := s.now + chronoSeconds 2 }

/-- The read from the local socket. -/
def receiveLocal (i : SecondAnswers) : Looping Unit := do
  let s ← get
  if s.isOpen = true ∧ s.connecting = false ∧ s.writePending = false then
    match i.recv with
    | .closed => throw .returned
    | .failed => throw (.failed "The local native console receive failed.")
    | .wouldBlock => pure ()
    | .data bytes => sendGateway bytes i.sendStarted
  else pure ()

/-- The write to the gateway that is under way. -/
def awaitWrite (ready : Bool) : Looping Unit := do
  let s ← get
  if s.writePending then
    if ready then modify fun s => { s with writePending := false, progressed := true }
    else
      require (decide (s.now < s.websocketWriteDeadline))
        "The native console Gateway write stalled."
  else pure ()

/-- A pass from the state of the callbacks on. -/
def secondHalf (i : SecondAnswers) : Looping Unit := do
  let s ← get
  modify fun s => { s with readReady := false }
  awaitWrite s.writeReady
  receiveReady i.start s.readReady
  startReceive i.receiveStarted
  receiveLocal i
  let s ← get
  require (s.progressed || i.waited) "The native console event wait failed."
  modify fun s => { s with half := .first }

/-! ## Steps -/

/-- What happens to a relay. -/
inductive Event where
  | readComplete (type : BufferType) (bytes : Bytes)
  | writeComplete (transferred : Option Nat)
  | failure
  | first (i : FirstAnswers)
  | second (i : SecondAnswers)

/-- `READ_COMPLETE`: the operating system has filled the receive buffer. -/
def Relay.readComplete (s : Relay) (type : BufferType) (bytes : Bytes) : Relay := { s with
  reading := false
  readBuffer := bytes
  readSize := bytes.length
  readType := type
  readReady := true
  completed := s.completed ++ [⟨type, bytes⟩]
  error := s.error || decide (maximumMessage < bytes.length) }

/-- `WRITE_COMPLETE`: the bytes of the send buffer have gone out. -/
def Relay.writeComplete (s : Relay) (transferred : Option Nat) : Relay := { s with
  writing := s.writing - 1
  arrived := s.arrived ++ [s.writeBuffer]
  writeReady := true
  error := s.error || transferred != some s.expectedWriteSize }

/-- The state after a half of a pass: the relay goes on or has ended. -/
def Relay.after (s : Relay) (half : Looping Unit) : Relay :=
  match half.exec s with
  | (.ok _, t) => { t with ended := none }
  | (.error ending, t) => { t with ended := some ending }

/-- A send takes some of the bytes it is given. -/
def FirstAnswers.Possible (i : FirstAnswers) (s : Relay) : Prop :=
  ∀ count, i.send = .sent count → 0 < count ∧ count ≤ s.localOutput.length - s.localOffset

/-- A step of a relay: an operation that is under way completes, the transport fails, or the loop
goes on. -/
inductive Relay.Step : Relay → Event → Relay → Prop
  | readComplete {s : Relay} {type : BufferType} {bytes : Bytes} : s.reading = true →
      Step s (.readComplete type bytes) (s.readComplete type bytes)
  | writeComplete {s : Relay} {transferred : Option Nat} : 0 < s.writing →
      Step s (.writeComplete transferred) (s.writeComplete transferred)
  | failure {s : Relay} : Step s .failure { s with error := true }
  | first {s : Relay} {i : FirstAnswers} : s.ended = none → s.half = .first → i.Possible s →
      Step s (.first i) (s.after (firstHalf i))
  | second {s : Relay} {i : SecondAnswers} : s.ended = none → s.half = .second →
      Step s (.second i) (s.after (secondHalf i))

/-- The bytes passed to the local socket. -/
def Relay.sent (s : Relay) : Bytes := (s.sends.map Sending.bytes).flatten

/-- The messages of some fragments: whether they are text, and their payloads. -/
def messages (pending : Bytes) : List Fragment → List (Bool × Bytes)
  | [] => []
  | f :: fs =>
    if f.type.final then (f.type.text, pending ++ f.bytes) :: messages [] fs
    else messages (pending ++ f.bytes) fs

/-- The payload of a message that has begun. -/
def unfinished (pending : Bytes) : List Fragment → Bytes
  | [] => pending
  | f :: fs => if f.type.final then unfinished [] fs else unfinished (pending ++ f.bytes) fs

/-- The concatenated payloads of the binary messages completed so far. -/
def Relay.binary (s : Relay) : Bytes :=
  ((messages [] s.delivered).filter fun m => !m.1).flatMap Prod.snd

end Ipms.Agent.Console
