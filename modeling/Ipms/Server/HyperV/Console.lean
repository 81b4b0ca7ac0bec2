import Mathlib.Data.List.Sort
import Ipms.Server.HyperV.Management

/-
  Ipms.Server.HyperV.Console

  The requests about console sessions.  A browser opens a session on a machine and
  keeps it by renewing its lease; the agent serves it with pictures and takes the
  queued input, or relays a native stream.  Each request compares the lease with
  the clock in its own way, strictly or not, as the source has it.
-/

namespace Ipms.Server.HyperV

open Ipms.Lib Ipms.ManagementJson
open Ipms.Agent.Gpo (seconds)

/-- A Django `ValidationError`. -/
def invalid (message : String) : ServerError := .validationError message

/-! ## The end of a session -/

/-- A session that ends: its picture is dropped. -/
def ConsoleSession.finish (x : ConsoleSession) (status : SessionStatus) (failureCode : String)
    (now : Time) : ConsoleSession :=
  { x with status, failureCode, closedAt := some now, frame := { x.frame with png := [] } }

/-- A session whose lease has run out. -/
def ConsoleSession.stale (x : ConsoleSession) (now : Time) : Bool :=
  x.status.isOpen && decide (x.leaseExpiresAt < now)

/-- The row behind `_expire_stale_sessions`. -/
def ConsoleSession.expire (selected : ConsoleSession → Bool) (now : Time) (x : ConsoleSession) :
    ConsoleSession :=
  if x.stale now && selected x then x.finish .expired "browser_lease_expired" now else x

theorem ConsoleSession.expire_id (selected : ConsoleSession → Bool) (now : Time)
    (x : ConsoleSession) : (x.expire selected now).id = x.id := by
  unfold ConsoleSession.expire ConsoleSession.finish
  split <;> rfl

namespace State

variable (s : State)

def requireActiveTenant (id : String) : Except ServerError Tenant :=
  found ((s.tenants.get? id).filter (·.status == .active)) (invalid "tenant_inactive")

/-- `_expire_stale_sessions`, of all sessions, of an agent's or of a machine's. -/
def expireStaleSessions (selected : ConsoleSession → Bool) : State :=
  let sessions := s.sessions.mapRows (ConsoleSession.expire selected s.now)
    (ConsoleSession.expire_id selected s.now)
  { s with sessions }

/-- The session that occupies a machine. -/
def occupied (tenant vmSourceId : String) : Option ConsoleSession :=
  s.sessions.rows.find? fun x =>
    x.tenant == tenant && x.vmSourceId == vmSourceId && x.status.isOpen

/-! ## Requests of the browser -/

/-- What a user asks for. -/
structure SessionRequest where
  virtualMachine : String
  tenant : String
  actor : String
  transport : Transport
  owner : Option Nat

/-- The row of a new session. -/
def newSession (id generation : String) (r : SessionRequest) (vm : VirtualMachine)
    (e : Enrollment) : ConsoleSession where
  id
  tenant := vm.tenant
  enrollment := e.id
  virtualMachine := some vm.id
  vmSourceId := vm.sourceId
  vmName := vm.name
  requestedBy := r.actor
  transport := r.transport
  owner := if r.transport = .vmconnect then r.owner else none
  streamGeneration := if r.transport = .vmconnect then some generation else none
  leaseExpiresAt := s.now + seconds 30
  createdAt := s.now
  lastActivityAt := s.now

/-- The checks of `create_console_session` before it looks for another session. -/
def checkNewSession (r : SessionRequest) : Except ServerError (VirtualMachine × Enrollment) := do
  let tenant ← s.requireActiveTenant r.tenant
  throwIf (r.transport = .vmconnect ∧ r.owner = none)
    (invalid "Native console sessions require an owner.")
  let vm ← found ((s.virtualMachines.get? r.virtualMachine).filter (·.tenant == tenant.id)) .notFound
  let host ← found (s.host? vm.host) .notFound
  let e ← found (s.enrollments.find? fun e => e.tenant == vm.tenant && e.deviceUri == host.sourceId &&
    e.platform == .windows && e.status == .active) (invalid "The Hyper-V host Agent is unavailable.")
  throwIf ((s.activeManagementJobs vm.tenant e.id vm.sourceId).any (fun j =>
    j.operation != .inspect) = true) (invalid "A Hyper-V management operation is already active.")
  throwIf (vm.state ≠ "running")
    (invalid "The virtual machine must be running to open its console.")
  throwIf (versionFrom host.agentVersion (0, 2, 21) = false)
    (invalid "The Hyper-V host Agent must be updated before it can provide a console.")
  throwIf (r.transport = .vmconnect ∧ versionFrom host.agentVersion (0, 2, 26) = false)
    (invalid "Update the Agent before opening a native console.")
  throwIf (r.transport = .vmconnect ∧ s.usableCredentials vm.tenant e.id = false)
    (invalid "Configure a dedicated console account first.")
  return (vm, e)

/-- `create_console_session`: the new session, or the one that occupies the machine. -/
def createConsoleSession (id generation : String) (r : SessionRequest) :
    Except ServerError (State × Except ConsoleSession ConsoleSession) := do
  let (vm, e) ← s.checkNewSession r
  let t := s.expireStaleSessions fun x => x.tenant == vm.tenant && x.vmSourceId == vm.sourceId
  match t.occupied vm.tenant vm.sourceId with
  | some other => return (t, .error other)
  | none => do
    let session := s.newSession id generation r vm e
    let sessions ← found (t.sessions.insert session) .integrityError
    return ({ t with sessions }, .ok session)

/-- The user who may renew or close a session. -/
def ownedBy (x : ConsoleSession) (actor : String) (owner : Option Nat) : Bool :=
  if x.transport = .vmconnect then owner.isSome && x.owner == owner else x.requestedBy == actor

/-- A session with a new lease. -/
def extend (x : ConsoleSession) (now : Time) : ConsoleSession :=
  { x with lastActivityAt := now, leaseExpiresAt := now + seconds 30 }

/-- The row behind `renew_console_session`: a lease that has run out ends the session, one that is
fresh is left alone. -/
def renewed (x : ConsoleSession) : ConsoleSession :=
  if x.leaseExpiresAt < s.now then x.finish .expired "browser_lease_expired" s.now
  else if x.leaseExpiresAt < s.now + seconds 25 then extend x s.now
  else x

def renewConsoleSession (id actor : String) (owner : Option Nat) :
    Except ServerError (State × ConsoleSession) := do
  let x ← found (s.sessions.get? id) .notFound
  if x.status.isOpen then do
    throwIf (ownedBy x actor owner = false)
      (invalid "The console session is owned by another user.")
    return (s.saveSession (s.renewed x), s.renewed x)
  else return (s, x)

def closeConsoleSession (id actor : String) (owner : Option Nat) :
    Except ServerError (State × ConsoleSession) := do
  let x ← found (s.sessions.get? id) .notFound
  if x.status.isOpen then do
    throwIf (ownedBy x actor owner = false)
      (invalid "The console session is owned by another user.")
    let closed := x.finish .closed x.failureCode s.now
    return (s.saveSession closed, closed)
  else return (s, x)

/-! ### Input -/

/-- An integer member within bounds. -/
def boundedInt (payload : Value) (key : String) (low high : Int) : Bool :=
  (payload.int? key).any fun n => decide (low ≤ n) && decide (n ≤ high)

/-- The members of an object are these. -/
def exactKeys (payload : Value) (keys : List String) : Bool :=
  match payload with
  | .obj members => members.length == keys.length && keys.all fun k => (members.lookup k).isSome
  | _ => false

def validatedInput (eventType : String) (payload : Value) : Except ServerError Value :=
  if eventType = "key" then do
    throwIf (!(exactKeys payload ["key_code", "is_down"] && boundedInt payload "key_code" 8 255 &&
      (payload.bool? "is_down").isSome)) (invalid "The console key input is invalid.")
    return payload
  else if eventType = "mouse_move" then do
    throwIf (!(exactKeys payload ["x", "y"] && boundedInt payload "x" 0 4095 &&
      boundedInt payload "y" 0 4095)) (invalid "The console mouse position is invalid.")
    return payload
  else if eventType = "mouse_button" then do
    throwIf (!(exactKeys payload ["button", "is_down"] && boundedInt payload "button" 1 3 &&
      (payload.bool? "is_down").isSome)) (invalid "The console mouse button input is invalid.")
    return payload
  else if eventType = "mouse_wheel" then
    match payload.int? "delta" with
    | some n => do
      throwIf (!exactKeys payload ["delta"]) (invalid "The console mouse wheel input is invalid.")
      return .obj [("delta", .int (max (-1200) (min 1200 n)))]
    | none => throw (invalid "The console mouse wheel input is invalid.")
  else if eventType = "secure_attention" then do
    throwIf (!exactKeys payload []) (invalid "The secure attention request is invalid.")
    return .obj []
  else throw (invalid "The console input type is invalid.")

/-- The order of the input queue. -/
def inputBefore (a b : InputEvent) : Bool :=
  decide (a.createdAt < b.createdAt) || a.createdAt == b.createdAt && decide (a.id ≤ b.id)

/-- The queue of a session, the oldest event first. -/
def inputQueue (session : String) : List InputEvent :=
  (s.inputs.rows.filter (·.session == session)).insertionSort fun a b => inputBefore a b = true

/-- The events of a session that no other of its events is later than. -/
def latestInputs (session : String) : List InputEvent :=
  let events := s.inputs.rows.filter (·.session == session)
  events.filter fun event => events.all fun other => decide (other.createdAt ≤ event.createdAt)

/-- `input_events.order_by("-created_at").first()`: of several latest events any one. -/
def latestInput (session : String) : Option InputEvent :=
  let events := s.latestInputs session
  (events[s.tied (events.map InputEvent.id)]?).or events.head?

/-- `queue_console_input`: a move of the mouse replaces the payload of one that was queued just
before it and not handed out. -/
def queueConsoleInput (id session actor eventType : String) (payload : Value) :
    Except ServerError (State × InputEvent) := do
  let x ← found (s.sessions.get? session) .notFound
  throwIf (x.status.isOpen = false ∨ x.leaseExpiresAt < s.now)
    (invalid "The console session is no longer active.")
  throwIf (x.transport ≠ .thumbnail) (invalid "Native input requires the bound native stream.")
  throwIf (x.requestedBy ≠ actor) (invalid "The console session is owned by another user.")
  let validated ← validatedInput eventType payload
  match (s.latestInput session).filter fun last =>
      eventType == "mouse_move" && last.eventType == eventType && last.deliveredAt.isNone with
  | some last =>
    let moved := { last with payload := validated }
    return ({ s with inputs := s.inputs.save moved }, moved)
  | none => do
    throwIf ((s.inputQueue session).length ≥ 256) (invalid "The console input queue is full.")
    let event : InputEvent := { id, session, eventType, payload := validated, createdAt := s.now }
    let inputs ← found (s.inputs.insert event) .integrityError
    return ({ s with inputs }, event)

/-! ## The native stream -/

def validateSession (x : ConsoleSession) : Except ServerError Unit := do
  throwIf (x.transport ≠ .vmconnect ∨ x.status.isOpen = false ∨ x.leaseExpiresAt ≤ s.now ∨
    x.owner = none ∨ x.streamGeneration = none) (invalid "native_session_unavailable")
  throwIf ((s.tenants.get? x.tenant).all (fun t => t.status != .active) = true)
    (invalid "native_session_unavailable")
  throwIf ((s.enrollment? x.enrollment).all (fun e => e.tenant != x.tenant || e.status != .active ||
    e.platform != .windows || e.revoked) = true) (invalid "native_session_unavailable")
  throwIf (x.owner.all (fun user => !s.accountActive user ||
    !s.hasTenantPermission user x.tenant .consoleControl) = true)
    (invalid "native_session_unavailable")
  throwIf (uuidText x.vmSourceId = false) (invalid "native_identity_invalid")
  throwIf (s.usableCredentials x.tenant x.enrollment = false)
    (invalid "native_configuration_changed")
  throwIf ((x.virtualMachine.bind s.virtualMachines.get?).all (fun vm =>
    vm.tenant != x.tenant || vm.sourceId != x.vmSourceId || vm.state != "running" ||
      (s.host? vm.host).all fun h => h.tenant != x.tenant ||
        (s.enrollment? x.enrollment).all fun e => h.sourceId != e.deviceUri) = true)
    (invalid "native_vm_binding_changed")

/-- What a browser presents: the account its cookie belongs to, and the claim it holds. -/
structure BrowserRequest where
  user : Option Nat
  claim : Option String
  attach : Bool
  renew : Bool
  peek : Bool

/-- The browser's claim on a session: a new one, or the one it holds. -/
def claimed (x : ConsoleSession) (r : BrowserRequest) (newClaim : String) :
    Except ServerError ConsoleSession :=
  if r.attach then do
    throwIf (x.browserClaim.isSome = true) (invalid "native_browser_already_attached")
    return { x with browserClaim := some newClaim }
  else do
    throwIf (r.claim = none ∨ x.browserClaim ≠ r.claim) (invalid "native_browser_claim_invalid")
    return x

/-- `authorize_browser`; a renewal reads the clock once more, `later`. -/
def authorizeBrowser (id : String) (r : BrowserRequest) (newClaim : String) (later : Time) :
    Except ServerError (State × ConsoleSession) := do
  throwIf (uuidText id = false) (invalid "native_identity_invalid")
  let user ← found (r.user.filter s.accountActive) (invalid "native_authentication_required")
  let x ← found ((s.sessions.get? id).filter (·.owner == some user)) .notFound
  s.validateSession x
  if r.peek then return (s, x)
  else do
    let y ← claimed x r newClaim
    let z := if r.renew then extend y later else y
    return (s.saveSession z, z)

def recordNativeContact (id generation : String) : State :=
  match (s.sessions.get? id).filter fun x => x.streamGeneration == some generation &&
      x.transport == .vmconnect && x.status.isOpen && decide (s.now < x.leaseExpiresAt) with
  | none => s
  | some x => s.saveSession { x with lastAgentContactAt := some s.now }

def markNativeReady (id claim : String) : Except ServerError State := do
  let x ← found ((s.sessions.get? id).filter fun x => x.browserClaim == some claim &&
    x.transport == .vmconnect && x.status.isOpen && decide (s.now < x.leaseExpiresAt))
    (invalid "native_session_unavailable")
  return s.saveSession { x with status := .active, connectedAt := some s.now }

def closeNative (id claim failure : String) : Except ServerError State := do
  let x ← found ((s.sessions.get? id).filter (·.browserClaim == some claim)) .notFound
  if x.status.isOpen then
    return s.saveSession (x.finish (if failure = "" then .closed else .failed) failure s.now)
  else return s

/-! ## Exchanges with the agent -/

/-- What an agent is asked to serve. -/
structure Assignment where
  sessionId : String
  vmSourceId : String
  vmName : String
  transport : Transport
  streamGeneration : Option String
  inputs : List InputEvent
  deriving DecidableEq

/-- A session of an actor without the permission is closed. -/
def revokedSession (x : ConsoleSession) (now : Time) : ConsoleSession :=
  x.finish .closed "requester_permission_revoked" now

/-- `_console_authority_allowed`, with the session it leaves. -/
def consoleAuthorityAllowed (x : ConsoleSession) : State × Bool :=
  if s.queuedActorAllowed x.tenant x.requestedBy .consoleControl then (s, true)
  else (s.saveSession (revokedSession x s.now), false)

/-- The row of an event that is handed out. -/
def handOut (ids : List String) (now : Time) (event : InputEvent) : InputEvent :=
  if event.id ∈ ids then { event with deliveredAt := some now } else event

theorem handOut_id (ids : List String) (now : Time) (event : InputEvent) :
    (handOut ids now event).id = event.id := by
  unfold handOut
  split <;> rfl

def consoleAssignment (x : ConsoleSession) (includeInputs : Bool) : State × Option Assignment :=
  match s.consoleAuthorityAllowed x with
  | (t, false) => (t, none)
  | (_, true) =>
    if x.transport = .vmconnect then
      (s, some ⟨x.id, x.vmSourceId, x.vmName, x.transport, x.streamGeneration, []⟩)
    else
      let events := if includeInputs then (s.inputQueue x.id).take 64 else []
      let ids := events.map InputEvent.id
      let inputs := s.inputs.mapRows (handOut ids s.now) (handOut_id ids s.now)
      ({ s with inputs }, some ⟨x.id, x.vmSourceId, x.vmName, x.transport, none, events⟩)

/-- `FAILURE_CODE_PATTERN`. -/
def validFailure (code : String) : Bool :=
  decide (1 ≤ code.toList.length) && decide (code.toList.length ≤ 64) && code.toList.all fun c =>
    decide ('a' ≤ c) && decide (c ≤ 'z') || c.isDigit || c == '_'

/-- Delete the events of a session that the agent acknowledges. -/
def acknowledge (session : String) (ids : List String) : State :=
  { s with inputs := ⟨s.inputs.rows.filter fun event => !(event.session == session && ids.contains event.id),
    s.inputs.nodup.sublist (List.filter_sublist.map _)⟩ }

/-- A picture as the agent reports it: its size, and its bytes if they decode. -/
structure FrameReport where
  width : Int
  height : Int
  png : Option Bytes

/-- What an agent reports about a session over the frame channel. -/
structure FrameCycle where
  sessionId : String
  frame : Option FrameReport
  /-- the acknowledged identifiers, if they are a list of texts -/
  acknowledged : Option (List String)
  failureCode : String
  includeInputs : Bool

/-- The reported session with its contact, failure or picture. -/
def contacted (x : ConsoleSession) (c : FrameCycle) : Except ServerError ConsoleSession :=
  let x := { x with lastAgentContactAt := some s.now }
  if c.failureCode ≠ "" then do
    throwIf (validFailure c.failureCode = false) (invalid "The console failure code is invalid.")
    return x.finish .failed c.failureCode s.now
  else match c.frame with
    | none => return x
    | some f => do
      throwIf (f.width < 160 ∨ 1920 < f.width ∨ f.height < 120 ∨ 1200 < f.height)
        (invalid "The console frame dimensions are invalid.")
      let png ← found f.png (invalid "The console frame is invalid.")
      let x := { x with frame := ⟨x.frame.sequence + 1, f.width, f.height, png⟩ }
      if x.status = .requested then
        return { x with status := .active, connectedAt := some s.now }
      else return x

/-- The report of `process_console_cycle` about a session. -/
def reportSession (e : Enrollment) (c : FrameCycle) : Except ServerError State := do
  let x ← found ((s.sessions.get? c.sessionId).filter fun x =>
    x.enrollment == e.id && x.tenant == e.tenant) (invalid "The console session identity is invalid.")
  throwIf (x.transport = .vmconnect)
    (invalid "Native sessions require their authenticated byte stream.")
  let ids ← found (c.acknowledged.filter fun ids =>
    decide (ids.length ≤ 64) && ids.all fun id => id.toList.length == 36)
    (invalid "The console input acknowledgement is invalid.")
  let s := s.acknowledge x.id ids
  if x.status.isOpen then
    match s.consoleAuthorityAllowed x with
    | (t, false) => return t
    | (t, true) => do
      let y ← t.contacted x c
      return t.saveSession y
  else return s

/-- The order in which an agent's sessions are served: the one it contacted longest ago first. -/
def servedBefore (x y : ConsoleSession) : Bool :=
  match x.lastAgentContactAt, y.lastAgentContactAt with
  | none, some _ => true
  | some _, none => false
  | some a, some b => decide (a < b) || a == b && decide (x.createdAt < y.createdAt)
  | none, none => decide (x.createdAt < y.createdAt)

/-- The session an agent serves next. -/
def nextSession (e : Enrollment) : Option ConsoleSession :=
  (s.sessions.rows.filter fun x =>
    x.enrollment == e.id && x.tenant == e.tenant && x.status.isOpen).foldl
    (fun best x => match best with
      | none => some x
      | some b => if servedBefore x b then some x else some b) none

def processConsoleCycle (e : Enrollment) (c : FrameCycle) :
    Except ServerError (State × Option Assignment) := do
  let _ ← s.requireActiveTenant e.tenant
  throwIf (c.includeInputs = false ∧ c.acknowledged ≠ some [])
    (invalid "The frame channel cannot acknowledge console inputs.")
  let t := s.expireStaleSessions fun _ => true
  let t ← if c.sessionId = "" then pure t else t.reportSession e c
  match t.nextSession e with
  | none => return (t, none)
  | some x => return t.consoleAssignment x c.includeInputs

/-- What an agent reports over the input channel.  The identifiers are in the form `uuid.UUID` gives
them, where it reads them all. -/
structure InputCycle where
  sessionId : String
  acknowledged : List String
  readable : Bool
  failureCode : String
  expireStale : Bool

/-- The checks of `process_console_input_cycle`. -/
def checkInputCycle (c : InputCycle) : Except ServerError Unit := do
  throwIf (64 < c.acknowledged.length) (invalid "The console input acknowledgement is invalid.")
  throwIf (c.readable = false) (invalid "The console input identity is invalid.")
  throwIf (c.failureCode ≠ "" ∧ validFailure c.failureCode = false)
    (invalid "The console failure code is invalid.")
  throwIf (c.sessionId = "" ∧ (c.acknowledged ≠ [] ∨ c.failureCode ≠ ""))
    (invalid "A console input result requires its session identity.")

/-- A session that takes input from the queue. -/
def takesInput (e : Enrollment) (x : ConsoleSession) : Bool :=
  x.enrollment == e.id && x.tenant == e.tenant && x.status.isOpen &&
    decide (s.now ≤ x.leaseExpiresAt) && x.transport == .thumbnail

/-- Whether any session of the agent takes input. -/
def inputActive (e : Enrollment) : Bool := s.sessions.rows.any (s.takesInput e)

/-- The result of a batch: the acknowledged events are gone, and a failure ends the session. -/
def settleInput (e : Enrollment) (c : InputCycle) : Except ServerError State := do
  let x ← found ((s.sessions.get? c.sessionId).filter fun x =>
    x.enrollment == e.id && x.tenant == e.tenant) (invalid "The console session identity is invalid.")
  throwIf (x.transport ≠ .thumbnail) (invalid "Native input requires the bound native stream.")
  let s := s.acknowledge x.id c.acknowledged
  if c.failureCode ≠ "" ∧ x.status.isOpen = true then
    return s.saveSession (x.finish .failed c.failureCode s.now)
  else return s

/-- The session with the oldest event of those that take input. -/
def pendingSession (e : Enrollment) : Option ConsoleSession :=
  ((s.inputs.rows.filter fun event =>
      (s.sessions.get? event.session).any (s.takesInput e)).insertionSort
    fun a b => inputBefore a b = true).head?.bind fun event => s.sessions.get? event.session

def processConsoleInputCycle (e : Enrollment) (c : InputCycle) :
    Except ServerError (State × Bool × Option Assignment) := do
  let _ ← s.requireActiveTenant e.tenant
  checkInputCycle c
  let t := if c.expireStale then
    s.expireStaleSessions fun x => x.enrollment == e.id && x.tenant == e.tenant else s
  if c.sessionId ≠ "" then do
    let u ← t.settleInput e c
    return (u, u.inputActive e, none)
  else match t.pendingSession e with
    | none => return (t, t.inputActive e, none)
    | some x =>
      let (u, assignment) := t.consoleAssignment x true
      return (u, u.inputActive e, assignment)

end State

end Ipms.Server.HyperV
