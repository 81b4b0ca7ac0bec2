import Ipms.Lib.Transaction
import Ipms.Server.Hgs.Plans

/-
  Ipms.Server.Hgs.Services

  The requests the control plane serves about Host Guardian Service plans, each
  one transaction over the plans, and everything else that may happen between
  two of them: maintenance of an agent, time, and changes of tenants, accounts,
  enrollments and systems.
-/

namespace Ipms.Server.Hgs

open Ipms.Lib Ipms.ManagementJson
open Ipms.Agent.Hgs (Operation)

/-! ## The state -/

/-- `AgentLifecycleJob.Status`. -/
inductive LifecycleStatus where
  | queued | delivered | running | succeeded | failed | cancelled
  deriving DecidableEq

/-- `ACTIVE_STATUSES` of a lifecycle job. -/
def LifecycleStatus.active : LifecycleStatus → Bool
  | queued | delivered | running => true
  | _ => false

structure AgentLifecycleJob where
  enrollment : String
  status : LifecycleStatus := .queued
  deriving DecidableEq

/-- The state of the control plane; `withdrawals` are the plans that a withdrawal has listed and
not fenced yet. -/
structure ControlPlane where
  now : Time
  directory : Directory
  lifecycle : List AgentLifecycleJob := []
  plans : Table HgsDeployment String HgsDeployment.id := Table.empty
  withdrawals : List (String × String) := []

/-- What a request returns. -/
inductive Reply where
  | done
  | accepted
  | job (assignment : Option Agent.Hgs.Job) (release : Option (String × String))
  deriving DecidableEq

/-- A transaction of the control plane. -/
abbrev Request.Txn (α : Type) := Lib.Txn ControlPlane ServerError α

/-- What a request with fresh identifiers reads. -/
def ControlPlane.request (s : ControlPlane) (runtime : Runtime) (uuid : Nat → String) : Request where
  runtime
  now := s.now
  directory := s.directory
  uuid
  taken id := s.plans.rows.any fun plan => plan.jobs.any (·.id == id)

/-- A plan with one of its jobs and the job's node. -/
structure Located where
  plan : HgsDeployment
  node : HgsNode
  job : HgsJob

/-- The jobs of the nodes of an enrollment in a tenant. -/
def ControlPlane.jobsOf (s : ControlPlane) (enrollment tenant : String) : List Located :=
  (s.plans.rows.filter (·.tenant == tenant)).flatMap fun plan =>
    plan.jobs.filterMap fun job =>
      ((plan.nodeOf job).filter (·.enrollment == enrollment)).map fun node => ⟨plan, node, job⟩

/-- `order_by("created_at").first()`. -/
def oldest (jobs : List Located) : Option Located :=
  jobs.foldl (fun found j => match found with
    | none => some j
    | some best => if j.job.createdAt < best.job.createdAt then some j else some best) none

/-- `order_by("-created_at").first()`. -/
def latest (jobs : List Located) : Option Located :=
  jobs.foldl (fun found j => match found with
    | none => some j
    | some best => if best.job.createdAt ≤ j.job.createdAt then some j else some best) none

section
variable (runtime : Runtime) (uuid : Nat → String)

/-- Save a plan over its row. -/
def savePlan (plan : HgsDeployment) : Request.Txn Unit :=
  modify fun s => { s with plans := s.plans.save plan }

/-- What the request reads. -/
def readRequest : Request.Txn Request := do return (← get).request runtime uuid

/-! ## New plans -/

/-- The node of a selected system. -/
def newNode (system : WindowsServer) (enrollment : Gpo.AgentEnrollment) (index : Nat) : HgsNode where
  id := uuid (index + 1)
  system := system.id
  enrollment := enrollment.id
  deviceUri := system.sourceId
  hostname := system.hostname
  ordinal := index
  role := if index = 0 then .primary else .additional

/-- The selected systems with their enrollments. -/
def selectedSystems (d : Directory) (tenant : Tenant) (ids : List String) :
    Option (List (WindowsServer × Option Gpo.AgentEnrollment)) :=
  ids.mapM fun id => (d.systems.find? fun s => s.tenant == tenant.id && s.id == id).map fun s =>
    (s, d.enrollments.find? fun e => e.tenant == tenant.id && e.deviceUri == s.sourceId)

/-- An enrollment is a node of a plan whose status is in `PLAN_ACTIVE`. -/
def reserved (plans : List HgsDeployment) (enrollment : String) : Bool :=
  plans.any fun plan => plan.status.active && plan.nodes.any (·.enrollment == enrollment)

/-- The row of a new plan. -/
def newPlan (req : Request) (tenant : Tenant) (user : Nat) (data : PlanDocument)
    (nodes : List HgsNode) : HgsDeployment :=
  let plan : HgsDeployment := {
    id := req.uuid 0
    tenant := tenant.id
    name := data.name
    profile := data.profile
    attestationMode := data.attestationMode
    domainName := data.domainName
    serviceName := data.serviceName
    config := data.config
    requestedBy := user
    planExpiresAt := req.now + planAge
    nodes }
  { plan with planDigest := req.runtime.digest plan.content }

def createPlan (tenant : Tenant) (user : Nat) (document : Value) : Request.Txn Unit := do
  let s ← get
  let req ← readRequest runtime uuid
  throwIf (tenant.purpose ≠ .hgs ∨ s.directory.manages s.now user tenant = false)
    (conflict "dedicated_tenant_required")
  let data ← Txn.ofExcept (validatePlan runtime.usableAddress document)
  match selectedSystems s.directory tenant data.nodeIds with
  | none => throw (conflict "node_selection_invalid")
  | some systems =>
    throwIf (s.plans.rows.any (fun plan => plan.tenant == tenant.id &&
      plan.domainName == data.domainName && plan.status != .failed && plan.status != .cancelled)
        = true) (conflict "domain_already_managed")
    throwIf (systems.any (fun (system, enrollment) => (eligible req system enrollment).isSome)
      = true) (conflict "node_unavailable")
    let enrolled := systems.filterMap fun (system, enrollment) => enrollment.map (system, ·)
    throwIf (enrolled.any (fun (_, e) => reserved s.plans.rows e.id) = true)
      (conflict "node_already_reserved")
    let nodes := enrolled.zipIdx.map fun ((system, e), index) => newNode uuid system e index
    throwIf (¬(nodes.map (·.enrollment)).Nodup ∨ ¬(nodes.map (·.id)).Nodup) .integrityError
    match s.plans.insert (newPlan req tenant user data nodes) with
    | none => throw .integrityError
    | some plans => set { s with plans }

/-- The tenant of a request that writes, and its plan. -/
def openPlan (tenantId : String) (user : Nat) (planId : String) :
    Request.Txn (Tenant × HgsDeployment) := do
  let s ← get
  let tenant ← Txn.ofExcept (s.directory.tenant tenantId)
  throwIf (s.directory.manages s.now user tenant = false) (.permissionDenied "")
  match (s.plans.get? planId).filter (·.tenant == tenant.id) with
  | none => throw .notFound
  | some plan => return (tenant, plan)

/-- What an action of the portal asks of a plan. -/
inductive PlanAction where
  | inspect | reconcile | cancel
  | execute (document : Value)
  | resolve (document : Value)

def PlanAction.service (action : PlanAction) (req : Request) (tenant : Tenant) (user : Nat)
    (plan : HgsDeployment) : Except ServerError HgsDeployment :=
  match action with
  | .inspect => requestInspection req tenant (some user) false plan
  | .reconcile => requestInspection req tenant (some user) true plan
  | .cancel => Hgs.cancel req plan
  | .execute document => authorize req tenant user document plan
  | .resolve document => Hgs.resolve req tenant user document plan

/-- `HgsActionView.post`. -/
def actOnPlan (tenantId : String) (user : Nat) (planId : String) (action : PlanAction) :
    Request.Txn Unit := do
  let (tenant, plan) ← openPlan tenantId user planId
  let req ← readRequest runtime uuid
  let plan ← Txn.ofExcept (action.service req tenant user plan)
  savePlan plan

/-! ## Exchanges with an agent -/

/-- The document of an exchange. -/
inductive ExchangeDocument where
  | poll
  | claim (jobId planDigest : String)
  | result (jobId planDigest : String) (result : Value)

/-- The members of an exchange in a mode. -/
def exchangeKeys (mode : String) : List String :=
  ["type", "device_uri", "mode"] ++
    if mode = "poll" then ["agent_version", "hgs_provider_version"]
    else if mode = "result" then ["job_id", "plan_digest", "result"]
    else ["job_id", "plan_digest"]

/-- The job that a claim or a result names. -/
def namedJob (document : Value) : Option (String × String) := do
  let jobId ← document.str? "job_id"
  let planDigest ← document.str? "plan_digest"
  if uuidText jobId then some (jobId, planDigest) else none

/-- The checks of an exchange's document. -/
def readExchange (deviceUri : String) (document : Value) : Except ServerError ExchangeDocument :=
  match document with
  | .obj members =>
    match document.str? "mode" with
    | none => .error rejected
    | some mode => do
      throwIf (¬(mode = "poll" ∨ mode = "claim" ∨ mode = "result") ∨
        keysAre members (exchangeKeys mode) = false ∨
        document.get? "type" ≠ some (.str "hgs") ∨
        document.get? "device_uri" ≠ some (.str deviceUri)) rejected
      if mode = "poll" then
        throwIf (document.get? "hgs_provider_version" ≠ some (.int 1) ∨
          ((document.str? "agent_version").any (text · 1 32)) = false) rejected
        return .poll
      else match namedJob document with
        | none => throw rejected
        | some (jobId, planDigest) =>
          if mode = "claim" then return .claim jobId planDigest
          else return .result jobId planDigest ((document.get? "result").getD .null)
  | _ => .error rejected

def exchangeParties (authenticated : Gpo.AgentEnrollment) :
    Request.Txn (Tenant × Gpo.AgentEnrollment) := do
  let s ← get
  let tenant ← Txn.ofExcept (s.directory.tenant authenticated.tenant)
  let enrollment ← Txn.ofExcept (s.directory.enrollment authenticated.id)
  throwIf (enrollment.platform ≠ .windows ∨ enrollment.status ≠ .active ∨
    enrollment.deviceUri ≠ authenticated.deviceUri ∨ enrollment.tenant ≠ tenant.id) rejected
  return (tenant, enrollment)

def pollResponse (enrollment : Gpo.AgentEnrollment) (assignment : Option Agent.Hgs.Job) :
    Request.Txn Reply := do
  let s ← get
  let released := latest ((s.jobsOf enrollment.id enrollment.tenant).filter
    (·.job.reconciliationRelease.isSome))
  return .job assignment (released.bind fun l =>
    l.job.reconciliationRelease.map fun r => (r.jobId, r.planDigest))

/-- Why an assignment is not handed out: its plan is fenced with this code. -/
def refusal (req : Request) (tenant : Tenant) (l : Located) : Except ServerError (Option String) := do
  if !(← liveIdentity req l.node tenant) || !authorityCurrent req tenant l.plan l.job then
    return some "authority_withdrawn"
  else if l.job.assignment ≠
      l.plan.assignmentOf l.node l.job.id l.job.operation l.job.expiresAt then
    return some "assignment_changed"
  else return none

/-- The enrollment has an active lifecycle job. -/
def ControlPlane.maintained (s : ControlPlane) (enrollment : String) : Bool :=
  s.lifecycle.any fun j => j.enrollment == enrollment && j.status.active

/-- Hand out the assignment of a job, unless its authority is withdrawn or its agent is maintained. -/
def handOut (tenant : Tenant) (enrollment : Gpo.AgentEnrollment) (l : Located)
    (hand : Request → Request.Txn Reply) : Request.Txn Reply := do
  let s ← get
  let req ← readRequest runtime uuid
  match ← Txn.ofExcept (refusal req tenant l) with
  | some code =>
    savePlan (fence req.now code l.plan)
    return .job none none
  | none => if s.maintained enrollment.id then return .job none none else hand req

/-- A poll: a queued job is offered. -/
def poll (tenant : Tenant) (enrollment : Gpo.AgentEnrollment) : Request.Txn Reply := do
  let s ← get
  if tenant.purpose ≠ .hgs ∨ tenant.status ≠ .active then return .job none none
  else match oldest ((s.jobsOf enrollment.id tenant.id).filter (·.job.status.active)) with
    | none => pollResponse enrollment none
    | some l => handOut runtime uuid tenant enrollment l fun req => do
      if l.job.status = .queued then
        savePlan (l.plan.saveJob { l.job with status := .offered, offeredAt := some req.now })
      pollResponse enrollment (some l.job.assignment)

/-- The job that a claim or a result names, among those of the agent. -/
def findJob (tenant : Tenant) (enrollment : Gpo.AgentEnrollment) (jobId planDigest : String) :
    Request.Txn Located := do
  let s ← get
  match (s.jobsOf enrollment.id tenant.id).find? (·.job.id == jobId) with
  | none => throw rejected
  | some l =>
    throwIf (planDigest ≠ l.job.assignment.planDigest) rejected
    return l

/-- A claim: a queued or offered job runs from now on. -/
def claim (tenant : Tenant) (enrollment : Gpo.AgentEnrollment) (jobId planDigest : String) :
    Request.Txn Reply := do
  let l ← findJob tenant enrollment jobId planDigest
  handOut runtime uuid tenant enrollment l fun req => do
    if l.job.status.unclaimed then
      savePlan (l.plan.saveJob { l.job with status := .running, claimedAt := some req.now })
      return .job (some l.job.assignment) none
    else if l.job.status.claimed then return .job (some l.job.assignment) none
    else return .job none none

/-- The plan of a job whose result arrives: it is fenced when its authority is no longer current. -/
def resultPlan (req : Request) (tenant : Tenant) (l : Located) : HgsDeployment :=
  if !authorityCurrent req tenant l.plan l.job && !l.plan.revoked && l.job.status.claimed then
    fence req.now "authority_withdrawn" l.plan
  else l.plan

def result (tenant : Tenant) (enrollment : Gpo.AgentEnrollment) (jobId planDigest : String)
    (document : Value) : Request.Txn Reply := do
  let l ← findJob tenant enrollment jobId planDigest
  let req ← readRequest runtime uuid
  if l.job.status.terminal ∧ l.job.receipt.isSome then
    savePlan (← Txn.ofExcept (acceptResult req l.plan l.node l.job document))
    return .accepted
  else
    -- a suspended tenant does not keep a late receipt out
    let live ← Txn.ofExcept (liveIdentity req l.node { tenant with purpose := .hgs, status := .active })
    throwIf (live = false) rejected
    let plan := resultPlan req tenant l
    savePlan (← Txn.ofExcept (acceptResult req plan l.node l.job document))
    return .accepted

def hgsExchange (authenticated : Gpo.AgentEnrollment) (document : Value) : Request.Txn Reply := do
  let request ← Txn.ofExcept (readExchange authenticated.deviceUri document)
  let (tenant, enrollment) ← exchangeParties authenticated
  match request with
  | .poll => poll runtime uuid tenant enrollment
  | .claim jobId planDigest => claim runtime uuid tenant enrollment jobId planDigest
  | .result jobId planDigest document => result runtime uuid tenant enrollment jobId planDigest document

/-! ## Withdrawals -/

/-- The filters of a withdrawal. -/
structure Withdrawal where
  tenant : Option String := none
  actor : Option Nat := none
  enrollment : Option String := none
  reason : String := "authority_withdrawn"

/-- A plan that a withdrawal is about. -/
def Withdrawal.covers (w : Withdrawal) (plan : HgsDeployment) : Bool :=
  plan.status.active && w.tenant.all (plan.tenant == ·) &&
    w.actor.all (fun user => plan.requestedBy == user || plan.approvedBy == some user ||
      plan.jobs.any fun j => j.requestedBy == some user && j.status.active) &&
    w.enrollment.all fun e => plan.nodes.any (·.enrollment == e)

/-- `withdraw_hgs_jobs`: the plans are listed first. -/
def withdraw (w : Withdrawal) : Request.Txn Unit :=
  modify fun s => { s with withdrawals :=
    s.withdrawals ++ (s.plans.rows.filter w.covers).map fun plan => (plan.id, w.reason) }

/-- Then each of them is fenced in a transaction of its own. -/
def withdrawNext (index : Nat) : Request.Txn Unit := do
  let s ← get
  match s.withdrawals[index]? with
  | none => pure ()
  | some (planId, reason) =>
    set { s with withdrawals := s.withdrawals.eraseIdx index }
    match s.plans.get? planId with
    | none => throw .notFound
    | some plan => savePlan (fence s.now reason plan)

/-- `create_lifecycle_job`; `blocked` is whether Hyper-V or group-policy operations stand against it. -/
def createLifecycleJob (enrollmentId : String) (blocked : Bool) : Request.Txn Unit := do
  let s ← get
  let enrollment ← Txn.ofExcept (s.directory.enrollment enrollmentId)
  let tenant ← Txn.ofExcept (s.directory.tenant enrollment.tenant)
  throwIf (tenant.status ≠ .active) (.validationError "The tenant is not active.")
  throwIf (s.plans.rows.any (fun plan => (plan.status == .inspecting || plan.status.executing) &&
      plan.nodes.any (·.enrollment == enrollmentId)) = true)
    (.validationError "An HGS operation must settle before Agent maintenance.")
  throwIf (blocked = true) (.validationError "An operation must settle before Agent maintenance.")
  throwIf (enrollment.status ≠ .active) (.validationError "The Agent enrollment is not active.")
  throwIf (s.maintained enrollmentId = true)
    (.validationError "An Agent lifecycle job is already active.")
  set { s with lifecycle := s.lifecycle ++ [({ enrollment := enrollmentId } : AgentLifecycleJob)] }

/-- A lifecycle job goes on, or ends. -/
def advanceLifecycle (index : Nat) (status : LifecycleStatus) : Request.Txn Unit := do
  let s ← get
  match s.lifecycle[index]? with
  | none => throw .notFound
  | some job =>
    throwIf (job.status.active = false) (.validationError "The Agent lifecycle job is unavailable.")
    set { s with lifecycle := s.lifecycle.set index { job with status } }

/-- What may happen. -/
inductive Action where
  | createPlan (tenant : String) (user : Nat) (document : Value)
  | act (tenant : String) (user : Nat) (plan : String) (action : PlanAction)
  | exchange (authenticated : Gpo.AgentEnrollment) (document : Value)
  | withdraw (w : Withdrawal)
  | withdrawNext (index : Nat)
  | createLifecycle (enrollment : String) (blocked : Bool)
  | advanceLifecycle (index : Nat) (status : LifecycleStatus)
  | pass (time : Nat)
  | change (directory : Directory)

def perform : Action → Request.Txn Reply
  | .createPlan tenantId user document => do
    let s ← get
    let tenant ← Txn.ofExcept (s.directory.tenant tenantId)
    throwIf (s.directory.manages s.now user tenant = false) (.permissionDenied "")
    createPlan runtime uuid tenant user document
    return .done
  | .act tenantId user planId action => do
    actOnPlan runtime uuid tenantId user planId action
    return .done
  | .exchange authenticated document => hgsExchange runtime uuid authenticated document
  | .withdraw w => do
    Hgs.withdraw w
    return .done
  | .withdrawNext index => do
    Hgs.withdrawNext index
    return .done
  | .createLifecycle enrollmentId blocked => do
    createLifecycleJob enrollmentId blocked
    return .done
  | .advanceLifecycle index status => do
    Hgs.advanceLifecycle index status
    return .done
  | .pass time => do
    modify fun s => { s with now := s.now + time }
    return .done
  | .change directory => do
    modify fun s => { s with directory }
    return .done

end

/-- An action with the identifiers it gets and what it returns. -/
structure Event where
  action : Action
  uuid : Nat → String
  reply : Reply

/-- One step: an action that commits. -/
def Step (runtime : Runtime) (s : ControlPlane) (e : Event) (s' : ControlPlane) : Prop :=
  (perform runtime e.uuid e.action).exec s = .ok (e.reply, s')

end Ipms.Server.Hgs
