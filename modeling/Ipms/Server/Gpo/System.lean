import Ipms.Lib.Run
import Ipms.Server.Gpo.Editors

/-
  Ipms.Server.Gpo.System

  The group-policy requests as the steps of one system: the exchanges of the
  agents, the requests and editors of the portal, and every change of what they
  only read.  A request is one transaction; a refused one commits nothing and is
  no step.
-/

namespace Ipms.Server.Gpo

open Ipms.Lib Ipms.ManagementJson

/-! ## Requests by name -/

def findTenant (id : String) : Request Tenant := do
  match (← get).tenants.get? id with
  | none => throw .notFound
  | some tenant => pure tenant

/-- `fresh_actor`: an active account of a tenant. -/
def freshActor (id : Nat) : Request User := do
  match (← get).users.get? id with
  | none => throw (.publicApiError "security_gpo_authentication_changed" 403)
  | some user => do
    throwIf (user.isActive = false ∨ user.isStaff = true ∨ user.isSuperuser = true)
      (.publicApiError "security_gpo_authentication_changed" 403)
    pure user

def findDomain (tenant : Tenant) (id : String) : Request DomainSecuritySettings := do
  match ((← get).domains.get? id).filter fun config => config.tenant == tenant.id with
  | none => throw .notFound
  | some config => pure config

def findJob (tenant : Tenant) (id : String) : Request GpoImportJob := do
  match ((← get).jobs.get? id).filter fun job => job.tenant == tenant.id with
  | none => throw .notFound
  | some job => pure job

/-- An override, or a custom policy, of the tenant. -/
def findOverride (tenant : Tenant) (custom : Bool) (id : String) : Request GpoOverride := do
  match ((← get).overrides.get? id).filter fun row =>
      row.tenant == tenant.id && row.custom == custom with
  | none => throw .notFound
  | some row => pure row

/-- `GpoApproveView.post`. -/
def approve (content : Content) (now : Time) (user : User) (job : GpoImportJob)
    (inputDigest : String) (policyRevision : Int) : Request Unit := do
  throwIf (inputDigest ≠ job.inputDigest ∨ policyRevision ≠ job.policyRevision)
    (.publicApiError "security_gpo_approval_changed" 409)
  approveJob content now job user.id

/-! ## What the requests only read -/

/-- The tables that others write. -/
structure Surroundings where
  tenants : Table Tenant String Tenant.id
  users : Table User Nat User.id
  memberships : List TenantMembership
  enrollments : Table AgentEnrollment String AgentEnrollment.id
  systems : Table WindowsServer String WindowsServer.id
  reports : Table GpoExecutorReport String GpoExecutorReport.enrollment
  maintenancePending : AgentEnrollment → WindowsServer → Bool
  retirements : List Retirement

/-- The database with other surroundings. -/
def Db.surround (db : Db) (s : Surroundings) : Db :=
  { db with
    tenants := s.tenants, users := s.users, memberships := s.memberships
    enrollments := s.enrollments, systems := s.systems, reports := s.reports
    maintenancePending := s.maintenancePending, retirements := s.retirements }

/-- A reference to an account that is deleted becomes null. -/
def forgetReference (user : Nat) (reference : Option Nat) : Option Nat :=
  if reference = some user then none else reference

/-- A job after an account is deleted. -/
def GpoImportJob.forget (user : Nat) (job : GpoImportJob) : GpoImportJob :=
  { job with
    requestedBy := forgetReference user job.requestedBy
    approvedBy := forgetReference user job.approvedBy }

/-- A reconciliation after an account is deleted. -/
def GpoReconciliation.forget (user : Nat) (record : GpoReconciliation) : GpoReconciliation :=
  { record with
    requestedBy := forgetReference user record.requestedBy
    acceptedBy := forgetReference user record.acceptedBy }

/-- The database after an account is deleted. -/
def Db.forget (db : Db) (user : Nat) : Db :=
  { db with
    jobs := db.jobs.mapRows (GpoImportJob.forget user) fun _ => rfl
    reconciliations := db.reconciliations.mapRows (GpoReconciliation.forget user) fun _ => rfl }

/-! ## Events -/

/-- A request of the portal by an account of a tenant. -/
inductive PortalRequest where
  | queueJob (domain : String) (data : ImportData)
  | preflight (domain : String) (data : PreflightData) (policyId : String)
  | change (domain : String) (data : ChangeData)
  | approve (job inputDigest : String) (policyRevision : Int)
  | createDomain (data : SettingsDocument) (id : String)
  | putDomain (domain : String) (data : SettingsDocument) (expectedRevision : Int)
  | putApprovalPolicy (fourEyesRequired : Bool) (expectedRevision : Int)
  | putAuthorization (domain : String) (grants : List Grant) (expectedRevision : Int)
  | createOverride (custom : Bool) (data : OverrideFields) (baselineId backupId id : String)
  | patchOverride (custom : Bool) (id : String) (data : OverrideFields) (expectedRevision : Int)
  | deleteOverride (custom : Bool) (id : String) (expectedRevision : Int)
  | deleteDraft (domain : String) (revision : Int) (managedId : String)
  | requestReconciliation (job id requestDigest : String)
  | acceptReconciliation (job id observationDigest : String)

/-- What may happen. -/
inductive Event where
  | exchange (enrollment : String) (message : Message)
  | portal (tenant : String) (user : Nat) (request : PortalRequest)
  /-- a listing of a tenant's jobs -/
  | listJobs (tenant : String)
  /-- a view of a job's reconciliations -/
  | viewReconciliations (tenant job : String)
  /-- a suspension, or a change of a membership or an enrollment -/
  | withdrawJobs (tenant : String) (actor : Option Nat) (enrollment : Option String)
      (reason : String)
  | forgetUser (user : Nat)
  | surround (surroundings : Surroundings)

def performPortal (c : Catalogue) (now : Time) (tenant : Tenant) (user : User) :
    PortalRequest → Request Unit
  | .queueJob domain data => do
    let config ← findDomain tenant domain
    let _ ← queueJob c now tenant user config data
  | .preflight domain data policyId => do
    let config ← findDomain tenant domain
    let _ ← createPreflight c now tenant user config data policyId
  | .change domain data => do
    let config ← findDomain tenant domain
    let _ ← createChange c now tenant user config data
  | .approve job inputDigest policyRevision => do
    let job ← findJob tenant job
    approve c.toContent now user job inputDigest policyRevision
  | .createDomain data id => createDomain c tenant data id
  | .putDomain domain data expectedRevision => do
    let config ← findDomain tenant domain
    putDomain c now tenant config data expectedRevision
  | .putApprovalPolicy fourEyesRequired expectedRevision =>
    putApprovalPolicy now tenant fourEyesRequired expectedRevision
  | .putAuthorization domain grants expectedRevision => do
    let config ← findDomain tenant domain
    putAuthorization now tenant config grants expectedRevision
  | .createOverride custom data baselineId backupId id =>
    createOverride c.toContent tenant custom data baselineId backupId id
  | .patchOverride custom id data expectedRevision => do
    let row ← findOverride tenant custom id
    patchOverride c.toContent now tenant row data expectedRevision
  | .deleteOverride custom id expectedRevision => do
    let row ← findOverride tenant custom id
    deleteOverride row expectedRevision
  | .deleteDraft domain revision managedId => do
    let config ← findDomain tenant domain
    deleteDraft now tenant user config revision managedId
  | .requestReconciliation job id requestDigest => do
    let job ← findJob tenant job
    requestReconciliation c.toContent now job tenant user.id id requestDigest
  | .acceptReconciliation job id observationDigest => do
    let job ← findJob tenant job
    acceptReconciliation c.toContent now job tenant user.id id observationDigest

/-- Perform an event; what an agent is answered is returned. -/
def perform (c : Catalogue) (now : Time) : Event → Request (Option Reply)
  | .exchange enrollment message => do
    let reply ← exchange c.toContent now enrollment message
    pure (some reply)
  | .portal tenant user request => do
    let tenant ← findTenant tenant
    let user ← freshActor user
    performPortal c now tenant user request
    pure none
  | .listJobs tenant => do
    expireJobs tenant now
    pure none
  | .viewReconciliations tenant job => do
    let tenant ← findTenant tenant
    let job ← findJob tenant job
    let _ ← projectReconciliation c.toContent now job tenant
    pure none
  | .withdrawJobs tenant actor enrollment reason => do
    withdrawGpoJobs tenant actor enrollment reason now
    pure none
  | .forgetUser user => do
    modify fun db => db.forget user
    pure none
  | .surround surroundings => do
    modify fun db => db.surround surroundings
    pure none

/-- An event that may release a job: the acknowledgement of a reconciliation. -/
def Event.acked : Event → Bool
  | .exchange _ message => message.acked
  | _ => false

/-! ## Steps -/

/-- An identifier no assignment names yet: a random UUID is drawn once. -/
def Db.Unnamed (db : Db) (id : String) : Prop :=
  ∀ job ∈ db.jobs.rows, job.assignment.core.scopeId ≠ id ∧
    ∀ a, job.assignment = .managed a → a.managedId ≠ id ∧ ∀ o, a.override = some o → o.overrideId ≠ id

/-- The identifiers a request draws. -/
def PortalRequest.drawn : PortalRequest → Option String
  | .preflight _ _ id | .createDomain _ id | .createOverride _ _ _ _ id => some id
  | _ => none

/-- The identifiers an event draws. -/
def Event.drawn : Event → Option String
  | .portal _ _ request => request.drawn
  | _ => none

/-- The tables and the time of the last event. -/
structure State where
  db : Db
  now : Time

/-- What happened, when, and what an agent was answered. -/
structure Label where
  event : Event
  time : Time
  reply : Option Reply

/-- A step of the system. -/
def Step (c : Catalogue) (s : State) (l : Label) (t : State) : Prop :=
  s.now ≤ l.time ∧ (∀ id ∈ l.event.drawn, s.db.Unnamed id) ∧
    (perform c l.time l.event).exec s.db = .ok (l.reply, t.db) ∧ t.now = l.time

/-- A control plane without group-policy records. -/
def State.Blank (s : State) : Prop :=
  s.db.jobs.rows = [] ∧ s.db.policies.rows = [] ∧ s.db.reconciliations.rows = [] ∧
    s.db.overrides.rows = []

end Ipms.Server.Gpo
