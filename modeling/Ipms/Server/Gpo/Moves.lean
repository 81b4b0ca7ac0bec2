import Ipms.Server.Gpo.System

/-
  Ipms.Server.Gpo.Moves

  What one event can do to the tables, said once.  Every request is a chain of
  small moves: a job is approved, claimed, ended or settled, a policy is made or
  moved by a success, a record of an editor is changed.  Each move carries what
  the source checked right before it.
-/

namespace Ipms.Server.Gpo

open Ipms.Lib Ipms.ManagementJson
open Ipms.Agent.Gpo (Job ManagedJob Operation)

/-! ## New jobs -/

/-- The revisions an assignment was made under are those of the records: of its domain, and of its
override unless it takes away what an earlier revision prepared. -/
structure Db.RevisionsStand (db : Db) (job : GpoImportJob) : Prop where
  scope : ∃ config, db.domains.get? job.domain = some config ∧ config.tenant = job.tenant ∧
    config.revision = job.assignment.core.scopeRevision
  override : ∀ a o, job.assignment = .managed a → a.override = some o →
    a.intendedOperation ≠ .deactivateManagedGpo → a.intendedOperation ≠ .deleteManagedGpo →
    ∃ row, db.overrides.get? o.overrideId = some row ∧ row.tenant = job.tenant ∧
      row.revision = o.overrideRevision

/-- The managed policy of an assignment has the revision and the GPO the assignment names. -/
def Db.PolicyStands (db : Db) (job : GpoImportJob) (a : ManagedJob) : Prop :=
  ∃ policy, db.policyForJob job = some policy ∧ policy.revision = a.managedRevision ∧
    policy.gpoGuid = a.gpoGuid

/-- A job as it is created. -/
structure NewJob (db : Db) (job : GpoImportJob) : Prop where
  waiting : job.status = .queued ∧ job.inspecting = true ∨
    job.status = .awaitingApproval ∧ job.isPortal = true
  unclaimed : job.claimedAt = none
  unapproved : job.approvedAt = none
  blank : job.gpoGuid = "" ∧ job.resultDigest = ""
  idle : ∀ k ∈ db.jobs.rows, k.tenant = job.tenant → k.domainGuid = job.domainGuid →
    k.status.active = false
  revisions : db.RevisionsStand job
  policy : ∀ a, job.assignment = .managed a → db.PolicyStands job a

/-! ## Steps of a job -/

/-- What a claim rests on: the scope of the job, and for a portal job its approval. -/
structure Claimable (c : Content) (now : Time) (db : Db) (j : GpoImportJob) : Prop where
  waiting : j.status.preExecution = true
  writes : j.inspecting = false
  inTime : now < j.expiresAt
  authority : ∃ tenant enrollment, db.tenants.get? j.tenant = some tenant ∧
    db.enrollments.get? j.enrollment = some enrollment ∧
    db.scopeCurrent now c j enrollment tenant = true ∧
    (j.isPortal = true → db.approvalCurrent now j tenant = true)

/-- A step of a job that leaves its policy alone. -/
inductive JobStep (c : Content) (now : Time) (db : Db) (j : GpoImportJob) : GpoImportJob → Prop where
  | approved {tenant : Tenant} {enrollment : AgentEnrollment} {user : Nat}
      {value : Agent.Gpo.Approval} :
      db.tenants.get? j.tenant = some tenant →
      db.enrollments.get? j.enrollment = some enrollment →
      db.approvalBlocker now j tenant user = none →
      db.scopeCurrent now c j enrollment tenant = true →
      db.approvalObject (j.approve user (wholeSeconds now)) = some value →
      JobStep c now db j
        { j.approve user (wholeSeconds now) with approvalDigest := digest value.toJson }
  | awaiting {code : String} :
      j.status.preExecution = true → j.approvedAt = none →
      JobStep c now db j { j with status := .awaitingApproval, errorCode := code }
  | claimed : Claimable c now db j → JobStep c now db j (j.claim now)
  | closed {d : ResultDocument} {r : GeneralResult} :
      closesPrepared j r = true → JobStep c now db j { j with resultDigest := d.digest }

/-- A step that ends a job, or asks for reconciliation. -/
inductive JobEnd (c : Content) (now : Time) (j : GpoImportJob) : GpoImportJob → Prop where
  | ended {status : JobStatus} {code : String} :
      j.status.active = true → j.status ≠ .reconciliationRequired →
      status = .expired ∨ status = .failed →
      JobEnd c now j (j.endUnlessClaimed status code now)
  | settled {d : ResultDocument} {r : GeneralResult} :
      j.status.terminal = false → readResult j d = .ok r → r.status.awaiting = false →
      (∀ a, j.assignment = .managed a → reportsSuccess d = .ok false) →
      JobEnd c now j (j.settle d r now)

/-- What a recorded success rests on. -/
structure Receivable (c : Content) (now : Time) (db : Db) (j : GpoImportJob) (a : ManagedJob)
    (policy : ManagedGpoPolicy) (status : JobStatus) (code : String) (d : ResultDocument) : Prop where
  assignment : j.assignment = .managed a
  success : success a.operation = some (status, code)
  document : d.status = .str status.text ∧ d.resultCode = .str code
  ready : checkReceiving c db now j a = .ok ()
  effect : postcondition c a d.evidence d.gpoGuid = .ok ()
  found : db.policyForJob j = some policy
  revision : policy.revision = a.managedRevision

/-- What a release rests on. -/
structure Releasable (c : Content) (now : Time) (db : Db) (record : GpoReconciliation)
    (j : GpoImportJob) (tenant : Tenant) : Prop where
  found : db.reconciliations.get? record.id = some record
  about : record.job = j.id
  tenantFound : db.tenants.get? j.tenant = some tenant
  pending : record.status = .acceptRequested
  inTime : now < record.expiresAt
  authority : db.reconciliationAuthority c now record j tenant true = none
  decision : decisionValid record j = true
  observation : db.observationBlocker c record j = none

/-! ## Moves -/

/-- Save a job that ended or asks for reconciliation, and its policy with it. -/
def Db.saveEnded (db : Db) (k : GpoImportJob) : Db :=
  let saved := { db with jobs := db.jobs.save k }
  if k.status = .reconciliationRequired then
    match saved.policyForJob k with
    | none => saved
    | some policy =>
      { saved with policies := saved.policies.save { policy with state := .reconciliationRequired } }
  else saved

/-- The policy a release leaves. -/
def ManagedGpoPolicy.release (policy : ManagedGpoPolicy) (guid : String) : ManagedGpoPolicy :=
  { policy with
    gpoGuid := guid, state := .new, stagedJob := none, activeJob := none
    revision := policy.revision + 1 }

/-- The tables a release leaves. -/
def Db.release (db : Db) (now : Time) (record : GpoReconciliation) (j : GpoImportJob)
    (policy : ManagedGpoPolicy) : Db :=
  { db with
    policies := db.policies.save (policy.release (observedGuid record))
    jobs := db.jobs.save { j with status := .reconciled }
    reconciliations :=
      db.reconciliations.save { record with status := .accepted, finalizedAt := some now } }

/-- One move of the tables.  Only an acknowledgement releases a job. -/
inductive Move (c : Content) (now : Time) (acked : Bool) : Db → Db → Prop where
  | job {db : Db} {j k : GpoImportJob} :
      db.jobs.get? j.id = some j → JobStep c now db j k →
      Move c now acked db { db with jobs := db.jobs.save k }
  | ended {db : Db} {j k : GpoImportJob} :
      db.jobs.get? j.id = some j → JobEnd c now j k → Move c now acked db (db.saveEnded k)
  | succeeded {db db' : Db} {j : GpoImportJob} {a : ManagedJob} {policy : ManagedGpoPolicy}
      {status : JobStatus} {code : String} {d : ResultDocument} :
      db.jobs.get? j.id = some j → Receivable c now db j a policy status code d →
      (receivePolicy c (j.succeed status d now) a policy d.evidence).exec
        { db with jobs := db.jobs.save (j.succeed status d now) } = .ok ((), db') →
      Move c now acked db db'
  | released {db : Db} {j : GpoImportJob} {record : GpoReconciliation} {tenant : Tenant}
      {policy : ManagedGpoPolicy} :
      acked = true → db.jobs.get? j.id = some j → Releasable c now db record j tenant →
      db.policyForJob j = some policy →
      (db.policies.rows.any (policy.release (observedGuid record)).conflicts) = false →
      Move c now acked db (db.release now record j policy)
  | made {db : Db} {job : GpoImportJob} {jobs : Table GpoImportJob String GpoImportJob.id} :
      NewJob db job → db.jobs.insert job = some jobs → Move c now acked db { db with jobs }
  | policyMade {db : Db} {policy : ManagedGpoPolicy}
      {policies : Table ManagedGpoPolicy String ManagedGpoPolicy.id} :
      policy.state = .new → policy.activeJob = none → policy.stagedJob = none →
      (db.policies.rows.any policy.conflicts) = false → db.policies.insert policy = some policies →
      Move c now acked db { db with policies }
  | draftDeleted {db : Db} {policy : ManagedGpoPolicy} :
      db.policies.get? policy.id = some policy → policy.gpoGuid = "" → policy.activeJob = none →
      (∀ k ∈ db.jobs.rows, k.tenant = policy.tenant → k.domainGuid = policy.domainGuid →
        k.status.active = false) →
      Move c now acked db { db with policies := db.policies.delete policy.id }
  | reconciliations {db : Db}
      (reconciliations : Table GpoReconciliation String GpoReconciliation.id) :
      Move c now acked db { db with reconciliations }
  | domainMade {db : Db} {config : DomainSecuritySettings}
      {domains : Table DomainSecuritySettings String DomainSecuritySettings.id} :
      db.domains.insert config = some domains → Move c now acked db { db with domains }
  | domainEdited {db : Db} {config : DomainSecuritySettings} (data : SettingsDocument) :
      db.domains.get? config.id = some config → data.domainName = config.domainName →
      Move c now acked db { db with domains := db.domains.save (config.edit data) }
  | ruleEdited {db : Db} (approvalPolicies : Table GpoApprovalPolicy String GpoApprovalPolicy.tenant) :
      Move c now acked db { db with approvalPolicies }
  | grantsEdited {db : Db}
      (authorizations : Table GpoDomainAuthorization String GpoDomainAuthorization.domain) :
      Move c now acked db { db with authorizations }
  | overrideMade {db : Db} {row : GpoOverride}
      {overrides : Table GpoOverride String GpoOverride.id} :
      db.overrides.insert row = some overrides → Move c now acked db { db with overrides }
  | overrideEdited {db : Db} {row edited : GpoOverride} :
      db.overrides.get? row.id = some row → edited.id = row.id → edited.tenant = row.tenant →
      Move c now acked db { db with overrides := db.overrides.save edited }
  | overrideDeleted {db : Db} {row : GpoOverride} :
      db.overrides.get? row.id = some row →
      (db.policies.rows.any fun p => p.override == some row.id) = false →
      Move c now acked db { db with overrides := db.overrides.delete row.id }
  | reported {db : Db} (reports : Table GpoExecutorReport String GpoExecutorReport.enrollment) :
      Move c now acked db { db with reports }
  | forgotten {db : Db} (user : Nat) : Move c now acked db (db.forget user)
  | surrounded {db : Db} (s : Surroundings) : Move c now acked db (db.surround s)

/-- A chain of moves. -/
abbrev Moved (c : Content) (now : Time) (acked : Bool) : Db → Db → Prop :=
  Relation.ReflTransGen (Move c now acked)

end Ipms.Server.Gpo
