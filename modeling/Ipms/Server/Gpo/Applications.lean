import Ipms.Server.GroupPolicy.Report
import Ipms.Server.Gpo.Preflights

/-
  Ipms.Server.Gpo.Applications

  The GPOs that carry a component of a baseline, as the application view
  associates them.  A legacy pilot is associated through its staged receipt, a
  managed policy through its activation; nothing is stored, every association is
  read from the jobs and the policies again.
-/

namespace Ipms.Server.Gpo

open Ipms.Lib Ipms.ManagementJson
open Ipms.Agent.Gpo (Job ManagedJob JobCore seconds)
open Ipms.Server.GroupPolicy (canonicalGuid canonicalDomain utcTimestamp)

/-! ## Instants -/

/-- The days before a year of the calendar. -/
def daysBeforeYear (year : Nat) : Nat :=
  (year - 1) * 365 + (year - 1) / 4 - (year - 1) / 100 + (year - 1) / 400

def daysBeforeMonth (year month : Nat) : Nat :=
  (((List.range month).drop 1).map fun m => daysInMonth year m).sum

/-- The instant of a time of the calendar, in microseconds from 1970 on. -/
def instant (t : Datetime) : Time :=
  let days := daysBeforeYear t.day.year + daysBeforeMonth t.day.year t.day.month + (t.day.day - 1)
  ((days : Int) - daysBeforeYear 1970) * dayLength + t.micros

example : (utcTimestamp (.str "2026-09-10T10:30:45Z")).map instant = some 1789036245000000 := by
  decide +kernel

/-! ## Trusted pilots -/

/-- The component of a baseline an association is about, in its domain. -/
structure AppliedComponent where
  domainGuid : String
  domainDnsName : String
  baselineId : String
  backupId : String
  deriving DecidableEq

/-- The component an assignment imports. -/
def GpoImportJob.component (job : GpoImportJob) : AppliedComponent where
  domainGuid := job.domainGuid
  domainDnsName := job.assignment.core.domainDnsName
  baselineId := job.assignment.core.baselineId
  backupId := job.assignment.core.backupId

/-- The rows a job refers to are those of the tenant, and its system is the agent's own. -/
def Db.tenantRows (db : Db) (tenant : String) (job : GpoImportJob) : Bool :=
  match db.domains.get? job.domain, db.enrollments.get? job.enrollment,
      db.systems.get? job.system with
  | some config, some enrollment, some system =>
    config.tenant == tenant && enrollment.tenant == tenant && system.tenant == tenant &&
      system.sourceId == enrollment.deviceUri
  | _, _, _ => false

/-- The executor of a pilot is a Windows agent, and its domain is the configured one. -/
def Db.pilotExecutor (db : Db) (job : GpoImportJob) : Bool :=
  match db.domains.get? job.domain, db.enrollments.get? job.enrollment,
      db.systems.get? job.system with
  | some config, some enrollment, some system =>
    enrollment.platform == .windows && system.inventorySource == "agent" &&
      canonicalDomain (.str job.assignment.core.domainDnsName) == some config.domainName
  | _, _, _ => false

/-- A staged job names a GPO that is no default one, in its domain. -/
def stagedIdentity (job : GpoImportJob) : Bool :=
  job.status == .staged && job.errorCode == "" && !defaultGpoIds.contains job.gpoGuid &&
    (canonicalGuid (.str job.gpoGuid)).isSome && (canonicalGuid (.str job.domainGuid)).isSome

/-- The assignment of a pilot is the one of its row, and it was claimed in time. -/
def pilotAssigned (job : GpoImportJob) (a : JobCore) : Bool :=
  a.operation == .createUnlinkedPilot && a.jobId == job.id && a.scopeId == job.domain &&
    decide (1 ≤ a.scopeRevision) && [0, 1, 2].contains a.targetTier &&
    a.domainGuid == job.domainGuid && a.pilotDisplayName == job.pilotDisplayName &&
    a.inputDigest == job.inputDigest &&
    digest (undigested job.assignment.toJson) == job.inputDigest &&
    ((utcTimestamp (.str a.expiresAt)).any fun expires =>
      job.claimedAt.any fun claimedAt => decide (claimedAt < instant expires)) &&
    (canonicalDomain (.str a.forestDnsName)).isSome &&
    (canonicalDomain (.str a.executorDcFqdn)).isSome

/-- The pinned component of a pilot is one for computers. -/
def pilotComponent (c : Content) (a : JobCore) : Bool :=
  ((c.components a.baselineId a.backupId).any fun component =>
      component.scope == .machine && component.artifactSha256 == a.artifactSha256) &&
    (c.profileComponents a.baselineId a.profile).contains a.backupId

/-- The receipt of a pilot is that of an unlinked, disabled GPO. -/
def pilotReceipt (job : GpoImportJob) : Bool :=
  job.resultEvidence == job.expectedEvidence &&
    digest (Db.receiptJson (.str "staged") (.str "gpo_staged_unlinked") (.str job.gpoGuid)
      job.resultEvidence) == job.resultDigest

def Db.trustedComponent (db : Db) (c : Content) (now : Time) (tenant : String)
    (job : GpoImportJob) : Option AppliedComponent :=
  match job.assignment with
  -- The fields of a managed assignment are no others than its own.
  | .managed _ => none
  | .pilot a _ =>
    if db.originApproved job && stagedIdentity job && originOrdered now job &&
        db.tenantRows tenant job && db.pilotExecutor job && pilotAssigned job a &&
        pilotComponent c a && pilotReceipt job then some job.component
    else none

/-- The approval of a job is the recorded one and the times of the job are in order. -/
def Db.activationApproved (db : Db) (now : Time) (job : GpoImportJob) : Bool :=
  match db.approvalObject job, job.approvedAt, job.claimedAt, job.completedAt with
  | some value, some approvedAt, some claimedAt, some completedAt =>
    digest value.toJson == job.approvalDigest &&
      decide (wholeSeconds job.requestedAt ≤ approvedAt) && decide (approvedAt ≤ claimedAt) &&
      decide (claimedAt ≤ completedAt) && decide (completedAt ≤ now) &&
      decide (claimedAt < job.expiresAt) &&
      (!job.fourEyesRequired || job.requestedBy != job.approvedBy)
  | _, _, _, _ => false

/-- The activation a policy names is its own. -/
def activationOf (policy : ManagedGpoPolicy) (job : GpoImportJob) (a : ManagedJob) : Bool :=
  policy.state == .active && job.status == .activated && job.errorCode == "" &&
    a.operation == .activateManagedGpo && a.managedId == policy.id &&
    a.domainGuid == policy.domainGuid && job.gpoGuid == policy.gpoGuid &&
    job.tenant == policy.tenant && job.domain == policy.domain && a.jobId == job.id &&
    a.inputDigest == job.inputDigest && digest (undigested a.toJson) == job.inputDigest

/-- The recorded effect of an activation is the approved one. -/
def activationReceipt (c : Content) (job : GpoImportJob) (a : ManagedJob) : Bool :=
  digest (Db.receiptJson (.str "activated") (.str "gpo_activated") (.str job.gpoGuid)
      job.resultEvidence) == job.resultDigest &&
    (postcondition c a job.resultEvidence (.str job.gpoGuid)).toOption.isSome

/-- `active_binding`, for the components of computers. -/
def Db.activeBinding (db : Db) (c : Content) (now : Time) (policy : ManagedGpoPolicy) :
    Option (AppliedComponent × GpoImportJob) := do
  let job ← policy.activeJob.bind db.jobs.get?
  match job.assignment with
  | .pilot _ _ => none
  | .managed a =>
    let component ← c.components a.baselineId a.backupId
    if activationOf policy job a && db.tenantRows policy.tenant job &&
        db.activationApproved now job && activationReceipt c job a &&
        component.scope == .machine && component.artifactSha256 == a.artifactSha256 then
      some (job.component, job)
    else none

/-! ## Associations -/

/-- An association of a GPO with a component, and when it was imported or activated. -/
structure Binding where
  component : AppliedComponent
  gpoGuid : String
  importedAt : Time
  deriving DecidableEq

/-- The policies of a tenant that own a GPO. -/
def Db.owners (db : Db) (tenant : String) : List ManagedGpoPolicy :=
  db.policies.rows.filter fun p => p.tenant == tenant && p.gpoGuid != ""

/-- A managed policy of the tenant owns the GPO. -/
def Db.owned (db : Db) (tenant domainGuid gpoGuid : String) : Bool :=
  (db.owners tenant).any fun p => p.domainGuid == domainGuid && p.gpoGuid == gpoGuid

/-- A job that is looked at as a pilot: it names a GPO that no policy owns, and is of another schema
than the third. -/
def Db.candidate (db : Db) (tenant : String) (job : GpoImportJob) : Bool :=
  job.tenant == tenant && job.gpoGuid != "" && job.assignment.schema != 3 &&
    !db.owned tenant job.domainGuid job.gpoGuid

/-- The order of the jobs: the newest first. -/
def newestFirst (j k : GpoImportJob) : Bool :=
  decide (k.requestedAt < j.requestedAt) ||
    j.requestedAt == k.requestedAt && decide (k.id ≤ j.id)

/-- The candidates, the newest first. -/
def Db.candidates (db : Db) (tenant : String) : List GpoImportJob :=
  (db.jobs.rows.filter (db.candidate tenant)).insertionSort fun j k => newestFirst j k = true

/-- The GPO a job names. -/
def GpoImportJob.directoryObject (job : GpoImportJob) : String × String :=
  (job.domainGuid, job.gpoGuid)

/-- An older job that makes the latest one ambiguous: it is not trusted, is of another component, or
was claimed or completed later. -/
def Db.ambiguous (db : Db) (c : Content) (now : Time) (tenant : String) (latest : GpoImportJob)
    (completedAt : Time) (older : GpoImportJob) : Bool :=
  let a := older.assignment.core
  let b := latest.assignment.core
  db.trustedComponent c now tenant older != db.trustedComponent c now tenant latest ||
    a.domainDnsName != b.domainDnsName || a.baselineId != b.baselineId ||
    a.backupId != b.backupId || a.artifactSha256 != b.artifactSha256 ||
    older.claimedAt.any (fun t => decide (completedAt < t)) ||
    older.completedAt.any (fun t => decide (completedAt < t))

/-- The association of the jobs that name one GPO, the newest first. -/
def Db.legacyBinding (db : Db) (c : Content) (now : Time) (tenant : String) :
    List GpoImportJob → Option Binding
  | [] => none
  | latest :: older => do
    let component ← db.trustedComponent c now tenant latest
    let completedAt ← latest.completedAt
    if older.any (db.ambiguous c now tenant latest completedAt) then none
    else some ⟨component, latest.gpoGuid, completedAt⟩

/-- The legacy part of `_bindings`. -/
def Db.legacyBindings (db : Db) (c : Content) (now : Time) (tenant : String) : List Binding :=
  let jobs := db.candidates tenant
  (jobs.map GpoImportJob.directoryObject).eraseDups.filterMap fun object =>
    db.legacyBinding c now tenant (jobs.filter fun j => j.directoryObject == object)

/-- The managed part of `_bindings`.  A sparse override never proves its source baseline. -/
def Db.managedBindings (db : Db) (c : Content) (now : Time) (tenant : String) : List Binding :=
  (db.owners tenant).filterMap fun policy =>
    if policy.override.isSome then none
    else do
      let (component, job) ← db.activeBinding c now policy
      let completedAt ← job.completedAt
      pure ⟨component, policy.gpoGuid, completedAt⟩

def Db.bindings (db : Db) (c : Content) (now : Time) (tenant : String) : List Binding :=
  db.legacyBindings c now tenant ++ db.managedBindings c now tenant

section
variable {db : Db} {c : Content} {now : Time} {tenant : String} {j k : GpoImportJob}

theorem Db.trustedComponent_eq_some {component : AppliedComponent}
    (h : db.trustedComponent c now tenant j = some component) :
    (∃ a portal, j.assignment = .pilot a portal) ∧ j.status = .staged ∧
      component = j.component := by
  unfold Db.trustedComponent at h
  split at h
  · cases h
  next a portal hassigned =>
  split at h
  next htrusted =>
    simp only [Bool.and_eq_true] at htrusted
    have hstaged : stagedIdentity j = true := htrusted.1.1.1.1.1.1.2
    simp only [stagedIdentity, Bool.and_eq_true, beq_iff_eq] at hstaged
    exact ⟨⟨a, portal, hassigned⟩, hstaged.1.1.1.1, (Option.some.inj h).symm⟩
  · cases h

/-- An association of jobs is that of the newest one, and every job among them is trusted for the
same component and was not claimed later. -/
theorem Db.legacyBinding_eq_some {jobs : List GpoImportJob} {b : Binding}
    (h : db.legacyBinding c now tenant jobs = some b) :
    ∃ latest ∈ jobs, latest.completedAt = some b.importedAt ∧ latest.gpoGuid = b.gpoGuid ∧
      ∀ job ∈ jobs, db.trustedComponent c now tenant job = some b.component := by
  cases jobs with
  | nil => cases h
  | cons latest older =>
    unfold Db.legacyBinding at h
    simp only [Option.bind_eq_bind, Option.bind_eq_some_iff] at h
    obtain ⟨component, htrusted, completedAt, hcompleted, h⟩ := h
    split at h
    · cases h
    rename_i hclear
    cases h
    refine ⟨latest, List.mem_cons_self, hcompleted, rfl, ?_⟩
    intro job hjob
    rcases List.mem_cons.mp hjob with rfl | hjob
    · exact htrusted
    · have hnot := List.any_eq_false.mp (by simpa using hclear) job hjob
      simp only [Db.ambiguous, Bool.or_eq_true, not_or, bne_iff_ne, ne_eq, not_not] at hnot
      rw [hnot.1.1.1.1.1.1, htrusted]

/-- The jobs of an association: its pilot, and no candidate that names its GPO is anything but a
trusted pilot of the same component. -/
theorem Db.mem_legacyBindings {b : Binding} (h : b ∈ db.legacyBindings c now tenant) :
    ∃ j ∈ db.jobs.rows, db.candidate tenant j = true ∧ j.completedAt = some b.importedAt ∧
      j.gpoGuid = b.gpoGuid ∧ db.trustedComponent c now tenant j = some b.component ∧
      ∀ k ∈ db.jobs.rows, db.candidate tenant k = true → k.domainGuid = j.domainGuid →
        k.gpoGuid = b.gpoGuid → db.trustedComponent c now tenant k = some b.component := by
  have hmem : ∀ k, k ∈ db.candidates tenant ↔ k ∈ db.jobs.rows ∧ db.candidate tenant k = true := by
    intro k
    unfold Db.candidates
    rw [List.mem_insertionSort, List.mem_filter]
  unfold Db.legacyBindings at h
  simp only [List.mem_filterMap] at h
  obtain ⟨object, -, hbinding⟩ := h
  obtain ⟨j, hj, hcompleted, hguid, htrusted⟩ := Db.legacyBinding_eq_some hbinding
  obtain ⟨hcandidate, hobject⟩ := List.mem_filter.mp hj
  obtain ⟨hrow, hselected⟩ := (hmem j).mp hcandidate
  refine ⟨j, hrow, hselected, hcompleted, hguid, htrusted j hj, ?_⟩
  intro k hk hkselected hdomain hkguid
  refine htrusted k (List.mem_filter.mpr ⟨(hmem k).mpr ⟨hk, hkselected⟩, ?_⟩)
  rw [← eq_of_beq hobject, beq_iff_eq]
  exact Prod.ext hdomain (hkguid.trans hguid.symm)

end

end Ipms.Server.Gpo
