import Ipms.Server.Gpo.Changes

/-
  Ipms.Server.Gpo.Editors

  The editors of what an assignment's authority rests on: domain settings, the
  approval rule, domain grants, overrides and local drafts.  Each edit withdraws
  the jobs it makes stale in the same transaction.
-/

namespace Ipms.Server.Gpo

open Ipms.Lib Ipms.ManagementJson
open Ipms.Agent.Gpo (OverrideEntry)

/-! ## Domains -/

/-- `DomainSettingsView.post`, under the fresh `id`. -/
def createDomain (c : Catalogue) (tenant : Tenant) (data : SettingsDocument) (id : String) :
    Request Unit := do
  let data ← Txn.ofExcept (validateSettings c data)
  let db ← get
  let rows := db.domains.rows.filter fun config => config.tenant == tenant.id
  throwIf (rows.any fun config => config.domainName == data.domainName)
    (.publicApiError "security_domain_exists" 409)
  throwIf (rows.length ≥ 100) (.publicApiError "security_domain_limit" 409)
  match db.domains.insert
      { id, tenant := tenant.id, domainName := data.domainName, revision := 1
        tierOus := data.tierOus, gpoNameTemplate := data.gpoNameTemplate
        baselineOrder := data.baselineOrder } with
  | none => throw .integrityError
  | some domains => set { db with domains }

/-- Settings with the fields of an accepted document. -/
def DomainSecuritySettings.edit (config : DomainSecuritySettings) (data : SettingsDocument) :
    DomainSecuritySettings :=
  { config with
    domainName := data.domainName, tierOus := data.tierOus
    gpoNameTemplate := data.gpoNameTemplate, baselineOrder := data.baselineOrder
    revision := config.revision + 1 }

/-- `DomainSettingView.put`. -/
def putDomain (c : Catalogue) (now : Time) (tenant : Tenant) (config : DomainSecuritySettings)
    (data : SettingsDocument) (expectedRevision : Int) : Request Unit := do
  let data ← Txn.ofExcept (validateSettings c data)
  throwIf (data.domainName ≠ config.domainName) (.parseError
    "Create a separate configuration for another domain; domain identity is immutable.")
  throwIf (expectedRevision ≠ config.revision)
    (.publicApiError "security_domain_revision_changed" 409)
  modify fun db => { db with domains := db.domains.save (config.edit data) }
  withdraw tenant.id (some config.id) now

/-! ## Approval rules -/

/-- A revision an editor may expect. -/
def editable (revision : Int) : Bool := decide (1 ≤ revision) && decide (revision < 2 ^ 31 - 1)

/-- `GpoApprovalPolicyView.put`. -/
def putApprovalPolicy (now : Time) (tenant : Tenant) (fourEyesRequired : Bool)
    (expectedRevision : Int) : Request Unit := do
  throwIf (editable expectedRevision = false)
    (.parseError "Supply exactly the documented settings and revision.")
  let db ← get
  let rule := db.policyFor tenant.id
  throwIf (expectedRevision ≠ rule.revision)
    (.publicApiError "security_gpo_policy_revision_changed" 409)
  let edited := { rule with tenant := tenant.id, fourEyesRequired, revision := rule.revision + 1 }
  set { db with
    approvalPolicies := (db.approvalPolicies.insert edited).getD (db.approvalPolicies.save edited) }
  withdraw tenant.id none now

/-- The users a domain may be granted to. -/
def Db.grantable (db : Db) (now : Time) (tenant : Tenant) : List String :=
  (db.memberships.filter fun m => m.tenant == tenant.id && effectiveMembership now m &&
    (m.role == .tenantAdmin || m.role == .approver) &&
    (db.users.get? m.user).any isTenantPrincipal).map fun m => toString m.user

/-- One grant of a request. -/
def validGrant (eligible : List String) (g : Grant) : Bool :=
  eligible.contains g.userId && decide (1 ≤ g.tiers.length) && decide (g.tiers.length ≤ 3) &&
    (g.tiers.all fun tier => (tierNumber tier).isSome) && decide g.tiers.Nodup

/-- The number a user id is. -/
def userNumber (g : Grant) : Nat :=
  g.userId.toList.foldl (fun n c => 10 * n + (c.toNat - 48)) 0

/-- Grants as they are stored: the tiers of each in order, and the users in order. -/
def normalGrants (grants : List Grant) : List Grant :=
  (grants.map fun g => { g with tiers := g.tiers.insertionSort fun a b => a ≤ b }).insertionSort
    fun g h => userNumber g ≤ userNumber h

/-- `GpoDomainAuthorizationView.put`. -/
def putAuthorization (now : Time) (tenant : Tenant) (config : DomainSecuritySettings)
    (grants : List Grant) (expectedRevision : Int) : Request Unit := do
  throwIf (editable expectedRevision = false)
    (.parseError "Supply exactly the documented settings and revision.")
  throwIf (grants.length > 250) (.parseError "Supply at most 250 explicit domain grants.")
  let db ← get
  throwIf (!(grants.all (validGrant (db.grantable now tenant))) ∨
    ¬(grants.map Grant.userId).Nodup)
    (.parseError "Select active tenant administrators or approvers and distinct tiers.")
  let auth := db.authorizationFor config.id
  throwIf (expectedRevision ≠ auth.revision)
    (.publicApiError "security_gpo_authorization_revision_changed" 409)
  let edited := { auth with
    domain := config.id, grants := normalGrants grants, revision := auth.revision + 1 }
  set { db with
    authorizations := (db.authorizations.insert edited).getD (db.authorizations.save edited) }
  withdraw tenant.id (some config.id) now

/-! ## Overrides -/

/-- The fields of an override request. -/
structure OverrideFields where
  name : String
  entries : List OverrideEntry
  enabled : Bool
  deriving DecidableEq

/-- A purpose token. -/
def overrideName (name : String) : Bool :=
  startsName (fun c => alphanumeric c || c == '-') 47 name.toList

/-- The entries of a request, normalized for an override or a custom policy. -/
def OverrideFields.normalize (data : OverrideFields) (settings : List Setting) (custom : Bool) :
    Except ServerError (List OverrideEntry) :=
  match normalizeEntries settings data.entries custom with
  | none => throw (.parseError "The override value has an invalid type or exceeds its documented limits.")
  | some entries => do
    throwIf (custom = true ∧ entries = []) (.parseError "Select at least one custom setting.")
    pure entries

/-- `OverrideView.post` and `CustomGpoView.post`, under the fresh `id`. -/
def createOverride (content : Content) (tenant : Tenant) (custom : Bool) (data : OverrideFields)
    (baselineId backupId id : String) : Request Unit := do
  throwIf (overrideName data.name = false)
    (.parseError "Supply only the purpose token used by the GPO naming template.")
  match content.overrideComponents baselineId backupId with
  | none => throw (.parseError "Select an available override component.")
  | some (artifactSha256, settings) => do
    let entries ← Txn.ofExcept (data.normalize settings custom)
    let db ← get
    throwIf ((db.overrides.rows.filter fun row =>
        row.tenant == tenant.id && row.custom == custom).length ≥ 1000)
      (.publicApiError
        (if custom then "security_custom_gpo_limit" else "security_override_limit") 409)
    match db.overrides.insert
        { id, tenant := tenant.id, custom, name := data.name, baselineId, backupId
          artifactSha256, revision := 1, enabled := data.enabled, entries } with
    | none => throw .integrityError
    | some overrides => set { db with overrides }

/-- The code of an error about an override or a custom policy. -/
def overrideCode (custom : Bool) (what : String) : String :=
  (if custom then "security_custom_gpo_" else "security_override_") ++ what

/-- The reason an edit withdraws jobs with. -/
def overrideReason (custom : Bool) : String :=
  if custom then "custom_gpo_configuration_changed" else "override_configuration_changed"

/-- The patch of `OverrideDetailView` and of `CustomGpoDetailView`. -/
def patchOverride (content : Content) (now : Time) (tenant : Tenant) (row : GpoOverride)
    (data : OverrideFields) (expectedRevision : Int) : Request Unit := do
  throwIf (overrideName data.name = false)
    (.parseError "Supply only the purpose token used by the GPO naming template.")
  throwIf (editable expectedRevision = false)
    (.parseError "Supply the current override revision.")
  throwIf (expectedRevision ≠ row.revision)
    (.publicApiError (overrideCode row.custom "revision_changed") 409)
  match content.overrideComponents row.baselineId row.backupId with
  | none => throw (.parseError "Select an available override component.")
  | some (artifactSha256, settings) => do
    throwIf (artifactSha256 ≠ row.artifactSha256)
      (.publicApiError (overrideCode row.custom "artifact_changed") 409)
    let entries ← Txn.ofExcept (data.normalize settings row.custom)
    let edited := { row with
      name := data.name, enabled := data.enabled, entries, revision := row.revision + 1 }
    modify fun db => { db with overrides := db.overrides.save edited }
    withdrawOverride tenant.id row.id (overrideReason row.custom) now

/-- The deletion of an override or a custom policy that no managed policy has. -/
def deleteOverride (row : GpoOverride) (expectedRevision : Int) : Request Unit := do
  throwIf (expectedRevision ≠ row.revision)
    (if row.custom then .parseError "Supply the current custom GPO revision."
      else .publicApiError "security_override_revision_changed" 409)
  let db ← get
  throwIf (db.policies.rows.any fun p => p.override == some row.id)
    (.publicApiError (overrideCode row.custom "in_use") 409)
  set { db with overrides := db.overrides.delete row.id }

/-- A policy that nothing was ever prepared for. -/
def draft (policy : ManagedGpoPolicy) : Bool :=
  policy.state == .new && policy.gpoGuid == "" && policy.originJob.isNone &&
    policy.stagedJob.isNone && policy.activeJob.isNone

/-- `ManagedGposView.delete`. -/
def deleteDraft (now : Time) (tenant : Tenant) (user : User) (config : DomainSecuritySettings)
    (revision : Int) (managedId : String) : Request Unit := do
  throwIf (uuidText managedId = false) (.parseError "Invalid local managed GPO draft identity.")
  throwIf (config.revision ≠ revision) (.publicApiError "security_domain_revision_changed" 409)
  let db ← get
  match (db.policies.get? managedId).filter
      fun p => p.tenant == tenant.id && p.domain == config.id with
  | none => throw .notFound
  | some policy => do
    throwIf (db.scopedFor now (some user) tenant config policy.tier .securityGpoImportsRun = false)
      (.permissionDenied "An explicit domain/tier grant is required.")
    expireJobs tenant.id now
    throwIf (draft policy = false ∨ ((← get).jobs.rows.any fun j => j.tenant == tenant.id &&
      j.domainGuid == policy.domainGuid && j.status.active) = true) unmanagedTarget
    deletePolicy policy

end Ipms.Server.Gpo
