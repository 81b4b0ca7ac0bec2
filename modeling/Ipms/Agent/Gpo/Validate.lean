import Ipms.Lib.Fallible
import Ipms.Agent.Gpo.Job

/-
  Ipms.Agent.Gpo.Validate

  The structural checks of a job: the fields of every job, the managed fields
  with their expected state, the override bound to the compiled settings, and
  the digest over the whole document.
-/

namespace Ipms.Agent.Gpo

open Ipms.Lib Ipms.ManagementJson Ipms.Crypto

/-- A number that fits `std::int64_t` and is at least one. -/
def positive (n : Int) : Bool := decide (1 ≤ n) && decide (n ≤ int64Max)

/-- The digest of a document without its own digest. -/
def inputDigest (document : Value) : Except Exn String :=
  match document with
  | .obj members => do
    let text ← serialize (.obj (members.filter fun m => m.1 != "input_digest"))
    pure (sha256 text)
  | _ => .error Value.badAccess

/-! ## Fields of every job -/

/-- A backup identifier: an uppercase GUID in braces that is not a default policy. -/
def validBackupId (id : String) : Bool :=
  let cs := id.toList
  let inner := (cs.drop 1).take 36
  cs.length == 38 && cs.head? == some '{' && cs.getLast? == some '}' &&
    !(inner.any fun c => decide ('a' ≤ c) && decide (c ≤ 'f')) &&
    validUuid (String.ofList (lowerHexCapitals inner)) && !protectedGpo id

/-- The checks `parse_job` makes of the fields of every job, but for the digest's form. -/
def JobCore.validFields (c : JobCore) (pilot : Bool) : Bool :=
  positive c.scopeRevision && decide (0 ≤ c.targetTier) && decide (c.targetTier ≤ 2) &&
    (!pilot || c.operation == .createUnlinkedPilot) && validUuid c.jobId && validUuid c.scopeId &&
    validUuid c.domainGuid && dns c.domainDnsName && dns c.forestDnsName &&
    dns c.executorDcFqdn && digest c.artifactSha256 &&
    clean c.baselineId 128 && clean c.pilotDisplayName 240 &&
    (c.profile == "server" || c.profile == "client" || c.profile == "domain-controller") &&
    validBackupId c.backupId && c.pilotDisplayName != "Default Domain Policy" &&
    c.pilotDisplayName != "Default Domain Controllers Policy" && (expiry? c.expiresAt).isSome

/-- The checks `parse_job` makes of every job. -/
def JobCore.valid (c : JobCore) (pilot : Bool) : Bool := c.validFields pilot && digest c.inputDigest

/-! ## Managed jobs -/

section
variable (catalog : Catalog)

/-- `component`: the compiled component of a job, if its artifact is the pinned one. -/
def component (j : JobCore) : Option Component :=
  (catalog.lookupComponent j.baselineId j.backupId).filter fun c =>
    c.artifactSha256 == j.artifactSha256

/-- `domain_target`: whether the job writes the domain itself and not its units. -/
def domainTarget (j : ManagedJob) : Bool :=
  ((component catalog j.toJobCore).any fun c => c.scope == .domain) ||
    match j.targetOus with
    | [target] => lower target == rootDn j.domainDnsName
    | _ => false

/-- `target_kind`: the kind of the links a job makes. -/
def targetKind (j : ManagedJob) : LinkKind := if domainTarget catalog j then .domain else .ou

end

/-- `managed_marker`: the description by which the agent knows its own policy. -/
def managedMarker (j : ManagedJob) : String :=
  match j.override with
  | some o => "IPMS managed override; id=" ++ j.managedId ++ "; definition=" ++ o.overrideId
  | none => "IPMS managed GPO; id=" ++ j.managedId

/-- The description of an unlinked pilot, with its job and its digest. -/
def pilotMarker (marker : String) : Bool :=
  let cs := marker.toList
  let lead := "IPMS disabled, unlinked pilot; job=".toList
  lead.isPrefixOf cs && cs.length == lead.length + 36 + 9 + 64 &&
    validUuid (String.ofList ((cs.drop lead.length).take 36)) &&
    (cs.drop (lead.length + 36)).take 9 == "; digest=".toList &&
    digest (String.ofList (cs.drop (lead.length + 45)))

/-- The marker check: none without a policy, the managed one, or a pilot to adopt. -/
def checkMarker (j : ManagedJob) : Except Exn Unit :=
  if j.gpoGuid = "" then throwIf (j.ownerMarker ≠ "") invalidJob
  else if j.ownerMarker ≠ managedMarker j then do
    throwIf (j.overrideJob = true) (operationError "gpo_unmanaged_target")
    throwIf (!j.intendedOperation.isImport || !pilotMarker j.ownerMarker) invalidJob
  else pure ()

/-- Whether a target container is one the job may name. -/
def validTarget (root : Bool) (domain target : String) : Bool :=
  if root then lower target == rootDn domain else ouDn target domain

/-- The containers and orders of a job: one order for each container, all distinct. -/
def validTargets (root : Bool) (j : ManagedJob) : Bool :=
  j.targetOus.all (validTarget root j.domainDnsName) && decide (j.targetOus.map lower).Nodup &&
    j.linkOrders.all fun order => decide (1 ≤ order) && decide (order ≤ 128)

/-- The approved state of a write job names its policy and its containers. -/
def validExpectedState (j : ManagedJob) : Bool :=
  match j.expectedState with
  | none => false
  | some state =>
    state.valid && state.guid == j.gpoGuid &&
      (state.ous.map fun o => lower o.dn) == j.targetOus.map lower

section
variable (catalog : Catalog)

def validateManagedJob (j : ManagedJob) : Except Exn Unit := do
  throwIf (!validUuid j.managedId || !positive j.managedRevision || !j.intendedOperation.isManaged)
    invalidJob
  let read := j.inspection
  let content := component catalog j.toJobCore
  let root := domainTarget catalog j
  let domainContent := content.any fun c => c.scope == .domain
  throwIf (root = true ∧ j.targetTier ≠ 0) (operationError "gpo_target_invalid")
  throwIf (content.any fun c => c.scope == .other) (operationError "gpo_unsupported_component")
  throwIf (j.approvalMode ≠ (if read then "inspection" else "portal") ∨
    (!read && j.operation != j.intendedOperation)) invalidJob
  throwIf (j.gpoGuid ≠ "" ∧ (!validUuid j.gpoGuid || protectedGpo j.gpoGuid)) invalidJob
  throwIf (j.gpoGuid = "" ∧ !j.intendedOperation.isImport) invalidJob
  checkMarker j
  throwIf (j.targetOus.length > 32 ∨ j.linkOrders.length ≠ j.targetOus.length ∨
    (j.targetOus = [] ∧ j.intendedOperation ≠ .importManagedGpo)) invalidJob
  -- Domain content needs no target for an import; every other root job has exactly one.
  throwIf (root && (if j.intendedOperation = .importManagedGpo ∧ domainContent then
      !j.targetOus.isEmpty else j.targetOus.length != 1)) (operationError "gpo_target_invalid")
  throwIf (!validTargets root j) invalidJob
  let activation := !read && j.operation == .activateManagedGpo
  throwIf (j.safetyReview.managementAccess ≠ activation ∨
    j.safetyReview.recoveryAccess ≠ activation) invalidJob
  if read then throwIf (j.preflightId ≠ "" ∨ j.expectedState ≠ none) invalidJob
  else throwIf (!validUuid j.preflightId || !validExpectedState j) invalidJob

/-! ## Overrides -/

/-- `descriptor`: the compiled settings of the job's component. -/
def overrideDescriptor (j : JobCore) : Option OverrideComponent :=
  catalog.overrideComponents.find? fun c =>
    c.baselineId == j.baselineId && c.backupId == j.backupId &&
      c.artifactSha256 == j.artifactSha256

/-- `setting`: the compiled description of a setting. -/
def OverrideComponent.setting (c : OverrideComponent) (id : String) : Option SettingDescriptor :=
  c.settings.find? fun s => s.settingId == id

end

def overrideDigest (j : JobCore) (o : Override) : Except Exn String := do
  let text ← serialize (.obj [("artifact_sha256", .str j.artifactSha256),
    ("backup_id", .str j.backupId), ("baseline_id", .str j.baselineId),
    ("entries", entriesJson o.entries), ("id", .str o.overrideId),
    ("revision", .int o.overrideRevision)])
  pure (sha256 text)

/-- Text of bounded length in characters without control characters. -/
def safeText (text : String) (maximum : Nat) : Bool :=
  decide (text.toList.length ≤ maximum) &&
    text.toList.all fun c => !(decide (c.toNat < 32) || c.toNat == 127)

def validListItem (d : SettingDescriptor) (item : Value) : Bool :=
  match item with
  | .str text => safeText text d.maxLength && (d.kind != "privilege_right" || sid text)
  | _ => false

/-- `validate_value`: a value of the setting's type, bounds and options. -/
def validValue (d : SettingDescriptor) (value : Value) : Bool :=
  d.editable &&
    (match d.valueType, value with
     | "integer", .int n => decide (d.min ≤ n) && decide (n ≤ d.max)
     | "string", .str text => safeText text d.maxLength
     | "string_list", .arr items =>
       decide (items.length ≤ d.maxItems) && items.all (validListItem d) && decide items.Nodup
     | _, _ => false) &&
    (d.enumOptions.isEmpty || d.enumOptions.contains value)

/-- One entry of an override: a compiled setting, a value it admits and a file it has. -/
def validEntry (c : OverrideComponent) (original : Option Component) (e : OverrideEntry) : Bool :=
  match c.setting e.settingId with
  | none => false
  | some d => validValue d e.value && original.any fun o => o.files.contains d.file

/-- Setting identifiers strictly increase and none is empty. -/
def increasing : String → List OverrideEntry → Bool
  | _, [] => true
  | previous, e :: rest => decide (previous < e.settingId) && increasing e.settingId rest

def validateOverrideJob (catalog : Catalog) (j : JobCore) (o : Override) : Except Exn Unit := do
  throwIf (!validUuid o.overrideId || !positive o.overrideRevision) invalidJob
  throwIf ((← overrideDigest j o) ≠ o.overrideSha256) invalidJob
  throwIf (o.entries = [] ∨ o.entries.length > 128 ∨
    ((← serialize (entriesJson o.entries)).length > 8192)) invalidJob
  match overrideDescriptor catalog j with
  | none => throw invalidJob
  | some c =>
    throwIf (!(increasing "" o.entries && o.entries.all (validEntry c (component catalog j))))
      invalidJob

/-! ## Parsing -/

/-- The checks of a job that do not concern its digest. -/
def Job.validate (catalog : Catalog) (job : Job) : Except Exn Unit :=
  match job with
  | .pilot core _ => throwIf (!core.valid true) invalidJob
  | .managed j => do
    throwIf (!j.toJobCore.valid false) invalidJob
    validateManagedJob catalog j
    match j.override with
    | none => pure ()
    | some o => validateOverrideJob catalog j.toJobCore o

/-- The digest a job carries is the digest of its document. -/
def Job.checkDigest (job : Job) : Except Exn Unit := do
  throwIf ((← inputDigest job.toJson) ≠ job.core.inputDigest) invalidJob

def parseJob (catalog : Catalog) (value : Value) : Except Exn Job :=
  match Job.decode value with
  | none => throw invalidJob
  | some job => do
    job.validate catalog
    job.checkDigest
    pure job

/-- A job `parse_job` has accepted. -/
def Job.Accepted (catalog : Catalog) (job : Job) : Prop :=
  job.validate catalog = .ok () ∧ job.checkDigest = .ok ()

instance (catalog : Catalog) (job : Job) : Decidable (job.Accepted catalog) :=
  inferInstanceAs (Decidable (_ ∧ _))

/-! ### What parsing accepts -/

theorem parseJob_eq_ok {catalog : Catalog} {v : Value} {job : Job} :
    parseJob catalog v = .ok job ↔ v = job.toJson ∧ job.Accepted catalog := by
  unfold parseJob
  constructor
  · intro h
    cases hd : Job.decode v with
    | none => rw [hd] at h; exact nomatch h
    | some job' =>
      rw [hd] at h
      obtain ⟨_, hv, h⟩ := bind_eq_ok.mp h
      obtain ⟨_, hc, h⟩ := bind_eq_ok.mp h
      cases h
      exact ⟨Job.decode_eq_some.mp hd, hv, hc⟩
  · rintro ⟨rfl, hv, hc⟩
    rw [Job.decode_eq_some.mpr rfl]
    show (job.validate catalog >>= fun _ => job.checkDigest >>= fun _ => pure job) = _
    rw [hv]
    show (job.checkDigest >>= fun _ => pure job) = _
    rw [hc]
    rfl

theorem parseJob_toJson {catalog : Catalog} {job : Job} (h : job.Accepted catalog) :
    parseJob catalog job.toJson = .ok job := parseJob_eq_ok.mpr ⟨rfl, h⟩

/-! ## Sealing

The digest of a document does not depend on the digest it carries, so a job whose
document fits the limits can be given its own digest. -/

/-- A job that carries a digest. -/
def ManagedJob.withDigest (j : ManagedJob) (d : String) : ManagedJob := { j with inputDigest := d }

/-- A job that carries the digest of its own document. -/
def ManagedJob.seal (j : ManagedJob) : ManagedJob :=
  j.withDigest ((Gpo.inputDigest j.toJson).toOption.getD "")

theorem ManagedJob.undigested_withDigest (j : ManagedJob) (d : String) :
    (j.withDigest d).members.filter (fun m => m.1 != "input_digest") =
      j.members.filter (fun m => m.1 != "input_digest") := by
  unfold ManagedJob.members
  simp only [List.filter_append]
  rfl

theorem ManagedJob.inputDigest_withDigest (j : ManagedJob) (d : String) :
    Gpo.inputDigest (j.withDigest d).toJson = Gpo.inputDigest j.toJson := by
  unfold ManagedJob.toJson Gpo.inputDigest
  simp only [j.undigested_withDigest]

theorem digest_of_inputDigest {v : Value} {d : String} (h : Gpo.inputDigest v = .ok d) :
    digest d = true := by
  unfold Gpo.inputDigest at h
  split at h
  · obtain ⟨text, _, h⟩ := bind_eq_ok.mp h
    cases h
    exact digest_sha256 text
  · exact nomatch h

theorem ManagedJob.accepted_withDigest {catalog : Catalog} {j : ManagedJob} {d : String}
    (hfields : j.validFields false = true) (hmanaged : validateManagedJob catalog j = .ok ())
    (hoverride : ∀ o, j.override = some o → validateOverrideJob catalog j.toJobCore o = .ok ())
    (hdigest : Gpo.inputDigest j.toJson = .ok d) : (Job.managed (j.withDigest d)).Accepted catalog := by
  have hvalid : (j.withDigest d).toJobCore.valid false = true :=
    Bool.and_eq_true_iff.mpr ⟨hfields, digest_of_inputDigest hdigest⟩
  constructor
  · refine bind_eq_ok.mpr ⟨(), throwIf_eq_ok.mpr (by simp [hvalid]), ?_⟩
    refine bind_eq_ok.mpr ⟨(), hmanaged, ?_⟩
    show (match j.override with | none => _ | some o => _) = _
    cases ho : j.override with
    | none => rfl
    | some o => exact hoverride o ho
  · refine bind_eq_ok.mpr ⟨d, (j.inputDigest_withDigest d).trans hdigest, throwIf_eq_ok.mpr ?_⟩
    exact not_not.mpr rfl

theorem inputDigest_isSome (members : List (String × Value)) :
    (Gpo.inputDigest (.obj members)).toOption.isSome =
      fits (.obj (members.filter fun m => m.1 != "input_digest")) := by
  show (serialize (.obj (members.filter fun m => m.1 != "input_digest")) >>= fun text =>
    pure (sha256 text)).toOption.isSome = _
  rw [serialize_eq]
  by_cases hf : fits (.obj (members.filter fun m => m.1 != "input_digest")) = true
  · rw [if_pos hf, hf]
    rfl
  · rw [if_neg hf, eq_false_of_ne_true hf]
    rfl

theorem ManagedJob.accepted_seal {catalog : Catalog} {j : ManagedJob}
    (hfields : j.validFields false = true) (hmanaged : validateManagedJob catalog j = .ok ())
    (hoverride : ∀ o, j.override = some o → validateOverrideJob catalog j.toJobCore o = .ok ())
    (hdigest : (Gpo.inputDigest j.toJson).toOption.isSome = true) :
    (Job.managed j.seal).Accepted catalog := by
  obtain ⟨d, hd⟩ := Option.isSome_iff_exists.mp hdigest
  have hok : Gpo.inputDigest j.toJson = .ok d := by
    cases h : Gpo.inputDigest j.toJson with
    | ok d' => rw [h] at hd; cases hd; rfl
    | error e => rw [h] at hd; exact nomatch hd
  have hseal : j.seal = j.withDigest d := by
    unfold ManagedJob.seal
    rw [hd]
    rfl
  rw [hseal]
  exact accepted_withDigest hfields hmanaged hoverride hok

end Ipms.Agent.Gpo
