import Ipms.Server.Gpo.Applications
import Ipms.Server.GroupPolicy.Watermark

/-
  Ipms.Server.Gpo.ApplicationStatus

  Whether a baseline is applied on a host.  A component is applied when a GPO that
  carries it is listed as applied by the host's fresh report and was processed
  after its import; a baseline is applied when every component it expects is.
-/

namespace Ipms.Server.Gpo

open Ipms.Lib Ipms.ManagementJson
open Ipms.Server.GroupPolicy (clockSkew contextFields obj? arr? observedAt utcTimestamp
  validateGroupPolicy watermark watermarkMatchesReport)

/-! ## Reports -/

/-- `APPLICATION_STATUSES`; `partly` is the status of a baseline of which a part is applied. -/
inductive ApplicationStatus where
  | applied | notApplied | partly | unknown
  deriving DecidableEq

/-- A system with what it reported. -/
structure ReportingSystem extends WindowsServer where
  operatingSystem : String
  osBuild : String
  detailSnapshot : Value

/-- `MAX_APPLICATION_AGE`, in microseconds. -/
def maxApplicationAge : Time := 24 * 60 * 60 * 1000000

/-- `_fresh`. -/
def freshAt (now observed : Datetime) : Bool :=
  decide (instant now - maxApplicationAge < instant observed) &&
    decide (instant observed ≤ instant now + clockSkew)

/-- The active enrollment of a device. -/
def Db.reportingEnrollment (db : Db) (tenant deviceUri : String) : Option AgentEnrollment :=
  db.enrollments.rows.find? fun row => row.tenant == tenant && row.platform == .windows &&
    row.status == .active && row.deviceUri == deviceUri

def ReportingSystem.sameContext (system : ReportingSystem) (enrollmentId : String)
    (context : Value) : Bool :=
  context.get? "enrollment_id" == some (.str enrollmentId) &&
    context.get? "domain_name" == some (.str system.domainName) &&
    context.get? "operating_system_role" == some (.str system.operatingSystemRole) &&
    context.get? "os_build" == some (.str system.osBuild) &&
    context.get? "operating_system" == some (.str system.operatingSystem)

/-- `_report`. -/
def Db.applicationReport (db : Db) (unicode : Unicode) (tenant : String) (now : Datetime)
    (system : ReportingSystem) : Option Value := do
  let snapshot := system.detailSnapshot
  let enrollment ← db.reportingEnrollment tenant system.sourceId
  guard (system.inventorySource = "agent" ∧ (obj? snapshot).isSome)
  let context ← snapshot.get? "group_policy_context"
  guard (keysAre (← obj? context) contextFields ∧ system.sameContext enrollment.id context = true)
  let report ← validateGroupPolicy unicode ((snapshot.get? "group_policy").getD .null)
    (.str system.domainName) now
  let state ← watermark ((snapshot.get? "group_policy_watermark").getD .null) enrollment.id
  guard (watermarkMatchesReport state report context = true)
  let observed ← observedAt report
  let received ← (context.get? "received_at").bind utcTimestamp
  guard (report.get? "status" = some (.str "collected") ∧ freshAt now observed = true)
  guard (instant received ≤ instant now + clockSkew)
  guard (instant observed ≤ instant received + clockSkew)
  return report

/-- `report["by_guid"].get(guid)`: the last row of a GPO. -/
def reportedRow (report : Value) (guid : String) : Option Value :=
  ((report.get? "gpos").bind arr?).bind fun rows =>
    rows.reverse.find? fun row => row.get? "guid" == some (.str guid)

/-! ## Statuses -/

/-- What a report says of a GPO that was imported at a time. -/
def bindingState (now : Datetime) (report : Value) (binding : Binding) : ApplicationStatus :=
  if (observedAt report).all fun observed => decide (instant observed < binding.importedAt) then
    .unknown
  else
    match reportedRow report binding.gpoGuid with
    | none => .notApplied
    | some row =>
      if row.get? "status" = some (.str "excluded") then .notApplied
      else if row.get? "status" = some (.str "applied") then
        -- A valid row that is applied has a time.
        if ((row.get? "processed_at").bind utcTimestamp).any fun processed =>
            freshAt now processed && decide (binding.importedAt ≤ instant processed) then .applied
        else .unknown
      else .unknown

/-- An association of a component in the domain of a report. -/
def bindsComponent (report : Value) (baselineId backupId : String) (binding : Binding) : Bool :=
  report.get? "domain_guid" == some (.str binding.component.domainGuid) &&
    report.get? "domain_dns" == some (.str binding.component.domainDnsName) &&
    binding.component.baselineId == baselineId && binding.component.backupId == backupId

/-- `_component_state`, for the associations of all components. -/
def componentState (now : Datetime) (bindings : List Binding) (report : Value)
    (baselineId backupId : String) : ApplicationStatus :=
  let bindings := bindings.filter (bindsComponent report baselineId backupId)
  if bindings = [] then .unknown
  else
    let states := bindings.map (bindingState now report)
    if .applied ∈ states then .applied
    else if ∀ state ∈ states, state = .notApplied then .notApplied
    else .unknown

/-- The components of a baseline that a host of a role is to have. -/
def expectedComponents (c : Content) (baselineId role : String) : List String :=
  (c.profileComponents baselineId role).filter fun backupId =>
    (c.components baselineId backupId).any fun component => component.scope == .machine

def Db.baselineState (db : Db) (c : Content) (tenant : String) (now : Datetime)
    (system : ReportingSystem) (baselineId : String) : ApplicationStatus :=
  match db.applicationReport c.unicode tenant now system with
  | none => .unknown
  | some report =>
    let expected := expectedComponents c baselineId system.operatingSystemRole
    if expected = [] then .unknown
    else
      let states := expected.map
        (componentState now (db.bindings c (instant now) tenant) report baselineId)
      if ∀ state ∈ states, state = .applied then .applied
      else if .applied ∈ states then .partly
      else if ∀ state ∈ states, state = .notApplied then .notApplied
      else .unknown

/-! ## What an association is -/

/-- The evidence an association rests on: a pilot that names the GPO, where every pilot that names it
is trusted for the same component, or the activation of a policy that is no sparse override. -/
def Db.Trusted (db : Db) (c : Content) (now : Time) (tenant : String) (b : Binding) : Prop :=
  (∃ j ∈ db.jobs.rows, db.candidate tenant j = true ∧ j.completedAt = some b.importedAt ∧
    j.gpoGuid = b.gpoGuid ∧ db.trustedComponent c now tenant j = some b.component ∧
    ∀ k ∈ db.jobs.rows, db.candidate tenant k = true → k.domainGuid = j.domainGuid →
      k.gpoGuid = b.gpoGuid → db.trustedComponent c now tenant k = some b.component) ∨
  ∃ policy ∈ db.owners tenant, ∃ job, policy.override = none ∧ policy.gpoGuid = b.gpoGuid ∧
    db.activeBinding c now policy = some (b.component, job) ∧ job.completedAt = some b.importedAt

/-- A report lists a GPO as applied, and it was processed, not too long ago, after its import. -/
structure AppliedSince (now : Datetime) (report : Value) (b : Binding) : Prop where
  observed : ∃ observed, observedAt report = some observed ∧ b.importedAt ≤ instant observed
  row : ∃ row processed, reportedRow report b.gpoGuid = some row ∧
    row.get? "status" = some (.str "applied") ∧
    (row.get? "processed_at").bind utcTimestamp = some processed ∧
    freshAt now processed = true ∧ b.importedAt ≤ instant processed

section
variable {db : Db} {c : Content} {tenant : String} {now : Datetime} {system : ReportingSystem}
variable {report : Value} {baselineId backupId : String} {b : Binding}

theorem Db.trusted_of_mem_bindings {at_ : Time} (h : b ∈ db.bindings c at_ tenant) :
    db.Trusted c at_ tenant b := by
  rcases List.mem_append.mp h with hlegacy | hmanaged
  · exact .inl (Db.mem_legacyBindings hlegacy)
  · obtain ⟨policy, howner, hbinding⟩ := List.mem_filterMap.mp hmanaged
    split at hbinding
    · cases hbinding
    rename_i hoverride
    simp only [Option.bind_eq_bind, Option.bind_eq_some_iff] at hbinding
    obtain ⟨⟨component, job⟩, hactive, completedAt, hcompleted, hbinding⟩ := hbinding
    cases hbinding
    rw [Bool.not_eq_true, Option.isSome_eq_false_iff, Option.isNone_iff_eq_none] at hoverride
    exact .inr ⟨policy, howner, job, hoverride, rfl, hactive, hcompleted⟩

theorem applicationReport_fresh {unicode : Unicode}
    (h : db.applicationReport unicode tenant now system = some report) :
    ∃ observed, observedAt report = some observed ∧
      report.get? "status" = some (.str "collected") ∧ freshAt now observed = true := by
  unfold Db.applicationReport at h
  simp only [Option.bind_eq_bind, Option.bind_eq_some_iff, Option.guard_eq_some', Option.pure_def,
    Option.some.injEq] at h
  obtain ⟨_, _, _, _, _, _, _, _, _, _, _, _, _, _, _, _, observed, hobserved, _, _, _, hfresh, _, _,
    _, _, rfl⟩ := h
  exact ⟨observed, hobserved, hfresh⟩

theorem bindingState_applied :
    bindingState now report b = .applied ↔ AppliedSince now report b := by
  unfold bindingState
  constructor
  · intro h
    split at h
    · cases h
    rename_i hobserved
    rw [Bool.not_eq_true, Option.all_eq_false] at hobserved
    obtain ⟨observed, hat, hafter⟩ := hobserved
    rw [decide_eq_false_iff_not, Int.not_lt] at hafter
    split at h
    · cases h
    rename_i row hrow
    split at h
    · cases h
    · split at h
      next hstatus =>
        split at h
        next hprocessed =>
          rw [Option.any_eq_true] at hprocessed
          obtain ⟨processed, hread, hsince⟩ := hprocessed
          rw [Bool.and_eq_true, decide_eq_true_eq] at hsince
          exact ⟨⟨observed, hat, hafter⟩, row, processed, hrow, hstatus, hread, hsince⟩
        · cases h
      · cases h
  · rintro ⟨⟨observed, hat, hafter⟩, row, processed, hrow, hstatus, hread, hfresh, hsince⟩
    have hnot : ¬instant observed < b.importedAt := Int.not_lt.mpr hafter
    simp [hat, hnot, hrow, hstatus, hread, hfresh, hsince]

theorem componentState_applied {bindings : List Binding} :
    componentState now bindings report baselineId backupId = .applied ↔
      ∃ b ∈ bindings, bindsComponent report baselineId backupId b = true ∧
        AppliedSince now report b := by
  have hstates : .applied ∈ (bindings.filter (bindsComponent report baselineId backupId)).map
      (bindingState now report) ↔ ∃ b ∈ bindings,
        bindsComponent report baselineId backupId b = true ∧ AppliedSince now report b := by
    simp only [List.mem_map, List.mem_filter, bindingState_applied, and_assoc]
  rw [← hstates]
  unfold componentState
  dsimp only
  constructor
  · intro h
    split at h
    · cases h
    · split at h
      next happlied => exact happlied
      · split at h
        · cases h
        · cases h
  · intro h
    rw [if_neg, if_pos h]
    intro hnone
    rw [hnone] at h
    cases h

/-- A baseline is applied on a host exactly when there is a fresh report of it, the baseline expects
components, and each of them has an association, which is trusted, with a GPO that the report lists
as applied after the import. -/
theorem baseline_applied (db : Db) (c : Content) (tenant : String) (now : Datetime)
    (system : ReportingSystem) (baselineId : String) :
    db.baselineState c tenant now system baselineId = .applied ↔
      ∃ report observed, db.applicationReport c.unicode tenant now system = some report ∧
        observedAt report = some observed ∧ freshAt now observed = true ∧
        report.get? "status" = some (.str "collected") ∧
        expectedComponents c baselineId system.operatingSystemRole ≠ [] ∧
        ∀ backupId ∈ expectedComponents c baselineId system.operatingSystemRole,
          ∃ b ∈ db.bindings c (instant now) tenant, db.Trusted c (instant now) tenant b ∧
            bindsComponent report baselineId backupId b = true ∧ AppliedSince now report b := by
  unfold Db.baselineState
  constructor
  · intro h
    split at h
    · cases h
    rename_i report hreport
    dsimp only at h
    split at h
    · cases h
    rename_i hexpected
    split at h
    next happlied =>
      obtain ⟨observed, hobserved, hstatus, hfresh⟩ := applicationReport_fresh hreport
      refine ⟨report, observed, hreport, hobserved, hfresh, hstatus, hexpected,
        fun backupId hbackup => ?_⟩
      have hstate := happlied _ (List.mem_map_of_mem hbackup)
      obtain ⟨b, hb, hbinds, hsince⟩ := componentState_applied.mp hstate
      exact ⟨b, hb, Db.trusted_of_mem_bindings hb, hbinds, hsince⟩
    · split at h
      · cases h
      · split at h
        · cases h
        · cases h
  · rintro ⟨report, observed, hreport, -, -, -, hexpected, hall⟩
    rw [hreport]
    dsimp only
    rw [if_neg hexpected, if_pos]
    intro state hstate
    obtain ⟨backupId, hbackup, rfl⟩ := List.mem_map.mp hstate
    obtain ⟨b, hb, -, hbinds, hsince⟩ := hall backupId hbackup
    exact componentState_applied.mpr ⟨b, hb, hbinds, hsince⟩

end

end Ipms.Server.Gpo
