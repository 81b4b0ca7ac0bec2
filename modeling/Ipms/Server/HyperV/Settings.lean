import Ipms.Lib.Fallible
import Ipms.Server.HyperV.Management
import Ipms.Server.HyperV.Snapshots

/-
  Ipms.Server.HyperV.Settings

  Changes of the settings of a virtual machine, as the control plane checks
  them: the parameters of a request, the change against the snapshot it was made
  from, and the snapshot that comes with the result.
-/

namespace Ipms.Server.HyperV

open Ipms.ManagementJson Ipms.Lib

/-! ## Parameters -/

/-- The keys of a section of the settings; there are no other sections. -/
def settingsKeys (part : String) : Option (List String) :=
  if part == "general" then some ["name", "notes"]
  else if part == "processor" then some ["count"]
  else if part == "memory" then some ["startup_mib", "minimum_mib", "maximum_mib", "dynamic_enabled"]
  else none

def integer (v : Value) (maximum : Int) (minimum : Int := 0) : Bool :=
  match v with
  | .int n => decide (minimum ≤ n) && decide (n ≤ maximum)
  | _ => false

def boolean : Value → Bool
  | .bool _ => true
  | _ => false

/-- The code units of a character in UTF-16. -/
def utf16Size (c : Char) : Nat := if c.toNat < 0x10000 then 1 else 2

/-- The code units of `encode("utf-16-le")`, two bytes each. -/
def utf16Units (s : String) : Nat := (s.toList.map utf16Size).sum

/-- `values.get(key, "")` of a value that is text. -/
def textOf (values : List (String × Value)) (key : String) : String :=
  match values.lookup key with
  | some (.str s) => s
  | _ => ""

/-- `text` of one of the general settings, without the delete character. -/
def validGeneralText (m : String × Value) : Bool :=
  match m.2 with
  | .str s =>
    validText s (if m.1 == "name" then 100 else 4096) (m.1 != "name") && !s.toList.contains '\x7f'
  | _ => false

/-- A name that is not blank and stands on one line. -/
def validName (name : String) : Bool :=
  !(strip name.toList).isEmpty && name.toList.all fun c => !(c == '\r' || c == '\n' || c == '\t')

/-- The checks of the section `general`. -/
def validGeneral (values : List (String × Value)) : Bool :=
  values.all validGeneralText && decide (2 * utf16Units (textOf values "name") ≤ 200) &&
    decide (Agent.Gpo.size (textOf values "name") ≤ 256) &&
    decide (Agent.Gpo.size (textOf values "notes") ≤ 4096) &&
    (!(values.lookup "name").isSome || validName (textOf values "name"))

/-- The order of three sizes of memory, all of them integers. -/
def ordered (minimum startup maximum : Option Value) : Bool :=
  match minimum, startup, maximum with
  | some (.int minimum), some (.int startup), some (.int maximum) =>
    decide (minimum ≤ startup) && decide (startup ≤ maximum)
  | _, _, _ => false

/-- The checks of the section `memory`; a full patch is ordered by itself. -/
def validMemory (values : List (String × Value)) (sparse : Bool) : Bool :=
  (values.all fun m =>
      if m.1 == "dynamic_enabled" then boolean m.2 else integer m.2 (2 ^ 40) 1) &&
    (sparse ||
      ordered (values.lookup "minimum_mib") (values.lookup "startup_mib") (values.lookup "maximum_mib"))

/-- The checks of the values of a section. -/
def validValues (part : String) (values : List (String × Value)) (sparse : Bool) : Bool :=
  if part == "general" then validGeneral values
  else if part == "processor" then (values.lookup "count").any (integer · 2048 1)
  else validMemory values sparse

/-- The keys of the values: some of the section's in a sparse patch, all of them in a full one. -/
def validKeys (part : String) (values : List (String × Value)) (sparse : Bool) : Bool :=
  (settingsKeys part).any fun keys =>
    !values.isEmpty && (values.all fun m => keys.contains m.1) && (sparse || keysAre values keys)

/-- `"expected_state" in parameters`. -/
def isSparse (fields : List (String × Value)) : Bool := (fields.lookup "expected_state").isSome

/-- The power state a sparse patch is bound to. -/
def validExpectedState (fields : List (String × Value)) : Bool :=
  (fields.lookup "expected_state").all fun v => v == .str "running" || v == .str "stopped"

/-- The checks `validate_parameters` makes of a settings update. -/
def validSettingsParameters (parameters : Value) : Bool :=
  match parameters with
  | .obj fields =>
    keysAre fields
        (if isSparse fields then ["section", "values", "expected_state"] else ["section", "values"]) &&
      validExpectedState fields &&
      match fields.lookup "section", fields.lookup "values" with
      | some (.str part), some (.obj values) =>
        validKeys part values (isSparse fields) && validValues part values (isSparse fields)
      | _, _ => false
  | _ => false

/-- `validate_parameters` of a settings update. -/
def validateSettingsParameters (parameters : Value) : Except ServerError Value := do
  throwIf (validSettingsParameters parameters = false) invalidRequest
  pure parameters

/-! ## Changes -/

/-- The settings a section is about: `snapshot["settings"]` itself for the general ones. -/
def Snapshot.part (s : Snapshot) (name : String) : Value :=
  if name == "general" then s.settings.value
  else if name == "processor" then s.settings.processor.value
  else s.settings.memory.value

/-- The members of `values`. -/
def patchValues (parameters : Value) : List (String × Value) :=
  match parameters.get? "values" with
  | some (.obj values) => values
  | _ => []

/-- The name of the section of a request. -/
def patchPart (parameters : Value) : String := (parameters.str? "section").getD ""

/-- A running machine's memory is only given a lower minimum or a higher maximum. -/
def widens (key : String) (value current : Value) : Bool :=
  match value, current with
  | .int value, .int current =>
    key == "minimum_mib" && decide (value < current) ||
      key == "maximum_mib" && decide (current < value)
  | _, _ => false

/-- The checks of one changed setting. -/
def checkSetting (running : Bool) (part : String) (current : Value) (m : String × Value) :
    Except ServerError Unit :=
  match current.get? m.1 with
  | none | some .null => throw (deny "settings_property_unsupported")
  | some value => do
    throwIf (value = m.2) invalidRequest
    if running && part != "general" then do
      throwIf (part ≠ "memory" ∨ current.get? "dynamic_enabled" ≠ some (.bool true))
        (deny "management_setting_not_editable")
      throwIf (widens m.1 m.2 value = false) (deny "management_setting_not_editable")
    else pure ()

/-- `{**current, **values}`. -/
def merged (current : Value) (values : List (String × Value)) (key : String) : Option Value :=
  (values.lookup key).or (current.get? key)

/-- The memory settings after a change are complete and ordered. -/
def checkMerged (current : Value) (values : List (String × Value)) : Except ServerError Unit := do
  let lookup := merged current values
  throwIf (["startup_mib", "minimum_mib", "maximum_mib"].all
    (fun key => (lookup key).any (integer · (2 ^ 40) 1)) = false) invalidRequest
  throwIf ((lookup "dynamic_enabled").any boolean = false) invalidRequest
  throwIf (ordered (lookup "minimum_mib") (lookup "startup_mib") (lookup "maximum_mib") = false)
    invalidRequest

def validateSettingsChange (parameters : Value) (s : Snapshot) : Except ServerError Unit := do
  let _ ← validateSettingsParameters parameters
  match parameters.get? "expected_state" with
  | none => throwIf (s.state ≠ "stopped") (deny "management_vm_must_be_stopped")
  | some expected => do
    throwIf (s.schemaVersion ≠ 2) (deny "management_operation_unsupported")
    throwIf (expected ≠ .str s.state) (deny "management_revision_changed")
    let part := patchPart parameters
    let values := patchValues parameters
    let current := s.part part
    values.forM (checkSetting (s.state == "running") part current)
    if part == "memory" then checkMerged current values else pure ()

/-- The name a machine has to report after a job. -/
def expectedName (job : ManagementJob) (status : State.ReportedStatus) : String :=
  if job.operation = .settingsUpdate ∧ job.parameters.str? "section" = some "general" ∧
      status = .succeeded then
    match (patchValues job.parameters).lookup "name" with
    | some (.str name) => name
    | _ => job.vmName
  else job.vmName

/-- The checks `record_management_result` makes of the snapshot of a result. -/
def checkResultSnapshot (job : ManagementJob) (status : State.ReportedStatus) (s : Snapshot) :
    Except ServerError Unit := do
  let name := expectedName job status
  throwIf (s.vmSourceId ≠ job.vmSourceId ∨ s.vmName ≠ name ∨
    (job.operation = .settingsUpdate ∧ job.parameters.str? "section" = some "general" ∧
      s.settings.name ≠ some name)) (deny "management_snapshot_identity_mismatch")
  if status = .succeeded ∧ job.operation = .settingsUpdate then do
    let observed := s.part (patchPart job.parameters)
    let expected := (job.parameters.get? "expected_state").getD (.str "stopped")
    throwIf (s.collectionStatus.settings ≠ "collected" ∨ expected ≠ .str s.state ∨
      ((job.parameters.get? "expected_state").isSome = true ∧ s.schemaVersion ≠ 2) ∨
      (patchValues job.parameters).any (fun m => observed.get? m.1 != some m.2) = true)
      (deny "management_snapshot_postcondition_mismatch")
  else pure ()

end Ipms.Server.HyperV
