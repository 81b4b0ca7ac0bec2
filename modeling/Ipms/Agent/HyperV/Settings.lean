import Ipms.Lib.Fallible
import Ipms.Agent.HyperV.Commands
import Ipms.Server.HyperV.Settings

/-
  Ipms.Agent.HyperV.Settings

  Changes of the settings of a virtual machine, as the agent checks them before
  and after it asks the hypervisor: a command's parameters, the change against the
  snapshot just taken, and the snapshot taken after the change.
-/

namespace Ipms.Agent.HyperV

open Ipms.ManagementJson Ipms.Lib
open Ipms.Server.HyperV (Operation Snapshot patchPart patchValues isSparse utf16Size)

/-! ## Parameters -/

/-- A character of a name: no control character. -/
def nameCharacter (c : Char) : Bool := !(decide (c.toNat < 0x20) || c.toNat == 0x7f)

/-- A character of notes: a control character only where it is white space. -/
def notesCharacter (c : Char) : Bool :=
  !(decide (c.toNat < 0x20) && !(c == '\n' || c == '\r' || c == '\t') || c.toNat == 0x7f)

/-- `valid_settings_name`.  The loop passes over continuation bytes, so it sees each character once:
a byte below 0x80 is a character of its own, and a lead byte from 0xf0 on starts a pair of units. -/
def validSettingsName (name : String) : Bool :=
  name != "" && decide (Gpo.size name ≤ 256) && name.toList.all nameCharacter &&
    decide ((name.toList.map utf16Size).sum ≤ 100) && name.toList.any (· != ' ') &&
    (serialize (.str name)).toOption.isSome

/-- The checks of notes. -/
def validSettingsNotes (notes : String) : Bool :=
  decide (Gpo.size notes ≤ 4096) && notes.toList.all notesCharacter &&
    (serialize (.str notes)).toOption.isSome

/-- The check of one of the general settings. -/
def validGeneralMember (m : String × Value) : Bool :=
  match m.2 with
  | .str s =>
    if m.1 == "name" then validSettingsName s
    else if m.1 == "notes" then validSettingsNotes s
    else false
  | _ => false

/-- An integer within bounds. -/
def within (v : Value) (low high : Int) : Bool :=
  match v with
  | .int n => decide (low ≤ n) && decide (n ≤ high)
  | _ => false

/-- The check of one of the memory settings. -/
def validMemoryMember (m : String × Value) : Bool :=
  if m.1 == "dynamic_enabled" then
    match m.2 with
    | .bool _ => true
    | _ => false
  else if m.1 == "startup_mib" || m.1 == "minimum_mib" || m.1 == "maximum_mib" then
    within m.2 1 (2 ^ 40)
  else false

/-- Memory settings that are complete, in order and within bounds. -/
def validMemoryOrder (startup minimum maximum dynamicEnabled : Option Value) : Bool :=
  match startup, minimum, maximum, dynamicEnabled with
  | some (.int startup), some (.int minimum), some (.int maximum), some (.bool _) =>
    decide (1 ≤ minimum) && decide (minimum ≤ startup) && decide (startup ≤ maximum) &&
      decide (maximum ≤ 2 ^ 40)
  | _, _, _, _ => false

/-- The checks of the values of a section. -/
def validSettingsValues (part : String) (values : List (String × Value)) (sparse : Bool) : Bool :=
  if part == "general" then (sparse || values.length == 2) && values.all validGeneralMember
  else if part == "processor" then
    values.length == 1 && (values.lookup "count").any (within · 1 2048)
  else
    part == "memory" && (sparse || values.length == 4) && values.all validMemoryMember &&
      (sparse || validMemoryOrder (values.lookup "startup_mib") (values.lookup "minimum_mib")
        (values.lookup "maximum_mib") (values.lookup "dynamic_enabled"))

/-- `validate_settings_parameters`, which has one code for everything it refuses. -/
def validSettingsParameters (parameters : Value) : Bool :=
  match parameters with
  | .obj fields =>
    fields.length == (if isSparse fields then 3 else 2) &&
      ((fields.lookup "expected_state").all fun v => v == .str "running" || v == .str "stopped") &&
      match fields.lookup "section", fields.lookup "values" with
      | some (.str part), some (.obj values) =>
        !values.isEmpty && validSettingsValues part values (isSparse fields)
      | _, _ => false
  | _ => false

/-! ## Changes -/

/-- The code of a command that is not well formed, and of an exception. -/
def invalidCommand : String := "invalid_management_command"

/-- The size of a running machine's memory that is changed moves outwards. -/
def editableWhileRunning (key : String) (value current : Value) : Bool :=
  match value, current with
  | .int value, .int current =>
    (key == "minimum_mib" && decide (value < current)) ||
      (key == "maximum_mib" && decide (current < value))
  | _, _ => false

/-- The checks of one changed setting; `at` throws for a key that is not there. -/
def checkChange (state part : String) (current : Value) (m : String × Value) :
    Except String Unit :=
  match current.get? m.1 with
  | none => throw invalidCommand
  | some .null => throw "settings_property_unsupported"
  | some value => do
    throwIf (value = m.2) invalidCommand
    if state == "running" && part != "general" then
      if part != "memory" then throw "management_setting_not_editable"
      else
        match current.get? "dynamic_enabled" with
        | some (.bool dynamicEnabled) =>
          throwIf (dynamicEnabled = false ∨ editableWhileRunning m.1 m.2 value = false)
            "management_setting_not_editable"
        | _ => throw invalidCommand
    else pure ()

/-- The setting under a key after the patch. -/
def patched (current : Value) (values : List (String × Value)) (key : String) : Option Value :=
  (values.lookup key).or (current.get? key)

/-- `validate_settings_change`: nothing, or the code of the refusal. -/
def settingsChange (parameters : Value) (s : Snapshot) : Except String Unit := do
  throwIf (validSettingsParameters parameters = false) invalidCommand
  match parameters.get? "expected_state" with
  | none => throwIf (s.state ≠ "stopped") "invalid_vm_state"
  | some expected => do
    throwIf (s.schemaVersion ≠ 2) "management_operation_unsupported"
    throwIf (expected ≠ .str s.state) "management_revision_changed"
    let part := patchPart parameters
    let values := patchValues parameters
    let current := s.part part
    values.forM (checkChange s.state part current)
    if part == "memory" then
      let after := patched current values
      throwIf (validMemoryOrder (after "startup_mib") (after "minimum_mib") (after "maximum_mib")
        (after "dynamic_enabled") = false) invalidCommand
    else pure ()

/-- `validate_settings_change`: the empty text is the answer to a change that may be made. -/
def validateSettingsChange (parameters : Value) (s : Snapshot) : String :=
  match settingsChange parameters s with
  | .ok _ => ""
  | .error code => code

/-- `windows::hyperv_management_command`, of a change of settings. -/
structure SettingsCommand where
  vmSourceId : String
  expectedName : String
  parameters : Value

/-- `settings_result_target`: the name the machine has after the command. -/
def settingsResultName (command : SettingsCommand) : String :=
  if validSettingsParameters command.parameters && patchPart command.parameters == "general" then
    match (patchValues command.parameters).lookup "name" with
    | some (.str name) => name
    | _ => command.expectedName
  else command.expectedName

def settingsPostcondition (command : SettingsCommand) (s : Snapshot) : Bool :=
  let part := patchPart command.parameters
  let expected := command.parameters.get? "expected_state"
  validSettingsParameters command.parameters && s.vmSourceId == command.vmSourceId &&
    s.vmName == settingsResultName command && expected.getD (.str "stopped") == .str s.state &&
    !(expected.isSome && s.schemaVersion != 2) && s.collectionStatus.settings == "collected" &&
    !(part == "general" && s.settings.name != some s.vmName) &&
    (patchValues command.parameters).all fun m => (s.part part).get? m.1 == some m.2

end Ipms.Agent.HyperV
