import Ipms.Lib.Keyed
import Ipms.Server.Document

/-
  Ipms.Importer.Controls

  The import of a security baseline: every instruction of the selected policies
  becomes a control, and the controls of one identity become one, that of the
  last instruction, which accounts for all of them.
-/

namespace Ipms.Importer

open Ipms.Lib Ipms.ManagementJson
open Ipms.Server (Unicode digest len)

/-! ## Records -/

/-- The `kind` of a record, with the members that only records of it have. -/
inductive Instruction where
  | registry (number : Int) (type : String) (hive : Option String) (dataSize : Option Nat)
  | audit (target exclusion : String)
  | privilegeRight
  | systemAccess
  | service (securityDescriptor : String)
  | unsupported
  deriving DecidableEq

/-- `record["kind"]`. -/
def Instruction.kind : Instruction → String
  | .registry .. => "registry"
  | .audit .. => "audit"
  | .privilegeRight => "privilege_right"
  | .systemAccess => "system_access"
  | .service _ => "service"
  | .unsupported => "unsupported"

/-- A record as the readers of the three formats make it, with what is known of its component. -/
structure SourceRecord where
  instruction : Instruction
  scope : String
  path : String
  name : String
  expected : Value
  componentId : String
  sourcePath : String
  sourceRecord : Nat
  sourceSha256 : String
  sourceFormat : String
  byteOffset : Option Nat
  line : Option Nat
  part : Option String
  deriving DecidableEq

inductive Resolution where
  | effective | equivalent | overridden
  deriving DecidableEq

/-- `original`: the instruction's kind and members as they were. -/
structure Original where
  instruction : Instruction
  path : String
  name : String
  expected : Value
  deriving DecidableEq

/-- `provenance`, an element of `source_records`. -/
structure Provenance where
  componentId : String
  sourcePath : String
  sourceRecord : Nat
  sourceSha256 : String
  sourceFormat : String
  byteOffset : Option Nat
  line : Option Nat
  part : Option String
  original : Original
  resolution : Resolution
  deriving DecidableEq

/-- A control. -/
structure Control where
  kind : String
  scope : String
  path : String
  name : String
  valueType : String
  expected : Value
  comparison : String
  label : String
  registryType : Option String
  unsupportedReason : Option String
  sourceComponents : List String
  sourceRecords : List Provenance
  id : String
  deriving DecidableEq

/-! ## One record -/

/-- `VALUE_TYPES.get(number, "")`. -/
def valueTypes (number : Int) : String :=
  if number = 1 then "string"
  else if number = 4 then "dword"
  else if number = 7 then "string_list"
  else ""

/-- `str.startswith`. -/
def startsWith (text pattern : String) : Bool := pattern.toList.isPrefixOf text.toList

/-- `text[count:]`. -/
def dropChars (text : String) (count : Nat) : String := String.ofList (text.toList.drop count)

def provenance (r : SourceRecord) : Provenance where
  componentId := r.componentId
  sourcePath := r.sourcePath
  sourceRecord := r.sourceRecord
  sourceSha256 := r.sourceSha256
  sourceFormat := r.sourceFormat
  byteOffset := r.byteOffset
  line := r.line
  part := r.part
  original := ⟨r.instruction, r.path, r.name, r.expected⟩
  resolution := .effective

/-- The control of a record before its kind is looked at. -/
def SourceRecord.control (r : SourceRecord) : Control where
  kind := r.instruction.kind
  scope := r.scope
  path := r.path
  name := r.name
  valueType := ""
  expected := r.expected
  comparison := "equals"
  label := r.name
  registryType := none
  unsupportedReason := none
  sourceComponents := [r.componentId]
  sourceRecords := [provenance r]
  id := ""

/-- The registry branch of `normalized_control`: the control, and why it is not supported. -/
def registryControl (unicode : Unicode) (control : Control) (number : Int) (type : String)
    (hive : Option String) (dataSize : Option Nat) : Control × String :=
  let control := { control with valueType := valueTypes number, registryType := some type }
  if unicode.casefold (hive.getD "MACHINE") ≠ "machine" then
    (control, "Unsupported security-template registry hive")
  else if startsWith (unicode.casefold control.name) "**del." && decide (6 < len control.name) then
    let name := dropChars control.name 6
    ({ control with
        name, expected := .null, comparison := "absent", label := "Absent registry value: " ++ name },
      "")
  else if startsWith control.name "**" then
    (control, "Registry bulk deletion, list reset, or security directive requires final-key semantics")
  else if number == 0 && control.name == "" && dataSize.getD 0 == 0 then
    (control, "Registry key-creation instruction is not a default-value assertion")
  else if control.valueType == "" then
    (control, "Registry value type is not supported by the native read contract")
  else (control, "")

/-- The branches of `normalized_control` over the kinds. -/
def kindControl (unicode : Unicode) (r : SourceRecord) : Control × String :=
  let control := r.control
  match r.instruction with
  | .registry number type hive dataSize => registryControl unicode control number type hive dataSize
  | .audit target exclusion =>
    ({ control with valueType := "dword" },
      if unicode.casefold target ≠ "system" ∨ exclusion ≠ "" then
        "Only system audit inclusion masks are supported"
      else "")
  | .privilegeRight => ({ control with valueType := "string_list" }, "")
  | .systemAccess => ({ control with valueType := "dword" }, "")
  | .service securityDescriptor =>
    ({ control with valueType := "dword" },
      if securityDescriptor ≠ "" then "Service security descriptors require a separate ACL comparison"
      else "")
  | .unsupported =>
    (control, "Unsupported security-template instruction or unresolved account name")

/-- `isinstance(value, dict)`. -/
def isDict : Value → Bool
  | .obj _ => true
  | _ => false

def normalizedControl (unicode : Unicode) (r : SourceRecord) : Control :=
  let (control, reason) := kindControl unicode r
  if reason ≠ "" then
    { control with
      kind := "unsupported", comparison := "unsupported", unsupportedReason := some reason
      expected := if isDict control.expected then .null else control.expected }
  else if control.scope ≠ "machine" then
    { control with
      unsupportedReason := some "User or domain scope cannot be established by a local machine read" }
  else control

/-! ## Controls of one identity -/

/-- The key of a control in the result. -/
structure Identity where
  kind : String
  scope : String
  path : String
  name : String
  deriving DecidableEq

/-- The texts of an identity, which the result is sorted by. -/
def Identity.texts (i : Identity) : List String := [i.kind, i.scope, i.path, i.name]

def controlIdentity (unicode : Unicode) (c : Control) : Identity where
  kind := c.kind
  scope := c.scope
  path := unicode.casefold c.path
  name := if c.kind == "audit" then unicode.casefold c.path else unicode.casefold c.name

/-- What two controls have alike when they are equivalent. -/
def Control.signature (c : Control) : String × String × Value := (c.comparison, c.valueType, c.expected)

/-- A record that was effective gets its mark. -/
def Provenance.settle (equivalent : Bool) (p : Provenance) : Provenance :=
  if p.resolution = .effective then
    { p with resolution := if equivalent then .equivalent else .overridden }
  else p

/-- The control of a record behind the control of the records before it. -/
def mergeControl (unicode : Unicode) (previous : Option Control) (r : SourceRecord) :
    Except String Control :=
  let control := normalizedControl unicode r
  match previous with
  | none => pure control
  | some previous => do
    let equivalent := decide (previous.signature = control.signature)
    let last := previous.sourceRecords.getLast?
    let sameComponent := last.map Provenance.componentId == some r.componentId
    throwIf (equivalent = false ∧ sameComponent = true ∧
      last.map Provenance.sourcePath ≠ some r.sourcePath)
      "Conflicting GPO extensions require an explicit precedence rule"
    pure { control with
      sourceRecords := previous.sourceRecords.map (Provenance.settle equivalent) ++
        control.sourceRecords
      sourceComponents := (previous.sourceComponents ++ control.sourceComponents).eraseDups }

/-- The identity of the control of a record. -/
def recordIdentity (unicode : Unicode) (r : SourceRecord) : Identity :=
  controlIdentity unicode (normalizedControl unicode r)

/-- The id of a control of a baseline's profile. -/
def controlId (baselineId profile : String) (i : Identity) : String :=
  let text := digest (.arr ((baselineId :: profile :: i.texts).map .str))
  "ctrl-" ++ String.ofList (text.toList.take 24)

/-- The order of the result. -/
def entryLe (a b : Identity × Control) : Bool := decide (a.1.texts ≤ b.1.texts)

def normalizeControls (unicode : Unicode) (records : List SourceRecord) (baselineId profile : String) :
    Except String (List Control) := do
  let result ← foldKeyed (recordIdentity unicode) (mergeControl unicode) records []
  let controls := (result.mergeSort entryLe).map fun (identity, control) =>
    { control with id := controlId baselineId profile identity }
  throwIf (¬(controls.map (·.id)).Nodup) "Control identifier collision"
  throwIf ((controls.map (·.sourceRecords.length)).sum ≠ records.length)
    "Source instruction accounting mismatch"
  pure controls

end Ipms.Importer
