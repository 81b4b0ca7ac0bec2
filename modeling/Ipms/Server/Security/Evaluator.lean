import Mathlib.Data.List.Sort
import Ipms.Server.Security.Scans

/-
  Ipms.Server.Security.Evaluator

  The comparison of a complete manifest with what an agent observed.
-/

namespace Ipms.Server.Security

open Ipms.ManagementJson Ipms.Lib
open Ipms.Agent.Security (Object)

/-! ## Manifests and assessments -/

/-- The fields of a manifest's control that the evaluation reads. -/
structure ManifestControl where
  id : String
  label : String
  scope : String
  kind : String
  comparison : String
  valueType : String
  expected : Value

/-- The fields of an entry of `MANIFESTS` that a scan reads. -/
structure ScanManifest where
  osBuild : String
  controls : List ManifestControl

/-- What the checks of a page read of a manifest. -/
def ScanManifest.checked (manifest : ScanManifest) : Manifest :=
  { osBuild := manifest.osBuild, controls := manifest.controls.map ManifestControl.id }

/-- A finding of an assessment. -/
structure Finding where
  controlId : String
  label : String
  scope : String
  kind : String
  status : String
  reason : Value
  expected : Value
  observed : Value

/-- What `evaluate` returns. -/
structure Evaluation where
  findings : List Finding
  totalControls : Nat
  passedControls : Nat
  failedControls : Nat
  unknownControls : Nat
  notApplicableControls : Nat
  scopeVerified : Bool

/-! ## Values -/

def valueMatchesType (value : Value) (valueType : String) : Bool :=
  if valueType = "dword" then
    match value with
    | .int n => decide (0 ≤ n) && decide (n ≤ 0xffffffff)
    | _ => false
  else if valueType = "string" then
    match value with
    | .str s => decide (len s ≤ 4096) && !s.toList.contains (Char.ofNat 0)
    | _ => false
  else if valueType = "string_list" then
    match value with
    | .arr items => decide (items.length ≤ 256) && items.all validItem
    | _ => false
  else false

/-- How `sorted` compares two strings. -/
def textLe (a b : String) : Bool := !decide (b.toList < a.toList)

/-- The strings of a list that holds nothing else. -/
def strings : List Value → Option (List String)
  | [] => some []
  | .str s :: items => (strings items).map (s :: ·)
  | _ :: _ => none

/-- `sorted` of what a privilege assignment holds: a list of strings, the characters of a text or
the keys of a dictionary. -/
def sorted : Value → Except ServerError (List String)
  | .arr items =>
    match strings items with
    | some texts => .ok (texts.insertionSort fun a b => textLe a b = true)
    | none => .error .typeError
  | .str s => .ok ((s.toList.map fun c => String.ofList [c]).insertionSort fun a b => textLe a b = true)
  | .obj members => .ok ((members.map (·.1)).insertionSort fun a b => textLe a b = true)
  | _ => .error .typeError

/-- `document[name]`. -/
def item (document : Value) (name : String) : Except ServerError Value :=
  match document.get? name with
  | some value => .ok value
  | none => .error .keyError

/-! ## Evaluation -/

/-- The status and the reason of a finding. -/
def verdict (control : ManifestControl) (readStatus actual system : Value) :
    Except ServerError (String × Value) := do
  if control.scope ≠ "machine" then return ("unknown", .str "scope_unverified")
  if control.kind = "unsupported" ∨ control.comparison = "unsupported" then
    return ("unknown", .str "unsupported")
  -- the accounts of a system do not establish the account policy of its domain
  if control.kind = "system_access" then
    if (← item system "join_state") ≠ .str "workgroup" then
      return ("unknown", .str "scope_unverified")
  if control.comparison = "absent" ∧ (readStatus = .str "ok" ∨ readStatus = .str "missing") then
    return if readStatus = .str "missing" then ("passed", .str "matched")
      else ("failed", .str "different")
  if readStatus ≠ .str "ok" then return ("unknown", readStatus)
  if valueMatchesType actual control.valueType = false then
    return ("unknown", .str "invalid_value")
  let equal ← if control.kind = "privilege_right" then
      pure (decide ((← sorted actual) = (← sorted control.expected)))
    else pure (decide (actual = control.expected))
  return if equal then ("passed", .str "matched") else ("failed", .str "different")

def finding (observation : Option Value) (system : Value) (control : ManifestControl) :
    Except ServerError Finding := do
  let some observation := observation | throw .keyError
  let readStatus ← item observation "read_status"
  let actual ← item observation "value"
  let (status, reason) ← verdict control readStatus actual system
  return {
    controlId := control.id, label := control.label, scope := control.scope, kind := control.kind
    status, reason, expected := control.expected, observed := actual }

/-- How many findings have a status. -/
def counted (findings : List Finding) (status : String) : Nat :=
  findings.countP (·.status == status)

/-- The counts of the findings. -/
def summary (findings : List Finding) : Evaluation :=
  { findings, totalControls := findings.length
    passedControls := counted findings "passed"
    failedControls := counted findings "failed"
    unknownControls := counted findings "unknown"
    notApplicableControls := 0
    scopeVerified := !findings.isEmpty && counted findings "unknown" == 0 }

def evaluate (manifest : ScanManifest) (observations : List (String × Value)) (system : Value) :
    Except ServerError Evaluation := do
  let findings ← manifest.controls.mapM fun control =>
    finding (observations.lookup control.id) system control
  return summary findings

theorem evaluate_congr (manifest : ScanManifest) {first second : List (String × Value)}
    (system : Value) (h : ∀ id, first.lookup id = second.lookup id) :
    evaluate manifest first system = evaluate manifest second system := by
  unfold evaluate
  simp only [h]

end Ipms.Server.Security
