import Ipms.Agent.Security.Scan
import Ipms.Server.Document

/-
  Ipms.Server.Security.Scans

  The control plane's checks of a page of scan evidence.
-/

namespace Ipms.Server.Security

open Ipms.ManagementJson Ipms.Crypto Ipms.Lib
open Ipms.Agent.Security (Object)

/-- `reject`. -/
def rejected : ServerError :=
  .validationError "The Security scan request or evidence is invalid."

def readStatuses : List String :=
  ["ok", "missing", "unsupported", "access_denied", "error", "limit"]

/-! ## Canonical JSON in ASCII -/

def canonical (v : Value) : Bytes := encode ((dumps v).flatMap escapeAscii)

/-! ## Jobs, manifests and documents -/

/-- A manifest of `MANIFESTS`: the build it is for and the identifiers of its controls. -/
structure Manifest where
  osBuild : String
  controls : List String
  deriving DecidableEq

/-- The fields of a `BaselineScanJob` that its pages are checked against. -/
structure BaselineScanJob where
  profile : String
  operatingSystem : String
  pageCount : Nat
  evidenceSystem : Object

/-- The members of a result document that `validate_page` reads. -/
structure PageDocument where
  pageIndex : Value
  pageCount : Value
  system : Value
  controls : Value

/-- The members of a page; `security_exchange` has checked that they are there. -/
def PageDocument.ofPage (page : Object) : Option PageDocument := do
  return {
    pageIndex := ← (Value.obj page).get? "page_index"
    pageCount := ← (Value.obj page).get? "page_count"
    system := ← (Value.obj page).get? "system"
    controls := ← (Value.obj page).get? "controls" }

def productType (profile : String) : Except ServerError Int :=
  if profile = "client" then .ok 1
  else if profile = "domain-controller" then .ok 2
  else if profile = "server" then .ok 3
  else .error .keyError

/-! ## Values and pages -/

/-- An item of a measured list. -/
def validItem : Value → Bool
  | .str s => decide (len s ≤ 512) && !s.toList.contains (Char.ofNat 0)
  | _ => false

def validValue : Value → Bool
  | .null => true
  | .int n => decide (0 ≤ n) && decide (n ≤ 0xffffffff)
  | .str s => decide (len s ≤ 4096) && !s.toList.contains (Char.ofNat 0)
  | .arr items => decide (items.length ≤ 256) && items.all validItem
  | _ => false

/-- One control of a page; returns its identifier. -/
def validateControl (manifest : Manifest) (seen : List String) (control : Value) :
    Except ServerError String :=
  match control with
  | .obj members =>
    if !keysAre members ["control_id", "read_status", "value"] then .error rejected
    else match control.get? "control_id", control.get? "read_status", control.get? "value" with
      | some (.str key), some (.str status), some value =>
        if !manifest.controls.contains key || seen.contains key || !readStatuses.contains status ||
            !validValue value || (status != "ok" && value != .null) then .error rejected
        else .ok key
      | _, _, _ => .error rejected
  | _ => .error rejected

/-- The controls of a page one after another. -/
def validateControls (manifest : Manifest) : List String → List Value → Except ServerError Unit
  | _, [] => .ok ()
  | seen, control :: controls => do
    let key ← validateControl manifest seen control
    validateControls manifest (key :: seen) controls

/-- The checks of the page numbers. -/
def validatePageNumbers (job : BaselineScanJob) (manifest : Manifest) (document : PageDocument) :
    Except ServerError (Int × Int) :=
  match document.pageIndex, document.pageCount with
  | .int index, .int count =>
    let total := manifest.controls.length
    if !(decide (0 ≤ index) && decide (index < count) && decide (count ≤ min 64 total)) ||
        decide (count < ((total + 31) / 32 : Nat)) ||
        (job.pageCount != 0 && (job.pageCount : Int) != count) then .error rejected
    else .ok (index, count)
  | _, _ => .error rejected

/-- The checks of the scanned system. -/
def validateSystem (job : BaselineScanJob) (manifest : Manifest) (system : Value) :
    Except ServerError Unit :=
  match system with
  | .obj members => do
    throwIf (keysAre members ["os_build", "product_type", "operating_system", "join_state"] = false)
      rejected
    throwIf (system.get? "os_build" ≠ some (.str manifest.osBuild)) rejected
    throwIf (system.get? "operating_system" ≠ some (.str job.operatingSystem)) rejected
    match system.get? "product_type" with
    | some (.int type) => throwIf (type ≠ (← productType job.profile)) rejected
    | _ => throw rejected
    throwIf (system.get? "join_state" ∉
      [some (.str "domain"), some (.str "workgroup"), some (.str "unknown")]) rejected
    throwIf (job.evidenceSystem ≠ [] ∧ job.evidenceSystem ≠ members) rejected
  | _ => .error rejected

def validatePage (job : BaselineScanJob) (manifest : Manifest) (document : PageDocument) :
    Except ServerError (String × String) := do
  let (index, count) ← validatePageNumbers job manifest document
  validateSystem job manifest document.system
  match document.controls with
  | .arr controls => do
    throwIf (¬(1 ≤ controls.length ∧ controls.length ≤ 32)) rejected
    validateControls manifest [] controls
    let evidence := Value.obj
      [("controls", document.controls), ("page_count", .int count), ("system", document.system)]
    return (String.ofList (dumpsInt index), sha256 (canonical evidence))
  | _ => throw rejected

end Ipms.Server.Security
