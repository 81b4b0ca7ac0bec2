import Ipms.Agent.Gpo.Text
import Ipms.ManagementJson.Serialize

/-
  Ipms.Agent.Security.Scan

  The agent's side of a security baseline scan: the compiled descriptor of a
  baseline, the job it answers and the pages of measured observations.
-/

namespace Ipms.Agent.Security

open Ipms.ManagementJson Ipms.Lib

/-- A JSON object, as its members in key order. -/
abbrev Object := List (String × Value)

def invalid : Exn := ⟨"Invalid security scan contract."⟩

def maxControls : Nat := 2048

def controlsPerPage : Nat := 32

def maxPages : Nat := 64

def maxOutputBytes : Nat := 2 * 1024 * 1024

def pageLimits : Limits := { documentBytes := 48 * 1024, depth := 6, nodes := 4096, stringBytes := 2048 }

/-! ## Texts -/

/-- An identifier of lowercase letters, digits and separators. -/
def token (s : String) (maximum : Nat := 128) : Bool :=
  s != "" && decide (Gpo.size s ≤ maximum) && s.toList.all fun c =>
    (decide ('a' ≤ c) && decide (c ≤ 'z')) || Gpo.digit c || c == '-' || c == '_' || c == '.'

/-- The profiles of a baseline. -/
def profile (s : String) : Bool := s == "client" || s == "server" || s == "domain-controller"

/-- Text without control characters, within a length in bytes. -/
def clean (s : String) (maximum : Nat) : Bool :=
  decide (Gpo.size s ≤ maximum) && s.toList.all fun c => !(decide (c.toNat < 32) || c.toNat == 127)

/-- The number of an operating-system build. -/
def osBuild (s : String) : Bool :=
  s != "" && decide (Gpo.size s ≤ 8) && s.toList.all Gpo.digit

/-! ## Descriptors and jobs -/

inductive ProbeKind where
  | unsupported | registryValue | auditPolicy | userRight | accountPolicy | serviceStart
  deriving DecidableEq

structure ControlDescriptor where
  id : String
  probe : ProbeKind
  scope : String
  path : String
  name : String
  valueType : String
  deriving DecidableEq

structure BaselineDescriptor where
  baselineId : String
  profile : String
  manifestSha256 : String
  osBuild : String
  controls : List ControlDescriptor
  deriving DecidableEq

structure ScanJob where
  jobId : String
  attemptId : String
  baselineId : String
  profile : String
  manifestSha256 : String
  totalControls : Nat
  expiresAt : String
  deriving DecidableEq

/-- A control of a descriptor is well formed. -/
def ControlDescriptor.valid (control : ControlDescriptor) : Bool :=
  token control.id && (control.scope == "machine" || control.scope == "user" ||
    control.scope == "domain") && clean control.path 1024 && clean control.name 512

def validDescriptor (baseline : BaselineDescriptor) : Bool :=
  token baseline.baselineId && profile baseline.profile && Gpo.digest baseline.manifestSha256 &&
    osBuild baseline.osBuild && !baseline.controls.isEmpty &&
    decide (baseline.controls.length ≤ maxControls) &&
    decide (baseline.controls.map ControlDescriptor.id).Nodup &&
    baseline.controls.all ControlDescriptor.valid

def matchesManifest (job : ScanJob) (baseline : BaselineDescriptor) : Bool :=
  validDescriptor baseline && job.baselineId == baseline.baselineId &&
    job.profile == baseline.profile && job.manifestSha256 == baseline.manifestSha256 &&
    job.totalControls == baseline.controls.length

/-- An item of a measured list. -/
def measuredItem : Value → Bool
  | .str s => clean s 1024
  | _ => false

def measuredValue : Value → Bool
  | .int n => decide (0 ≤ n) && decide (n ≤ 4294967295)
  | .str s => clean s 1024
  | .arr items => decide (items.length ≤ 32) && items.all measuredItem
  | _ => false

/-- The statuses of a control that was not measured. -/
def unreadStatuses : List String := ["missing", "unsupported", "access_denied", "error", "limit"]

def observation (id status : String) (value : Value) : Except Exn Object := do
  throwIf (token id = false) invalid
  if status = "ok" then
    throwIf (measuredValue value = false) invalid
    throwIf ((← serialize value).length > 1024) invalid
  else
    throwIf (status ∉ unreadStatuses ∨ value ≠ .null) invalid
  return [("control_id", .str id), ("read_status", .str status), ("value", value)]

/-- The checks of `valid_system` on the members it reads. -/
def systemFields (system : Object) : Except Exn Bool := do
  let build ← (← (Value.obj system).at! "os_build").asStr
  let name ← (← (Value.obj system).at! "operating_system").asStr
  let join ← (← (Value.obj system).at! "join_state").asStr
  let product ← (← (Value.obj system).at! "product_type").asInt
  return osBuild build && name != "" && clean name 256 && decide (1 ≤ product) &&
    decide (product ≤ 3) && (join == "domain" || join == "workgroup" || join == "unknown")

def validSystem (system : Object) : Bool :=
  system.length == 4 && match systemFields system with
    | .ok valid => valid
    | .error _ => false

def scopeMatches (baseline : BaselineDescriptor) (system : Object) : Except Exn Bool :=
  if !validSystem system then .ok false
  else do
    if (← (← (Value.obj system).at! "os_build").asStr) ≠ baseline.osBuild then
      return false
    else
      let type ← (← (Value.obj system).at! "product_type").asInt
      return (baseline.profile == "client" && type == 1) ||
        (baseline.profile == "domain-controller" && type == 2) ||
        (baseline.profile == "server" && type == 3)

/-! ## Pages -/

/-- `as<json::object>()`. -/
def asObj : Value → Except Exn Object
  | .obj members => .ok members
  | _ => .error Value.badAccess

theorem asObj_eq_ok {v : Value} {members : Object} : asObj v = .ok members ↔ v = .obj members := by
  cases v <;> simp [asObj]

/-- The checks of one control of a page, against the control the descriptor has next. -/
def validateControl (control : ControlDescriptor) (item : Value) : Except Exn Unit := do
  let fields ← asObj item
  throwIf (fields.length ≠ 3) invalid
  let id ← (← (Value.obj fields).at! "control_id").asStr
  throwIf (id ≠ control.id) invalid
  let status ← (← (Value.obj fields).at! "read_status").asStr
  let value ← (Value.obj fields).at! "value"
  throwIf ((← observation id status value) ≠ fields) invalid

/-- The controls of a page, against the controls the descriptor has from there on. -/
def validateControls : List ControlDescriptor → List Value → Except Exn Unit
  | _, [] => .ok ()
  | [], _ :: _ => .error invalid
  | control :: controls, item :: items => do
    validateControl control item
    validateControls controls items

/-- The checks of one page.  `seen` counts the controls of the pages before it. -/
def validatePage (job : ScanJob) (baseline : BaselineDescriptor) (first : Object) (count index seen : Nat)
    (page : Object) : Except Exn Nat := do
  let document := Value.obj page
  throwIf (page.length ≠ 7) invalid
  throwIf ((← (← document.at! "job_id").asStr) ≠ job.jobId) invalid
  throwIf ((← (← document.at! "attempt_id").asStr) ≠ job.attemptId) invalid
  throwIf ((← (← document.at! "manifest_sha256").asStr) ≠ job.manifestSha256) invalid
  throwIf ((← (← document.at! "page_index").asInt) ≠ index) invalid
  throwIf ((← (← document.at! "page_count").asInt) ≠ count) invalid
  throwIf ((← scopeMatches baseline (← asObj (← document.at! "system"))) = false) invalid
  throwIf ((← document.at! "system") ≠ (← (Value.obj first).at! "system")) invalid
  let controls ← (← document.at! "controls").asArr
  throwIf (controls.length ≠ min controlsPerPage (job.totalControls - seen)) invalid
  validateControls (baseline.controls.drop seen) controls
  return seen + controls.length

/-- The pages from `index` on, with the controls and the bytes seen before. -/
def validatePagesFrom (job : ScanJob) (baseline : BaselineDescriptor) (first : Object) (count : Nat) :
    Nat → Nat → Nat → List Object → Except Exn Nat
  | _, seen, _, [] => .ok seen
  | index, seen, total, page :: pages => do
    let total := total + (← serialize (.obj page) pageLimits).length + 1
    throwIf (total > maxOutputBytes) invalid
    let seen ← validatePage job baseline first count index seen page
    validatePagesFrom job baseline first count (index + 1) seen total pages

def validatePages (job : ScanJob) (baseline : BaselineDescriptor) (pages : List Object) :
    Except Exn Unit := do
  throwIf (matchesManifest job baseline = false ∨ pages = [] ∨ pages.length > maxPages ∨
    pages.length ≠ (job.totalControls + controlsPerPage - 1) / controlsPerPage) invalid
  let seen ← validatePagesFrom job baseline (pages.headD []) pages.length 0 0 0 pages
  throwIf (seen ≠ job.totalControls) invalid

end Ipms.Agent.Security
