import Ipms.Lib.Saturation
import Ipms.Server.CanonicalJson
import Ipms.Server.Document
import Ipms.Server.HyperV.Records

/-
  Ipms.Server.HyperV.Snapshots

  The management snapshot of a virtual machine as an agent reports it, what the
  control plane holds it to, and the requests on its checkpoints: their
  parameters and what they are compared with before a job is admitted.
-/

namespace Ipms.Server.HyperV

open Ipms.ManagementJson Ipms.Lib

/-! ## The document -/

/-- `settings.processor`. -/
structure Processor where
  count : Option Int
  reservationMilliPercent : Option Int
  limitMilliPercent : Option Int
  weight : Option Int
  compatibilityForMigration : Option Bool
  deriving DecidableEq

/-- `settings.memory`. -/
structure Memory where
  startupMib : Option Int
  minimumMib : Option Int
  maximumMib : Option Int
  dynamicEnabled : Option Bool
  bufferPercent : Option Int
  weight : Option Int
  deriving DecidableEq

/-- `settings`. -/
structure VmSettings where
  name : Option String
  notes : Option String
  configurationVersion : Option String
  generation : Option Int
  processor : Processor
  memory : Memory
  automaticStartAction : Option Int
  automaticStartDelay : Option String
  automaticStopAction : Option Int
  checkpointPolicy : Option Int
  deriving DecidableEq

/-- A row of `checkpoints`. -/
structure Checkpoint where
  id : String
  parentId : Option String
  name : String
  createdAt : Option String
  type : String
  isCurrent : Bool
  canApply : Bool
  canDelete : Bool
  deriving DecidableEq

structure CollectionStatus where
  settings : String
  checkpoints : String
  devices : String
  deriving DecidableEq

/-- `capabilities`, one for each of `OPERATIONS`. -/
structure Capabilities where
  inspect : Bool
  checkpointCreate : Bool
  checkpointDelete : Bool
  checkpointApply : Bool
  settingsUpdate : Bool
  deriving DecidableEq

/-- `capabilities.get(operation)`. -/
def Capabilities.get (c : Capabilities) : Operation → Bool
  | .inspect => c.inspect
  | .checkpointCreate => c.checkpointCreate
  | .checkpointDelete => c.checkpointDelete
  | .checkpointApply => c.checkpointApply
  | .settingsUpdate => c.settingsUpdate

/-- A management snapshot: a document with exactly these keys, its values of these types. -/
structure Snapshot where
  schemaVersion : Int
  vmSourceId : String
  vmName : String
  state : String
  revision : String
  settings : VmSettings
  checkpoints : List Checkpoint
  networkAdapters : List Value
  storage : List Value
  capabilities : Capabilities
  collectionStatus : CollectionStatus

/-! ## Its JSON -/

/-- A value that may be missing. -/
def nullable {α : Type} (f : α → Value) : Option α → Value
  | none => .null
  | some a => f a

def Processor.value (p : Processor) : Value := .obj
  [("count", nullable .int p.count),
    ("reservation_milli_percent", nullable .int p.reservationMilliPercent),
    ("limit_milli_percent", nullable .int p.limitMilliPercent), ("weight", nullable .int p.weight),
    ("compatibility_for_migration", nullable .bool p.compatibilityForMigration)]

def Memory.value (m : Memory) : Value := .obj
  [("startup_mib", nullable .int m.startupMib), ("minimum_mib", nullable .int m.minimumMib),
    ("maximum_mib", nullable .int m.maximumMib),
    ("dynamic_enabled", nullable .bool m.dynamicEnabled),
    ("buffer_percent", nullable .int m.bufferPercent), ("weight", nullable .int m.weight)]

def VmSettings.value (s : VmSettings) : Value := .obj
  [("name", nullable .str s.name), ("notes", nullable .str s.notes),
    ("configuration_version", nullable .str s.configurationVersion),
    ("generation", nullable .int s.generation), ("processor", s.processor.value),
    ("memory", s.memory.value), ("automatic_start_action", nullable .int s.automaticStartAction),
    ("automatic_start_delay", nullable .str s.automaticStartDelay),
    ("automatic_stop_action", nullable .int s.automaticStopAction),
    ("checkpoint_policy", nullable .int s.checkpointPolicy)]

def Checkpoint.value (c : Checkpoint) : Value := .obj
  [("id", .str c.id), ("parent_id", nullable .str c.parentId), ("name", .str c.name),
    ("created_at", nullable .str c.createdAt), ("type", .str c.type),
    ("is_current", .bool c.isCurrent), ("can_apply", .bool c.canApply),
    ("can_delete", .bool c.canDelete)]

def Snapshot.value (s : Snapshot) : Value := .obj
  [("schema_version", .int s.schemaVersion), ("vm_source_id", .str s.vmSourceId),
    ("vm_name", .str s.vmName), ("state", .str s.state), ("revision", .str s.revision),
    ("settings", s.settings.value), ("checkpoints", .arr (s.checkpoints.map Checkpoint.value)),
    ("devices", .obj [("network_adapters", .arr s.networkAdapters), ("storage", .arr s.storage)]),
    ("capabilities", .obj
      [("inspect", .bool s.capabilities.inspect),
        ("checkpoint_create", .bool s.capabilities.checkpointCreate),
        ("checkpoint_delete", .bool s.capabilities.checkpointDelete),
        ("checkpoint_apply", .bool s.capabilities.checkpointApply),
        ("settings_update", .bool s.capabilities.settingsUpdate)]),
    ("collection_status", .obj
      [("settings", .str s.collectionStatus.settings),
        ("checkpoints", .str s.collectionStatus.checkpoints),
        ("devices", .str s.collectionStatus.devices)])]

/-! ## Field checks -/

def maxSnapshotBytes : Nat := 48 * 1024

def maxCheckpoints : Nat := 256

/-- `invalid`, of the management schema. -/
def invalidRequest : ServerError := deny "invalid_request" 400

/-- `text`. -/
def validText (value : String) (maximum : Nat) (blank : Bool := true) : Bool :=
  decide (len value ≤ maximum) && (blank || value != "") &&
    value.toList.all fun c => !(decide (c.toNat < 32) && !(c == '\r' || c == '\n' || c == '\t'))

/-- `text` of a nullable field. -/
def nullableText (value : Option String) (maximum : Nat) : Bool := value.all (validText · maximum)

/-- `integer` of a nullable field. -/
def nullableInteger (value : Option Int) (maximum : Int) (minimum : Int := 0) : Bool :=
  value.all fun n => decide (minimum ≤ n) && decide (n ≤ maximum)

/-- `HyperVVirtualMachine.State.values`. -/
def vmStates : List String :=
  ["running", "stopped", "starting", "stopping", "paused", "pausing", "suspended", "saving",
    "resuming", "quiesced", "offline", "unknown"]

/-- The checks of `settings`. -/
def validSettings (s : VmSettings) : Bool :=
  nullableText s.name 256 && nullableText s.notes 4096 && nullableText s.configurationVersion 64 &&
    nullableInteger s.generation 2 1 && nullableInteger s.processor.count 2048 &&
    nullableInteger s.processor.reservationMilliPercent 100000 &&
    nullableInteger s.processor.limitMilliPercent 100000 && nullableInteger s.processor.weight 10000 &&
    nullableInteger s.memory.startupMib (2 ^ 40) && nullableInteger s.memory.minimumMib (2 ^ 40) &&
    nullableInteger s.memory.maximumMib (2 ^ 40) && nullableInteger s.memory.bufferPercent 10000 &&
    nullableInteger s.memory.weight 10000 && nullableInteger s.automaticStartAction 65535 &&
    nullableInteger s.automaticStopAction 65535 && nullableInteger s.checkpointPolicy 5 2 &&
    nullableText s.automaticStartDelay 32

/-! ## The checkpoint forest -/

/-- The rows that name a parent, each as the parent and the row's own id. -/
def childLinks (rows : List Checkpoint) : List (String × String) :=
  rows.filterMap fun row => row.parentId.map fun parent => (parent, row.id)

/-- `parents[cursor]`: `none` for an id no row has. -/
def parentOf (rows : List Checkpoint) (id : String) : Option (Option String) :=
  (rows.map fun row => (row.id, row.parentId)).lookup id

/-- The fuel a loop over the rows is given: one round for each row and one more. -/
def rounds (rows : List Checkpoint) : Nat := rows.length + 1

/-- From every id the parents lead to a row without one, past no id twice. -/
def serverForest (rows : List Checkpoint) : Option Bool :=
  forest (parentOf rows) (rounds rows) (rows.map (·.id))

/-- The ids of a row are canonical, the parent's when there is one. -/
def canonicalIds (row : Checkpoint) : Bool := uuidText row.id && row.parentId.all uuidText

/-- The checks of one row.  `aware` is whether `parse_datetime` gives a time with an offset. -/
def validCheckpoint (aware : String → Bool) (row : Checkpoint) : Bool :=
  canonicalIds row && validText row.name 256 false &&
    row.createdAt.all (fun text => validText text 40 false && aware text) &&
    ["standard", "production", "recovery", "unknown"].contains row.type

/-- The checks of `checkpoints`: an id that is already in `parents` is refused. -/
def validCheckpoints (aware : String → Bool) (rows : List Checkpoint) : Bool :=
  decide (rows.length ≤ maxCheckpoints) && rows.all (validCheckpoint aware) &&
    decide (rows.map (·.id)).Nodup && decide ((rows.filter (·.isCurrent)).length ≤ 1) &&
    serverForest rows == some true

def validateSnapshot (aware : String → Bool) (s : Snapshot) : Except ServerError Snapshot :=
  if decide ((canonicalDocument s.value).length ≤ maxSnapshotBytes) &&
      (s.schemaVersion == 1 || s.schemaVersion == 2) && uuidText s.vmSourceId &&
      validText s.vmName 256 false && vmStates.contains s.state && sha s.revision &&
      [s.collectionStatus.settings, s.collectionStatus.checkpoints, s.collectionStatus.devices].all
        (["collected", "unavailable", "not-reported"].contains ·) &&
      validSettings s.settings && s.networkAdapters.isEmpty && s.storage.isEmpty &&
      s.collectionStatus.devices != "collected" &&
      (s.collectionStatus.checkpoints == "collected" || s.checkpoints.isEmpty) &&
      validCheckpoints aware s.checkpoints
  then .ok s
  else .error invalidRequest

/-- The parameters of a request, by its operation. -/
inductive Parameters where
  | inspect
  | create (policy : String)
  | delete (checkpointId : String) (acknowledgedCheckpointIds : List String)
  | apply (checkpointId confirmationVmName confirmationCheckpointName : String)
  deriving DecidableEq

def Parameters.operation : Parameters → Operation
  | .inspect => .inspect
  | .create _ => .checkpointCreate
  | .delete _ _ => .checkpointDelete
  | .apply _ _ _ => .checkpointApply

/-- `validate_parameters`: the acknowledged ids come out sorted. -/
def validateParameters : Parameters → Except ServerError Parameters
  | .inspect => .ok .inspect
  | .create policy => if policy == "configured" then .ok (.create policy) else .error invalidRequest
  | .delete checkpointId ids =>
    if uuidText checkpointId && decide (1 ≤ ids.length) && decide (ids.length ≤ maxCheckpoints) &&
        ids.all uuidText && decide ids.Nodup
    then .ok (.delete checkpointId (ids.mergeSort fun a b => !decide (b < a)))
    else .error invalidRequest
  | .apply checkpointId vmName checkpointName =>
    if uuidText checkpointId && validText vmName 256 false &&
        validText checkpointName 256 false
    then .ok (.apply checkpointId vmName checkpointName)
    else .error invalidRequest

/-! ## What a request is compared with -/

/-- `descendants`: the rows whose parent is affected. -/
def descendants (rows : List Checkpoint) (affected : Finset String) : Finset String :=
  ((rows.filter fun row => row.parentId.any (· ∈ affected)).map (·.id)).toFinset

/-- The loop of `_check_snapshot` that grows `affected`; `none` when it is out of fuel. -/
def affectedIds (rows : List Checkpoint) (selected : String) : Option (Finset String) :=
  saturate (fun affected => affected ∪ descendants rows affected)
    (fun affected => decide (descendants rows affected ⊆ affected)) (rounds rows) {selected}

/-- A snapshot as the control plane keeps it. -/
structure StoredSnapshot where
  revision : String
  observedAt : Time
  document : Snapshot

/-- `FRESH_SECONDS`, in the clock's units. -/
def freshPeriod : Time := 60 * 1000000

/-- The start of `_check_snapshot`: the snapshot a request other than an inspection is
    compared with. -/
def comparedSnapshot (aware : String → Bool) (vm : VirtualMachine) (stored : Option StoredSnapshot)
    (now : Time) (operation : Operation) (expectedRevision : String) : Except ServerError Snapshot :=
  match stored with
  | none => .error (deny "management_snapshot_stale")
  | some snapshot =>
    if !(decide (now ≤ snapshot.observedAt + freshPeriod) && decide (snapshot.observedAt ≤ now)) then
      .error (deny "management_snapshot_stale")
    else if snapshot.revision != expectedRevision then .error (deny "management_revision_changed")
    else
      match validateSnapshot aware snapshot.document with
      | .error e => .error e
      | .ok document =>
        if document.vmSourceId != vm.sourceId || document.vmName != vm.name ||
            document.state != vm.state then
          .error (deny "management_revision_changed")
        else if !document.capabilities.get operation then
          .error (deny "management_operation_unsupported")
        else if document.collectionStatus.settings != "collected" then
          .error (deny "management_snapshot_unavailable")
        else if document.collectionStatus.checkpoints != "collected" then
          .error (deny "management_snapshot_unavailable")
        else .ok document

/-- The checkpoint operations of `_check_snapshot` on the rows of its snapshot. -/
def checkCheckpoint (vm : VirtualMachine) (rows : List Checkpoint) :
    Parameters → Except ServerError Unit
  | .inspect | .create _ => .ok ()
  | .apply checkpointId vmName checkpointName =>
    match rows.find? (·.id == checkpointId) with
    | none => .error (deny "management_checkpoint_not_found" 404)
    | some selected =>
      if !selected.canApply then .error (deny "management_operation_unsupported")
      else if vmName != vm.name || checkpointName != selected.name then
        .error (deny "management_confirmation_mismatch")
      else .ok ()
  | .delete checkpointId ids =>
    match rows.find? (·.id == checkpointId) with
    | none => .error (deny "management_checkpoint_not_found" 404)
    | some selected =>
      if !selected.canDelete then .error (deny "management_operation_unsupported")
      else if affectedIds rows selected.id ≠ some ids.toFinset then
        .error (deny "management_checkpoint_tree_changed")
      else .ok ()

/-- `_check_snapshot`, for the operations on checkpoints. -/
def checkSnapshot (aware : String → Bool) (vm : VirtualMachine) (stored : Option StoredSnapshot)
    (now : Time) (expectedRevision : String) (parameters : Parameters) : Except ServerError Unit :=
  match parameters with
  | .inspect => .ok ()
  | parameters => do
    let document ← comparedSnapshot aware vm stored now parameters.operation expectedRevision
    checkCheckpoint vm document.checkpoints parameters

end Ipms.Server.HyperV
