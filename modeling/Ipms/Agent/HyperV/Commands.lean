import Mathlib.Data.List.Sort
import Ipms.Server.HyperV.Snapshots

/-
  Ipms.Agent.HyperV.Commands

  The agent's own check of a checkpoint command against the snapshot it has
  just taken, before anything is asked of the hypervisor.
-/

namespace Ipms.Agent.HyperV

open Ipms.Lib
open Ipms.Server.HyperV (Checkpoint Operation Parameters Snapshot)

/-- `windows::hyperv_management_command`, of an operation on checkpoints. -/
structure Command where
  vmSourceId : String
  expectedName : String
  expectedRevision : String
  parameters : Parameters

def canonicalGuid (value : String) : Bool :=
  value.toList.length == 36 &&
    value.toList.zipIdx.all fun (c, i) =>
      if Gpo.uuidSeparator i then c == '-' else Gpo.lowerHex c

/-- The portal's hexadecimal SHA-256 text. -/
def revisionText (value : String) : Bool :=
  value.toList.length == 64 && value.toList.all Gpo.lowerHex

/-! ## The map of parents -/

/-- `parents.emplace`: an id that is already there is not added.  A map stands in the order of
    its keys. -/
def emplace (parents : List (String × String)) (id parent : String) :
    Option (List (String × String)) :=
  if (parents.lookup id).isSome then none
  else some (parents.orderedInsert (fun a b => a.1 ≤ b.1) (id, parent))

/-- The map from each row's id to its parent, the empty text for a row without one. -/
def parentMap (rows : List Checkpoint) : Option (List (String × String)) :=
  rows.foldlM (fun parents row => emplace parents row.id (row.parentId.getD "")) []

/-- A cursor is at an end when it is the empty text. -/
def cursorAt (id : String) : Option String := if id = "" then none else some id

/-- `parents.find(cursor)`. -/
def parentIn (parents : List (String × String)) (id : String) : Option (Option String) :=
  (parents.lookup id).map cursorAt

/-- The fuel a loop over the map is given: one round for each key and one more. -/
def rounds (parents : List (String × String)) : Nat := parents.length + 1

/-- From every key the parents lead to the empty text, past no key twice. -/
def agentForest (parents : List (String × String)) : Option Bool :=
  forest (parentIn parents) (rounds parents) (parents.map (·.1))

/-- One pass of the loop that grows `affected`, in the order of the map. -/
def agentPass (parents : List (String × String)) (affected : Finset String) : Finset String :=
  parents.foldl (fun affected entry => if entry.2 ∈ affected then insert entry.1 affected else affected)
    affected

/-- The loop that grows `affected` until a pass leaves its size; `none` when it is out of fuel. -/
def agentAffected (parents : List (String × String)) (selected : String) : Option (Finset String) :=
  saturate (agentPass parents)
    (fun affected => decide ((agentPass parents affected).card = affected.card)) (rounds parents)
    {selected}

/-! ## The command -/

/-- What `validate_management_command` asks before it looks at an operation's own parameters.
    `none` when it refuses nothing. -/
def preflight (command : Command) (snapshot : Snapshot) : Option String :=
  if !(canonicalGuid command.vmSourceId && revisionText command.expectedRevision) then
    some "invalid_management_command"
  else if snapshot.vmSourceId != command.vmSourceId || snapshot.vmName != command.expectedName then
    some "vm_identity_conflict"
  else if snapshot.revision != command.expectedRevision then some "management_revision_changed"
  else if snapshot.collectionStatus.settings != "collected" ||
      snapshot.collectionStatus.checkpoints != "collected" then
    some "management_snapshot_unavailable"
  else if !snapshot.capabilities.get command.parameters.operation then
    some "management_operation_unsupported"
  else none

/-- `state == "running" || state == "stopped" ? "" : "invalid_vm_state"`. -/
def stateVerdict (state : String) : String :=
  if state == "running" || state == "stopped" then "" else "invalid_vm_state"

/-- The answer to a command that deletes a checkpoint, from the map of parents on. -/
def deletionVerdict (parents : List (String × String)) (selected : Checkpoint) (ids : List String)
    (state : String) : String :=
  if !selected.canDelete then "management_operation_unsupported"
  else if ids.isEmpty || decide (256 < ids.length) then "invalid_management_command"
  else if !(ids.all canonicalGuid && decide ids.Nodup) then "invalid_management_command"
  else if some ids.toFinset ≠ agentAffected parents selected.id then
    "management_checkpoint_tree_changed"
  else stateVerdict state

/-- The selected checkpoint and the map of parents, for the operations that select one. -/
def selectCheckpoint (rows : List Checkpoint) (selectedId : String) :
    Except String (Checkpoint × List (String × String)) :=
  if !canonicalGuid selectedId then .error "invalid_management_command"
  else
    match parentMap rows with
    | none => .error "management_snapshot_unavailable"
    | some parents =>
      match rows.find? (·.id == selectedId) with
      | none => .error "management_checkpoint_not_found"
      | some selected =>
        if agentForest parents ≠ some true then .error "management_snapshot_unavailable"
        else .ok (selected, parents)

/-- `validate_management_command`, of an operation on checkpoints.  The empty text is the answer
    to a command that may run. -/
def validateManagementCommand (command : Command) (snapshot : Snapshot) : String :=
  match preflight command snapshot with
  | some code => code
  | none =>
    match command.parameters with
    | .inspect => "management_operation_unsupported"
    | .create policy =>
      if policy != "configured" then "invalid_management_command"
      else
        match snapshot.settings.checkpointPolicy with
        | none => "invalid_management_command"
        | some checkpointPolicy =>
          if checkpointPolicy != 5 then "checkpoint_policy_unsupported"
          else stateVerdict snapshot.state
    | .apply checkpointId vmName checkpointName =>
      match selectCheckpoint snapshot.checkpoints checkpointId with
      | .error code => code
      | .ok (selected, _) =>
        if vmName != command.expectedName || checkpointName != selected.name then
          "management_confirmation_mismatch"
        else if !selected.canApply then "management_operation_unsupported"
        else if snapshot.state == "stopped" then "" else "invalid_vm_state"
    | .delete checkpointId ids =>
      match selectCheckpoint snapshot.checkpoints checkpointId with
      | .error code => code
      | .ok (selected, parents) => deletionVerdict parents selected ids snapshot.state

end Ipms.Agent.HyperV
