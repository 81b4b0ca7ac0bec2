import Ipms.Agent.Hgs.Host

/-
  Ipms.Agent.Hgs.Execute

  The provider state machine: executing a fresh step with its durable write
  ordering, and recovering an interrupted one without replaying it.
-/

namespace Ipms.Agent.Hgs

open Ipms.Lib Ipms.ManagementJson

section
variable {W : Type} (h : Host W)

/-- `finish`: the phase is terminal before the result is built and saved. -/
def finish (status : Status) (code : String) (observed : Object := []) :
    Exec W (Option Receipt) := do
  Exec.update fun j => { j with state := .terminal }
  let r ← Prog.ofExcept (result status code observed)
  Exec.update fun j => { j with outcome := some r }
  Exec.save h
  pure (some r)

/-- The code of a step that only reads. -/
def inspectedCode (op : Operation) : String :=
  if op = .inspect then "hgs_inspected" else "hgs_verified"

/-! ## Recovering -/

/-- The node waits for the reboot a step asked for. -/
def awaitsReboot (j : Journal) (now : Int) (after : Object) : Except Exn Bool :=
  if j.state = .rebootWait ∧ unexpired j.assignment now then do
    return (← text after "boot_id") == (← text j.before "boot_id")
  else pure false

/-- Report a step whose postcondition was observed. -/
def finishObserved (assignment : Job) (after : Object) : Exec W (Option Receipt) := do
  let op := assignment.operation
  if op.readOnly then finish h .succeeded (inspectedCode op) after
  else
    let pending ← Prog.ofExcept (flag after "reboot_pending")
    finish h (if pending then .rebootRequired else .succeeded)
      (if op = .reboot then "hgs_reboot_observed" else "hgs_step_succeeded") after

/-- Report that a reboot is still to come, and stay in the phase that waits for it. -/
def keepWaiting (after : Object) : Exec W (Option Receipt) := do
  let r ← Prog.ofExcept (result .rebootRequired "hgs_reboot_required" after)
  Exec.update fun j => { j with outcome := some r }
  Exec.save h
  pure (some r)

/-- The status of a step that cannot be proven. -/
def unprovenStatus (op : Operation) : Status :=
  if op.readOnly then .failed else .reconciliationRequired

/-- The try block of `recover`. -/
def reexamine : Exec W (Option Receipt) := do
  let j ← Exec.journal
  let after ← Exec.call (h.inspect j.assignment)
  let _ ← Prog.ofExcept (validateObservation after)
  if ← Prog.ofExcept (postcondition j.assignment j.before after) then
    finishObserved h j.assignment after
  else if ← Prog.ofExcept (awaitsReboot j (← Exec.now h) after) then keepWaiting h after
  else
    let op := j.assignment.operation
    finish h (unprovenStatus op)
      (if op.readOnly then "hgs_postcondition_failed" else "hgs_reconciliation_required") after

def recover : Exec W (Option Receipt) := do
  let j ← Exec.journal
  match j.state with
  | .terminal => pure j.outcome
  | .prepared =>
    let now ← Exec.now h
    finish h .failed (if unexpired j.assignment now then "hgs_authority_lost" else "hgs_job_expired")
      j.before
  | .claiming => finish h .failed "hgs_authority_lost" j.before
  | .intent | .rebootWait =>
    tryCatch (reexamine h) fun _ =>
      let op := j.assignment.operation
      finish h (unprovenStatus op)
        (if op.readOnly then "hgs_provider_failed" else "hgs_reconciliation_required")

/-! ## Executing -/

/-- The claim is granted, and the authority and the time still allow the step. -/
def claimGranted (assignment : Job) : Exec W Bool := do
  if !(← Exec.call h.claim) then pure false
  else if !(← Exec.call h.authority) then pure false
  else return unexpired assignment (← Exec.now h)

/-- The authority and the time allow the step. -/
def stillGranted (assignment : Job) : Exec W Bool := do
  if !(← Exec.call h.authority) then pure false
  else return unexpired assignment (← Exec.now h)

/-- How far a step came before the provider's write: to an outcome of its own, or to the
write with the observation made before it. -/
inductive Approach where
  | settled (outcome : Option Receipt)
  | ready (before : Object)

/-- End a step before the provider's write. -/
def settleEarly (status : Status) (code : String) (observed : Object) : Exec W Approach := do
  return .settled (← finish h status code observed)

/-- The step of a recorded intent, up to the provider's write. -/
def beginWrite (assignment : Job) (before : Object) : Exec W Approach := do
  let op := assignment.operation
  if op.readOnly then
    let after ← Exec.call (h.inspect assignment)
    if !(← Prog.ofExcept (postcondition assignment before after)) then
      settleEarly h .failed "hgs_postcondition_failed" after
    else settleEarly h .succeeded (inspectedCode op) after
  else if op = .reboot then
    if !(← Prog.ofExcept (flag before "reboot_pending")) then
      settleEarly h .succeeded "hgs_step_succeeded" before
    else pure (.ready before)
  else if op = .initializeHgs then
    if ← Prog.ofExcept (postcondition assignment [] before) then
      settleEarly h .succeeded "hgs_step_succeeded" before
    else pure (.ready before)
  else pure (.ready before)

/-- The try block of `execute`, up to the provider's write. -/
def approach : Exec W Approach := do
  let assignment := (← Exec.journal).assignment
  let before ← Exec.call (h.inspect assignment)
  Exec.update fun j => { j with before }
  let _ ← Prog.ofExcept (validateObservation before)
  if !(← Prog.ofExcept (prerequisites assignment before)) then
    settleEarly h .failed "hgs_prerequisite_failed" before
  else if !(← Exec.call h.authority) then settleEarly h .failed "hgs_authority_lost" before
  else
    Exec.update fun j => { j with state := .claiming }
    Exec.save h
    if !(← claimGranted h assignment) then settleEarly h .failed "hgs_authority_lost" before
    else
      Exec.update fun j => { j with state := .intent }
      Exec.save h
      if !(← stillGranted h assignment) then settleEarly h .failed "hgs_authority_lost" before
      else beginWrite h assignment before

/-- The operations that may leave a reboot pending before their postcondition holds. -/
def stagesReboot : Operation → Bool
  | .installRole | .createForest | .joinNode => true
  | _ => false

/-- The write left a reboot pending before its postcondition was looked at. -/
def stagedReboot (op : Operation) (after : Object) : Except Exn Bool :=
  if stagesReboot op then flag after "reboot_pending" else pure false

/-- The status and the code of a write, from what was observed after it. -/
def writeVerdict (assignment : Job) (before after : Object) : Except Exn (Status × String) := do
  if ← stagedReboot assignment.operation after then
    return (.rebootRequired, "hgs_reboot_required")
  if !(← postcondition assignment before after) then
    return (.reconciliationRequired, "hgs_postcondition_failed")
  if ← flag after "reboot_pending" then return (.rebootRequired, "hgs_reboot_required")
  return (.succeeded, "hgs_step_succeeded")

/-- Wait for the reboot that was asked for. -/
def beginReboot (before : Object) : Exec W (Option Receipt) := do
  Exec.update fun j => { j with state := .rebootWait }
  let r ← Prog.ofExcept (result .rebootRequired "hgs_reboot_required" before)
  Exec.update fun j => { j with outcome := some r }
  Exec.save h
  pure (some r)

/-- Look at the node behind a write, and report what is seen. -/
def examine (assignment : Job) (before : Object) : Exec W (Option Receipt) := do
  let after ← Exec.call (h.inspect assignment)
  let (status, code) ← Prog.ofExcept (writeVerdict assignment before after)
  finish h status code after

/-- The try block of `execute`, from the provider's write on. -/
def write (assignment : Job) (before : Object) : Exec W (Option Receipt) := do
  Exec.apply h assignment
  if assignment.operation = .reboot then beginReboot h before else examine h assignment before

/-- The catch block of `execute`: the step is uncertain if the journal is in the phase of a
recorded intent when the exception arrives. -/
def giveUp : Exec W (Option Receipt) := do
  let j ← Exec.journal
  if j.state = .intent ∧ !j.assignment.operation.readOnly then
    finish h .reconciliationRequired "hgs_reconciliation_required"
  else
    finish h .failed (if j.state = .claiming then "hgs_authority_lost" else "hgs_provider_failed")

/-- The try block of `execute`. -/
def attempt : Exec W (Option Receipt) := do
  match ← approach h with
  | .settled outcome => pure outcome
  | .ready before => write h (← Exec.journal).assignment before

def execute : Exec W (Option Receipt) := do
  let j ← Exec.journal
  match j.state with
  | .terminal => pure j.outcome
  | .prepared =>
    let now ← Exec.now h
    if !unexpired j.assignment now then finish h .failed "hgs_job_expired"
    else tryCatch (attempt h) fun _ => giveUp h
  | _ => recover h

end

end Ipms.Agent.Hgs
