import Ipms.Agent.Gpo.Host

/-
  Ipms.Agent.Gpo.Managed

  Managed GPO operations: the checks of the reported state against the job, the
  postconditions of a write, the read-only inspection and the execution with
  its durable write ordering.
-/

namespace Ipms.Agent.Gpo

open Ipms.Lib Ipms.ManagementJson

/-! ## Links -/

/-- The links of a list that are not of the policy `id`. -/
def withoutPolicy (ls : List Link) (id : String) : List Link := ls.filter fun l => l.guid != id

/-- A link without its order. -/
def Link.unordered (l : Link) : Link := { l with order := 0 }

/-- `unrelated`: the links of other policies, whatever their order numbers. -/
def unrelated (ls : List Link) (id : String) : List Link :=
  (withoutPolicy ls id).map Link.unordered

/-- Number links from one in the order of their list. -/
def renumber (ls : List Link) : List Link :=
  ls.zipIdx.map fun (l, i) => { l with order := i + 1 }

/-! ## State before an operation -/

/-- The size of a link a job will make, as it is written into a snapshot. -/
def newLink (catalog : Catalog) (j : ManagedJob) (target : String) : Link :=
  { guid := if j.gpoGuid = "" then j.managedId else j.gpoGuid, domain := j.domainDnsName,
    dn := target, kind := targetKind catalog j, enabled := false, enforced := false, order := 128 }

/-- Result capacity that a write reserves before it is claimed. -/
def resultReserve (catalog : Catalog) (j : ManagedJob) : Except Exn Nat := do
  let fixed := 1024 + j.targetOus.length * 64
  if j.intendedOperation.isLink then
    let sizes ← j.targetOus.mapM fun target => do
      pure (← serialize (newLink catalog j target).toJson).length
    pure (fixed + (sizes.map (· * (2 + j.targetOus.length))).sum)
  else pure fixed

/-- Whether the intended operation changes the directory at all. -/
def changesState (j : ManagedJob) : Bool :=
  j.intendedOperation != .importManagedGpo || j.gpoGuid == "" || j.ownerMarker != managedMarker j

/-- The order a new link asks for is one the target's other links leave. -/
def linkOrderFits (j : ManagedJob) (direct : List Link) (order : Int) : Bool :=
  let own := direct.countP fun l => l.guid == j.gpoGuid
  let count := direct.length - own + 1
  decide (own ≤ 1) && decide (count ≤ 128) && decide (1 ≤ order) && decide (order ≤ count)

/-- A link of the managed policy itself: of the job's kind and domain, never enforced,
and to a target of the job. -/
def ownLinkFits (catalog : Catalog) (j : ManagedJob) (l : Link) : Bool :=
  l.kind == targetKind catalog j && l.domain == j.domainDnsName && !l.enforced &&
    j.targetOus.any fun t => lower t == lower l.dn

/-- The policy's link to a target. -/
def linkTo (ls : List Link) (target : String) : Option Link :=
  ls.find? fun l => lower l.dn == lower target

/-- The version numbers in the directory and in SYSVOL agree, and no WMI filter is set. -/
def Policy.settled (g : Policy) : Bool :=
  g.wmiFilter == "" && g.computerDs == g.computerSysvol && g.userDs == g.userSysvol

/-- Neither side of the policy is enabled. -/
def Policy.disabled (g : Policy) : Bool := !g.computerEnabled && !g.userEnabled

/-- The checks of the policy a job names. -/
def checkPolicy (catalog : Catalog) (j : ManagedJob) (g : Policy) : Except Exn Unit := do
  throwIf (g.description ≠ j.ownerMarker) (operationError "gpo_unmanaged_target")
  throwIf (!g.settled) (operationError "gpo_state_changed")
  let op := j.intendedOperation
  throwIf ((op.isLink || j.ownerMarker != managedMarker j) && !g.disabled)
    (operationError "gpo_requires_disabled")
  throwIf (j.ownerMarker ≠ managedMarker j ∧ g.links ≠ []) (operationError "gpo_unmanaged_target")
  if op.isLink || op == .activateManagedGpo || op == .deactivateManagedGpo ||
      op == .deleteManagedGpo then
    throwIf (!g.links.all (ownLinkFits catalog j)) (operationError "gpo_link_conflict")
    throwIf (op = .activateManagedGpo ∧
      (g.links.map fun l => lower l.dn).dedup.length ≠ j.targetOus.length)
      (operationError "gpo_link_conflict")
    throwIf (!j.inspection && !j.overrideJob && op == .activateManagedGpo &&
      !((j.targetOus.zip j.linkOrders).all fun (target, order) =>
        (linkTo g.links target).any fun l => l.order == order)) (operationError "gpo_link_conflict")

/-- A deletion may be inspected when the policy is already gone. -/
def confirmedMissing (j : ManagedJob) (state : Value) : Except Exn Bool :=
  if j.inspection && j.intendedOperation == .deleteManagedGpo && j.gpoGuid != "" then do
    pure ((← state.at! "gpo") == .null)
  else pure false

/-- The targets a snapshot must show: the job's own, and the domain itself for a domain job. -/
def checkTargets (catalog : Catalog) (j : ManagedJob) (s : Snapshot) : Except Exn Unit := do
  throwIf (s.ous.length ≠ j.targetOus.length) (operationError "gpo_target_invalid")
  throwIf (domainTarget catalog j &&
    !s.ous.all fun o => o.guid == j.domainGuid && o.inheritedLinks.isEmpty)
    (operationError "gpo_target_invalid")
  throwIf ((s.ous.map fun o => lower o.dn) ≠ j.targetOus.map lower)
    (operationError "gpo_target_invalid")
  throwIf (j.intendedOperation.isLink &&
    !((s.ous.zip j.linkOrders).all fun (o, order) => linkOrderFits j o.links order))
    (operationError "gpo_link_conflict")

/-- Capacity for the result is reserved before an irreversible write is claimed. -/
def checkCapacity (catalog : Catalog) (j : ManagedJob) (s : Snapshot) : Except Exn Unit :=
  if changesState j then do
    throwIf ((← serialize s.toJson).length + (← resultReserve catalog j) > 16384)
      (operationError "gpo_target_invalid")
  else pure ()

/-- `validate_managed_state`, returning the snapshot it accepted. -/
def validateManagedState (catalog : Catalog) (j : ManagedJob) (state : Value) :
    Except Exn Snapshot := do
  let missing ← confirmedMissing j state
  match validSnapshot state with
  | none => throw (operationError "gpo_state_changed")
  | some s => do
    throwIf (!missing && s.guid != j.gpoGuid) (operationError "gpo_state_changed")
    throwIf (!s.nameAvailable) (operationError "gpo_name_collision")
    checkTargets catalog j s
    checkCapacity catalog j s
    match s.gpo with
    | none => pure s
    | some g => do
      checkPolicy catalog j g
      pure s

/-! ## State after a write -/

/-- The containers after a deletion: the policy's own links are gone and the rest renumbered. -/
def deletedOu (id : String) (x y : Ou) : Bool :=
  x.dn == y.dn && x.guid == y.guid && x.blocked == y.blocked &&
    x.inheritedLinks == y.inheritedLinks && y.links == renumber (withoutPolicy x.links id)

/-- The containers after any other write: nothing unrelated changed. -/
def keptOu (op : Operation) (id : String) (x y : Ou) : Bool :=
  x.dn == y.dn && x.guid == y.guid && x.blocked == y.blocked &&
    unrelated x.links id == unrelated y.links id &&
    unrelated x.inheritedLinks id == unrelated y.inheritedLinks id &&
    (!(op == .importManagedGpo || op == .deactivateManagedGpo) || x == y)

/-- Whether the owner of the policy is written by the operation. -/
def ownerWrite (j : ManagedJob) (original : Option Policy) : Bool :=
  j.operation == .activateManagedGpo || original == none || j.ownerMarker != managedMarker j

/-- What a policy that existed before keeps. -/
def keptPolicy (op : Operation) (prior g : Policy) : Bool :=
  g.securityDigest == prior.securityDigest &&
    (op == .activateManagedGpo ||
      g.computerDs == prior.computerDs && g.computerSysvol == prior.computerSysvol &&
        g.userDs == prior.userDs && g.userSysvol == prior.userSysvol) &&
    (op != .deactivateManagedGpo || g.links == prior.links)

/-- The owner after the operation. -/
def ownerAfter (j : ManagedJob) (original : Option Policy) (after : Snapshot) (g : Policy) : Bool :=
  if ownerWrite j original then g.ownerSid == after.domainAdminsSid
  else original.all fun prior => g.ownerSid == prior.ownerSid

/-- Whether the operation takes the policy over or creates it. -/
def takesOver (j : ManagedJob) (original : Option Policy) : Bool :=
  original == none || j.ownerMarker != managedMarker j

/-- The name after the operation. -/
def nameAfter (j : ManagedJob) (original : Option Policy) (g : Policy) : Bool :=
  let op := j.operation
  (!(op == .importManagedGpo || op == .activateManagedGpo ||
      op == .importAndLinkManagedGpo && takesOver j original) || g.name == j.pilotDisplayName) &&
    (!(op == .importAndLinkManagedGpo && !takesOver j original) ||
      original.all fun prior => g.name == prior.name)

/-- The policy's link to one target after the operation, seen from both sides. -/
def targetLinked (catalog : Catalog) (j : ManagedJob) (g : Policy) (target : String) (order : Int)
    (y : Ou) : Bool :=
  (linkTo g.links target).any fun l =>
    l.kind == targetKind catalog j && l.domain == j.domainDnsName && !l.enforced &&
      l.enabled == (j.operation == .activateManagedGpo) && l.order == order &&
      y.links.find? (fun own => own.guid == g.guid) == some l

/-- The policy's links after the operation: one to each target. -/
def linksAfter (catalog : Catalog) (j : ManagedJob) (after : Snapshot) (g : Policy) : Bool :=
  !(j.operation.isLink || j.operation == .activateManagedGpo) ||
    g.links.length == j.targetOus.length &&
      (j.targetOus.zip (j.linkOrders.zip after.ous)).all fun (target, order, y) =>
        targetLinked catalog j g target order y

/-- The enabled sides after an activation: those of the component's scope. -/
def enabledAfter (catalog : Catalog) (j : ManagedJob) (g : Policy) : Bool :=
  j.operation != .activateManagedGpo ||
    (component catalog j.toJobCore).any fun content =>
      g.computerEnabled == (content.scope == .machine || content.scope == .domain) &&
        g.userEnabled == (content.scope == .user)

/-- Whether two snapshots list containers that correspond one by one. -/
def ousCorrespond (p : Ou → Ou → Bool) (before after : List Ou) : Bool :=
  before.length == after.length && (before.zip after).all fun (x, y) => p x y

/-- The postconditions of a deletion. -/
def deletePostconditions (before after : Snapshot) : Bool :=
  match before.gpo with
  | none => false
  | some original => after.gpo == none &&
      ousCorrespond (deletedOu original.guid) before.ous after.ous

/-- The postconditions of every other operation. -/
def writePostconditions (catalog : Catalog) (j : ManagedJob) (before after : Snapshot) : Bool :=
  match after.gpo with
  | none => false
  | some g =>
    (before.gpo.all fun prior => keptPolicy j.operation prior g) &&
      ownerAfter j before.gpo after g &&
      ousCorrespond (keptOu j.operation g.guid) before.ous after.ous &&
      nameAfter j before.gpo g && linksAfter catalog j after g && enabledAfter catalog j g

/-- The conditions `postconditions` checks of a valid snapshot. -/
def postconditionsHold (catalog : Catalog) (j : ManagedJob) (before after : Snapshot) : Bool :=
  after.nameAvailable && after.domainAdminsSid == before.domainAdminsSid &&
    if j.operation = .deleteManagedGpo then deletePostconditions before after
    else writePostconditions catalog j before after

/-- The verification error. -/
def verificationFailed : Exn := operationError "gpo_verification_failed"

/-- `postconditions`, returning the snapshot it accepted. -/
def postconditions (catalog : Catalog) (j : ManagedJob) (before : Snapshot) (after : Value) :
    Except Exn Snapshot :=
  match (validSnapshot after).filter (postconditionsHold catalog j before) with
  | some s => .ok s
  | none => .error verificationFailed

/-- Neither side of a reported policy is enabled. -/
def checkDisabled (g : Value) : Except Exn Unit := do
  throwIf ((← (← g.at! "computer_enabled").asBool) = true) verificationFailed
  throwIf ((← (← g.at! "user_enabled").asBool) = true) verificationFailed

/-- A reported policy has no links. -/
def checkUnlinked (g : Value) : Except Exn Unit := do
  throwIf ((← (← g.at! "links").asArr) ≠ []) verificationFailed

/-- The checks of the final state that come before its postconditions. -/
def checkFinal (j : ManagedJob) (guid : String) (after : Value) : Except Exn Unit := do
  throwIf ((← stateGuid after) ≠ guid) verificationFailed
  let g ← after.at! "gpo"
  throwIf ((← (← g.at! "description").asStr) ≠ managedMarker j) verificationFailed
  throwIf ((← (← g.at! "wmi_filter").asStr) ≠ "") verificationFailed
  throwIf ((← g.at! "computer_ds") ≠ (← g.at! "computer_sysvol")) verificationFailed
  throwIf ((← g.at! "user_ds") ≠ (← g.at! "user_sysvol")) verificationFailed
  if j.operation = .activateManagedGpo then pure () else checkDisabled g
  if j.operation = .importManagedGpo then checkUnlinked g else pure ()

/-- What an import that also links must show between its two writes: only the new or
adopted policy may differ from the approved state. -/
def checkPrepared (j : ManagedJob) (adoption : Bool) (state : Snapshot) (guid : String)
    (prepared : Value) : Except Exn Unit := do
  match validSnapshot prepared with
  | none => throw (operationError "gpo_state_changed")
  | some s => do
    throwIf (s.guid ≠ guid ∨ s.nameAvailable = false ∨ s.ous ≠ state.ous)
      (operationError "gpo_state_changed")
    match s.gpo with
    | none => throw Value.badAccess
    | some policy => do
      throwIf (!policy.disabled || policy.description != managedMarker j || !policy.settled)
        verificationFailed
      if j.gpoGuid = "" then
        throwIf (policy.name ≠ j.pilotDisplayName ∨ policy.links ≠ [])
          (operationError "gpo_state_changed")
      else
        let expected := state.gpo.map fun g => if adoption then
          { g with name := j.pilotDisplayName, description := managedMarker j } else g
        throwIf (some policy ≠ expected) (operationError "gpo_state_changed")

/-! ## Running an operation -/

section
variable {W : Type} (catalog : Catalog) (h : Host W)

/-- `if(!authority())fail("gpo_authority_expired")`. -/
def requireAuthority : Exec W Unit := do
  throwIf ((← Exec.call h.authority) = false) (operationError "gpo_authority_expired")

/-- `terminal`: record a success and its evidence. -/
def terminal (j : ManagedJob) (status : Status) (code : String) (state : Snapshot)
    (backup : String × String := ("", "")) : Exec W Receipt := do
  Exec.update fun r => { r with gpoGuid := state.guid }
  let r ← Prog.ofExcept
    (result status code state.guid (.managed (managedEvidence j state backup.1 backup.2)))
  Exec.update fun j => { j with result := some r, state := .terminal }
  Exec.save h
  pure r

/-- The result of a failure: the error's own code where it is known, else the provider's. -/
def failureResult (status : Status) (e : Exn) (guid : String) : Except Exn Receipt :=
  match result status e.what guid with
  | .ok r => .ok r
  | .error _ => result status "gpo_provider_failed" guid

/-- Record a failure in a completed phase. -/
def recordFailure (phase : Phase) (r : Receipt) : Exec W Receipt := do
  Exec.update fun j => { j with state := phase, result := some r }
  Exec.save h
  pure r

/-- The body of `inspect_managed`. -/
def inspectBody (j : ManagedJob) : Exec W Receipt := do
  requireAuthority h
  let state ← Exec.call h.inspect
  let s ← Prog.ofExcept (validateManagedState catalog j state)
  requireAuthority h
  terminal h j .inspected "gpo_inspected" s

def inspectManaged : Exec W Receipt := do
  let journal ← Exec.journal
  match journal.assignment with
  | .pilot _ _ => throw invalidJournal
  | .managed j => do
    throwIf (!j.inspection ∨ journal.state ≠ .prepared ∨ journal.portalApproval ≠ none ∨
      journal.grantDeadlineTick ≠ 0) invalidJournal
    tryCatch (inspectBody catalog h j) fun e => do
      let r ← Prog.ofExcept (failureResult .failed e "")
      recordFailure h .terminal r

/-- The artifact an operation writes is unpacked first. -/
def prepareContent (j : ManagedJob) : Exec W Unit :=
  if j.operation.prepares then Exec.call h.prepare else pure ()

/-- The backup of a policy that is activated or deleted. -/
def takeBackup (j : ManagedJob) : Exec W (String × String) :=
  if j.operation.backsUp then do
    let backup ← Exec.call (h.backup j.gpoGuid)
    throwIf (!validUuid backup.1 || !digest backup.2) (operationError "gpo_backup_failed")
    pure backup
  else pure ("", "")

/-- Everything before the first write: the approved state is still the one reported,
content and backup are ready, and the approval is consumed. -/
def prepareWrite (j : ManagedJob) : Exec W (Snapshot × (String × String)) := do
  let _ ← Prog.ofExcept (portalApprovalReceipt (← Exec.journal))
  requireAuthority h
  let state ← Exec.call h.inspect
  let s ← Prog.ofExcept (validateManagedState catalog j state)
  throwIf (j.expectedState ≠ some s) (operationError "gpo_state_changed")
  prepareContent h j
  let backup ← takeBackup h j
  throwIf ((← Exec.call h.inspect) ≠ expectedStateJson j.expectedState)
    (operationError "gpo_state_changed")
  requireAuthority h
  Exec.call h.consume
  pure (s, backup)

/-- `target.empty()?provider.create():target`. -/
def createOrOpen (j : ManagedJob) : Exec W String :=
  if j.gpoGuid = "" then Exec.mutate .create h.create else pure j.gpoGuid

/-- The policy an operation writes: a new one, or the one the job names. -/
def openPolicy (j : ManagedJob) : Exec W String := do
  Exec.update fun r => { r with state := .creating }
  Exec.save h
  modify fun r => { r with writeIntent := true }
  requireAuthority h
  let guid ← createOrOpen h j
  Exec.update fun r => { r with gpoGuid := guid }
  throwIf (!validUuid guid || protectedGpo guid) verificationFailed
  Exec.update fun r => { r with state := .created }
  Exec.save h
  Exec.update fun r => { r with state := .importing }
  Exec.save h
  pure guid

/-- The content of an import: a pilot is adopted, a new policy is initialized, and an
already managed one stays as it is. -/
def importContent (j : ManagedJob) (adoption : Bool) (guid : String) : Exec W Unit :=
  if adoption then Exec.mutate (.adopt guid) (h.adopt guid)
  else if j.gpoGuid = "" then Exec.mutate (.initializeGpo guid) (h.initializeGpo guid)
  else pure ()

/-- The link that follows an import under the same approval. -/
def linkImported (j : ManagedJob) (adoption : Bool) (state : Snapshot) (guid : String) :
    Exec W Unit := do
  let prepared ← Exec.call h.inspect
  Prog.ofExcept (checkPrepared j adoption state guid prepared)
  -- Expiry, drift or failure from here requires reconciliation, never replay.
  Exec.save h
  requireAuthority h
  Exec.mutate (.link guid) (h.link guid)

/-- The write of an operation. -/
def writePolicy (j : ManagedJob) (adoption : Bool) (state : Snapshot) (guid : String) :
    Exec W Unit :=
  match j.operation with
  | .importManagedGpo => importContent h j adoption guid
  | .importAndLinkManagedGpo => do
    importContent h j adoption guid
    linkImported h j adoption state guid
  | .linkManagedGpo => Exec.mutate (.link guid) (h.link guid)
  | .activateManagedGpo => Exec.mutate (.activate guid) (h.activate guid)
  | .deactivateManagedGpo => Exec.mutate (.deactivate guid) (h.deactivate guid)
  | _ => Exec.mutate (.remove guid) (h.remove guid)

/-- The verification of the final state and the success it ends with. -/
def finish (j : ManagedJob) (state : Snapshot) (guid : String) (backup : String × String) :
    Exec W Receipt := do
  let after ← Exec.call h.inspect
  match j.operation with
  | .deleteManagedGpo => do
    throwIf ((← Prog.ofExcept (stateGuid after)) ≠ "") verificationFailed
    let s ← Prog.ofExcept (postconditions catalog j state after)
    terminal h j .deleted "gpo_deleted" s backup
  | .importManagedGpo => do
    Prog.ofExcept (checkFinal j guid after)
    let s ← Prog.ofExcept (postconditions catalog j state after)
    terminal h j .staged "gpo_prepared" s backup
  | .importAndLinkManagedGpo | .linkManagedGpo => do
    Prog.ofExcept (checkFinal j guid after)
    let s ← Prog.ofExcept (postconditions catalog j state after)
    terminal h j .linked "gpo_linked" s backup
  | .activateManagedGpo => do
    Prog.ofExcept (checkFinal j guid after)
    let s ← Prog.ofExcept (postconditions catalog j state after)
    terminal h j .activated "gpo_activated" s backup
  | _ => do
    Prog.ofExcept (checkFinal j guid after)
    let s ← Prog.ofExcept (postconditions catalog j state after)
    terminal h j .deactivated "gpo_deactivated" s backup

/-- Whether a write adopts a pilot that is not managed yet. -/
def ManagedJob.adoption (j : ManagedJob) : Bool := j.gpoGuid != "" && j.ownerMarker != managedMarker j

/-- The body of `execute_managed`. -/
def executeBody (j : ManagedJob) : Exec W Receipt := do
  let (state, backup) ← prepareWrite catalog h j
  -- Preparing a new version of an already managed policy writes nothing.
  if j.operation = .importManagedGpo ∧ j.gpoGuid ≠ "" ∧ j.adoption = false then
    terminal h j .staged "gpo_prepared" state
  else do
    let guid ← openPolicy h j
    writePolicy h j j.adoption state guid
    finish catalog h j state guid backup

/-- The catch block of `execute_managed`. -/
def executeFailed (e : Exn) : Exec W Receipt := do
  let run ← get
  let status := if run.writeIntent then Status.requiresReconciliation else .failed
  let guid := if run.writeIntent then run.journal.gpoGuid else ""
  let r ← Prog.ofExcept (failureResult status e guid)
  recordFailure h (if run.writeIntent then .reconciliation else .terminal) r

def executeManaged : Exec W Receipt := do
  let journal ← Exec.journal
  match journal.assignment with
  | .pilot _ _ => throw invalidJournal
  | .managed j => do
    throwIf (j.inspection = true) invalidJournal
    if journal.state.completed then
      match journal.result with
      | some r => pure r
      | none => throw Value.badAccess
    else do
      throwIf (journal.state ≠ .granted) invalidJournal
      modify fun r => { r with writeIntent := false }
      tryCatch (executeBody catalog h j) (executeFailed h)

end

end Ipms.Agent.Gpo
