import Ipms.Lib.Insertion
import Ipms.Server.Gpo.Fence

/-
  Ipms.Server.Gpo.Postcondition

  The success receipts of managed jobs.  `postcondition` compares the reported
  state with the approved one, field by field and link by link; `receiveSuccess`
  records an accepted receipt and moves the managed policy with it.
-/

namespace Ipms.Server.Gpo

open Ipms.Lib Ipms.ManagementJson
open Ipms.Agent.Gpo (ManagedJob ManagedEvidence Operation Snapshot Ou Link LinkKind)

/-! ## The fields of a policy -/

/-- The groups of policy fields an operation may change. -/
structure Changed where
  content : Bool := false
  name : Bool := false
  flags : Bool := false
  links : Bool := false
  adoption : Bool := false
  owner : Bool := false
  deriving DecidableEq

/-- `_fixed_gpo`: every field that may not change is as it was. -/
def fixedGpo (c : Changed) (before after : Agent.Gpo.Policy) : Bool :=
  after == { before with
    computerDs := if c.content then after.computerDs else before.computerDs
    computerSysvol := if c.content then after.computerSysvol else before.computerSysvol
    userDs := if c.content then after.userDs else before.userDs
    userSysvol := if c.content then after.userSysvol else before.userSysvol
    name := if c.name then after.name else before.name
    computerEnabled := if c.flags then after.computerEnabled else before.computerEnabled
    userEnabled := if c.flags then after.userEnabled else before.userEnabled
    links := if c.links then after.links else before.links
    description := if c.adoption then after.description else before.description
    ownerSid := if c.owner then after.ownerSid else before.ownerSid }

/-- The check of `_fixed_gpo`. -/
def checkFixed (c : Changed) (before after : Agent.Gpo.Policy) : Except ServerError Unit :=
  throwIf (fixedGpo c before after = false) (invalid "An unrelated GPO property changed.")

/-! ## Links -/

/-- Number links from one, in their order. -/
def renumber (ls : List Link) : List Link :=
  ls.zipIdx.map fun (l, i) => { l with order := (i : Int) + 1 }

/-- The place `list.insert` gives an index: a negative one counts from the end, and no place is
beyond the ends. -/
def insertPlace (length : Nat) (index : Int) : Nat :=
  if index < 0 then (index + length).toNat else min index.toNat length

/-- The links of a list that are not to a policy. -/
def unrelated (guid : String) (ls : List Link) : List Link := ls.filter fun l => l.guid != guid

section
variable (content : Content) (a : ManagedJob)

/-- The link an operation leaves in a container. -/
def approvedLinkTo (guid dn : String) (order : Int) : Link :=
  { guid, domain := a.domainDnsName, dn, kind := linkKind content a,
    enabled := a.operation == .activateManagedGpo, enforced := false, order }

/-- The place of the approved insertion. -/
def approvedPlace (guid : String) (prior : List Link) (order : Int) : Nat :=
  insertPlace (unrelated guid prior).length (order - 1)

/-- The links of a container after the approved insertion. -/
def insertedLinks (guid : String) (prior : List Link) (link : Link) : List Link :=
  renumber (insertAt (unrelated guid prior) (approvedPlace guid prior link.order) link)

/-- The links a container reports after the operation are those it had, with the approved one
inserted. -/
def checkInserted (guid : String) (prior after : Ou) (order : Int) : Except ServerError Unit :=
  throwIf (after.links ≠ insertedLinks guid prior.links (approvedLinkTo content a guid after.dn order))
    (invalid "A link changed outside the approved insertion.")

/-- One inherited link of the policy: from an approved container above this one. -/
def checkInherited (child : List (Attribute × String)) (l : Link) : Except ServerError Unit := do
  throwIf (domainTarget content a = true ∨ l.kind ≠ .ou ∨ l.domain ≠ a.domainDnsName ∨
    targetOu content l.dn a = false ∨ l.enforced = true ∨
    l.enabled ≠ (a.operation == .activateManagedGpo)) invalid
  match ouIdentity content.unicode l.dn a.domainDnsName with
  | none => throw invalid
  | some parent =>
    throwIf (child.length ≤ parent.length ∨ !parent.isSuffixOf child)
      (invalid "A reported inherited link is not an approved ancestor.")

/-- One container after an operation that links. -/
def checkLinked (guid : String) (prior after : Ou) (order : Int) : Except ServerError Unit := do
  throwIf (prior.dn ≠ after.dn ∨ prior.guid ≠ after.guid ∨ prior.blocked ≠ after.blocked) invalid
  throwIf (unrelated guid prior.inheritedLinks ≠ unrelated guid after.inheritedLinks)
    (invalid "An unrelated inherited link changed.")
  match targetIdentity content after.dn a.domainDnsName (domainTarget content a) with
  | none => throw invalid
  | some child =>
    (after.inheritedLinks.filter fun l => l.guid == guid).forM (checkInherited content a child)
  checkInserted content a guid prior after order

/-- Every container after an operation that links. -/
def checkContainers (guid : String) : List Ou → List Ou → List Int → Except ServerError Unit
  | [], [], _ => pure ()
  | prior :: priors, after :: afters, order :: orders => do
    checkLinked content a guid prior after order
    checkContainers guid priors afters orders
  | _, _, _ => throw .valueError

/-- The order of links by name and position. -/
def linkPlaceBefore (l m : Link) : Bool :=
  decide (l.dn < m.dn) || l.dn == m.dn && decide (l.order ≤ m.order)

/-- Links sorted by name and position. -/
def placedLinks (ls : List Link) : List Link :=
  ls.insertionSort fun l m => linkPlaceBefore l m = true

/-- The approved links, with the order the renumbering gives each. -/
def expectedLinks (guid : String) : List Ou → List Ou → List Int → List Link
  | prior :: priors, after :: afters, order :: orders =>
    approvedLinkTo content a guid after.dn (approvedPlace guid prior.links order + 1) ::
      expectedLinks guid priors afters orders
  | _, _, _ => []

/-- The links the policy reports are the approved ones. -/
def checkPolicyLinks (g : Agent.Gpo.Policy) (before after : Snapshot) : Except ServerError Unit :=
  throwIf (placedLinks g.links ≠
    placedLinks (expectedLinks content a g.guid before.ous after.ous a.linkOrders)) invalid

end

/-! ## The postcondition -/

section
variable (content : Content) (a : ManagedJob)

/-- One container after a deletion. -/
def checkDeletedOu (guid : String) (prior after : Ou) : Except ServerError Unit := do
  throwIf (prior.dn ≠ after.dn ∨ prior.guid ≠ after.guid ∨ prior.blocked ≠ after.blocked ∨
    prior.inheritedLinks ≠ after.inheritedLinks)
    (invalid "An unrelated OU property changed during deletion.")
  throwIf (after.links ≠ renumber (unrelated guid prior.links))
    (invalid "Deletion changed links outside the managed GPO.")

/-- Every container after a deletion. -/
def checkDeletedOus (guid : String) : List Ou → List Ou → Except ServerError Unit
  | [], [] => pure ()
  | prior :: priors, after :: afters => do
    checkDeletedOu guid prior after
    checkDeletedOus guid priors afters
  | _, _ => throw .valueError

/-- A deletion. -/
def checkDeleted (before state : Snapshot) (backedUp : Bool) : Except ServerError Unit :=
  match before.gpo with
  | none => throw (invalid "Deletion requires a protected backup and confirmed GPO absence.")
  | some old => do
    throwIf (backedUp = false ∨ state.gpo ≠ none ∨ state.nameAvailable = false)
      (invalid "Deletion requires a protected backup and confirmed GPO absence.")
    checkDeletedOus old.guid before.ous state.ous

/-- An import that does not link: the containers stay, and an already managed policy too. -/
def checkImported (before state : Snapshot) (g : Agent.Gpo.Policy) : Except ServerError Unit := do
  throwIf (state.ous ≠ before.ous) invalid
  match before.gpo with
  | none => throwIf (g.name ≠ a.pilotDisplayName ∨ g.computerEnabled = true ∨
      g.userEnabled = true ∨ g.links ≠ []) invalid
  | some old =>
    if pilotOwned a.ownerMarker then do
      throwIf (g.name ≠ a.pilotDisplayName ∨ g.computerEnabled = true ∨ g.userEnabled = true ∨
        g.links ≠ []) invalid
      checkFixed { name := true, adoption := true, owner := true } old g
    else throwIf (g ≠ old) (invalid "Preparing a revision must not change the live GPO.")

/-- A deactivation. -/
def checkDeactivated (before state : Snapshot) (old g : Agent.Gpo.Policy) :
    Except ServerError Unit := do
  checkFixed { flags := true } old g
  throwIf (g.computerEnabled = true ∨ g.userEnabled = true ∨ state.ous ≠ before.ous) invalid

/-- The policy itself after an import that links, an activation or a link. -/
def checkLinkedPolicy (before : Snapshot) (g : Agent.Gpo.Policy) (backedUp : Bool) :
    Except ServerError Unit :=
  match a.operation with
  | .importAndLinkManagedGpo => do
    let adoption := pilotOwned a.ownerMarker
    match before.gpo with
    | none => pure ()
    | some old => checkFixed { links := true, name := adoption, adoption, owner := adoption } old g
    throwIf ((before.gpo = none ∨ adoption = true) ∧ g.name ≠ a.pilotDisplayName ∨
      g.computerEnabled = true ∨ g.userEnabled = true)
      (invalid "Import and linking must leave the policy disabled.")
  | .activateManagedGpo => do
    throwIf (backedUp = false) (invalid "Activation requires the protected backup receipt.")
    match before.gpo, content.components a.baselineId a.backupId with
    | some old, some component => do
      checkFixed
        { content := true, name := true, flags := true, links := true, owner := true } old g
      throwIf (g.name ≠ a.pilotDisplayName ∨ g.userEnabled ≠ (component.scope == .user) ∨
        g.computerEnabled ≠ (component.scope != .user)) invalid
    | _, _ => throw invalid
  | _ =>
    match before.gpo with
    | none => throw invalid
    | some old => do
      checkFixed { links := true } old g
      throwIf (g.computerEnabled = true ∨ g.userEnabled = true) invalid

/-- Whether an operation makes the domain administrators the owner. -/
def ownerWrite (before : Snapshot) : Bool :=
  a.operation == .activateManagedGpo || before.gpo.isNone || a.ownerMarker != ownerMarker a

/-- The owner after an operation that links. -/
def checkOwner (before state : Snapshot) (g : Agent.Gpo.Policy) : Except ServerError Unit :=
  throwIf (if ownerWrite a before then g.ownerSid ≠ state.domainAdminsSid
    else (before.gpo.any fun old => g.ownerSid != old.ownerSid) = true)
    (invalid "The managed GPO owner is not the domain administrators group.")

/-- A change of the policy: what every operation but a deletion leaves. -/
def checkChanged (before state : Snapshot) (backedUp : Bool) : Except ServerError Unit :=
  match state.gpo with
  | none => throw invalid
  | some g => do
    throwIf (state.nameAvailable = false ∨ g.wmiFilter ≠ "") invalid
    throwIf (g.description ≠ ownerMarker a) invalid
    throwIf ((before.gpo.any fun old => g.guid != old.guid) = true) invalid
    if a.operation = .importManagedGpo then checkImported a before state g
    else do
      throwIf (before.gpo = none ∧ a.operation ≠ .importAndLinkManagedGpo) invalid
      match a.operation, before.gpo with
      | .deactivateManagedGpo, some old => checkDeactivated before state old g
      | _, _ => do
        checkLinkedPolicy content a before g backedUp
        checkOwner a before state g
        checkContainers content a g.guid before.ous state.ous a.linkOrders
        checkPolicyLinks content a g before state

/-- The guid a receipt must name: that of the reported policy, or null. -/
def guidOf (state : Snapshot) : Value := (state.gpo.map fun g => Value.str g.guid).getD .null

/-- Whether evidence reports a backup; both fields of one are checked. -/
def checkBackup (e : ManagedEvidence) : Except ServerError Bool :=
  if e.backupId = "" ∧ e.backupManifestSha256 = "" then pure false
  else do
    throwIf (uuidText e.backupId = false) invalid
    throwIf (sha e.backupManifestSha256 = false) invalid
    pure true

/-- The domain administrators are still those of the approved state. -/
def checkAdministrators (state : Snapshot) : Except ServerError Unit :=
  if a.inspection then pure ()
  else throwIf ((a.expectedState.any fun s => s.domainAdminsSid == state.domainAdminsSid) = false)
    (invalid "The domain administrators identity changed during the operation.")

/-- What an inspection reports of the policy it was asked about. -/
def checkInspected (guid : Value) (backedUp : Bool) : Except ServerError Unit :=
  let missingDeleteTarget :=
    a.intendedOperation == .deleteManagedGpo && a.gpoGuid != "" && guid == .null
  throwIf (backedUp = true ∨ missingDeleteTarget = false ∧
    guid ≠ (if a.gpoGuid = "" then .null else .str a.gpoGuid)) invalid

/-- The artifact an operation prepared. -/
def preparedArtifact : String :=
  if a.operation = .importManagedGpo ∨ a.operation = .importAndLinkManagedGpo ∨
      a.operation = .activateManagedGpo then a.artifactSha256 else ""

def postcondition (evidence guid : Value) : Except ServerError Unit := do
  let component := content.components a.baselineId a.backupId
  throwIf (component = none ∨ (component.any fun c => c.scope == .domain) ∧ a.targetTier ≠ 0)
    (invalid "Domain-scoped settings require Tier 0 authority.")
  match Value.exactly ManagedEvidence.toJson ManagedEvidence.read evidence with
  | none => throw invalid
  | some e => do
    throwIf (e.schema ≠ a.schema ∨ e.operation ≠ a.operation ∨ e.managedId ≠ a.managedId) invalid
    throwIf (e.overrideSha256 ≠ a.override.map Agent.Gpo.Override.overrideSha256)
      (invalid "Override evidence differs from the approved patch.")
    let state ← validateSnapshot content a e.state.toJson
    checkAdministrators a state
    throwIf (guid ≠ guidOf state) invalid
    throwIf (e.preparedArtifactSha256 ≠ preparedArtifact a) invalid
    let backedUp ← checkBackup e
    throwIf (backedUp = true ∧ a.operation ≠ .activateManagedGpo ∧
      a.operation ≠ .deleteManagedGpo)
      (invalid "Only activation or deletion may report a recovery backup.")
    if a.inspection then checkInspected a guid backedUp
    else match a.expectedState with
      | none => throw .valueError
      | some before =>
        if a.operation = .deleteManagedGpo then checkDeleted before state backedUp
        else checkChanged content a before state backedUp

end

/-! ## Success receipts -/

/-- A result as the exchange receives it. -/
structure ResultDocument where
  status : Value
  resultCode : Value
  gpoGuid : Value
  evidence : Value
  deriving DecidableEq

def ResultDocument.digest (d : ResultDocument) : String :=
  Server.digest (Db.receiptJson d.status d.resultCode d.gpoGuid d.evidence)

/-- `SUCCESS`: the status and the code an operation succeeds with. -/
def success : Operation → Option (JobStatus × String)
  | .createUnlinkedPilot => none
  | .inspectManagedGpo => some (.inspected, "gpo_inspected")
  | .importManagedGpo => some (.staged, "gpo_prepared")
  | .linkManagedGpo | .importAndLinkManagedGpo => some (.linked, "gpo_linked")
  | .activateManagedGpo => some (.activated, "gpo_activated")
  | .deactivateManagedGpo => some (.deactivated, "gpo_deactivated")
  | .deleteManagedGpo => some (.deleted, "gpo_deleted")

/-- The statuses of `SUCCESS`. -/
def successStatuses : List String :=
  ["inspected", "staged", "linked", "activated", "deactivated", "deleted"]

/-! ### The version of a rendered name -/

/-- `template.format`, for templates whose braces are the five tokens. -/
def formatTemplate (field : String → Option String) : Nat → List Char → Option (List Char)
  | _, [] => some []
  | 0, _ => none
  | fuel + 1, c :: rest =>
    if c = '{' then do
      let value ← field (String.ofList (rest.takeWhile (· ≠ '}')))
      let tail ← formatTemplate field fuel ((rest.dropWhile (· ≠ '}')).drop 1)
      pure (value.toList ++ tail)
    else (formatTemplate field fuel rest).map (c :: ·)

/-- `str.split`. -/
def splitText (separator : List Char) : Nat → List Char → List Char → List (List Char)
  | _, [], part => [part]
  | 0, cs, part => [part ++ cs]
  | fuel + 1, c :: rest, part =>
    if separator.isPrefixOf (c :: rest) then
      part :: splitText separator fuel ((c :: rest).drop separator.length) []
    else splitText separator fuel rest (part ++ [c])

/-- The text that stands for the version while a name is rendered. -/
def versionMarker : String := "__IPMS_VERSION__"

/-- The purpose token of a policy's name. -/
def namePurpose (content : Content) (db : Db) (a : ManagedJob) (policy : ManagedGpoPolicy) :
    Option String :=
  match policy.override with
  | some id => (db.overrides.get? id).map GpoOverride.name
  | none => (content.components a.baselineId a.backupId).bind
      (compactPurpose content policy.baselineId)

/-- The value of a token of a template. -/
def nameToken (tier scope target purpose version token : String) : Option String :=
  -- `{tier:}` has an empty format specification, which changes nothing.
  let token := if token.toList.getLast? = some ':' then String.ofList token.toList.dropLast else token
  if token = "tier" then some tier
  else if token = "scope" then some scope
  else if token = "target" then some target
  else if token = "purpose" then some purpose
  else if token = "version" then some version
  else none

/-- The name of a policy with the marker for its version. -/
def markedName (content : Content) (db : Db) (a : ManagedJob) (policy : ManagedGpoPolicy)
    (template : String) : Option (List Char) := do
  let component ← content.components a.baselineId a.backupId
  let purpose ← namePurpose content db a policy
  formatTemplate (nameToken (toString policy.tier) (if component.scope = .user then "U" else "C")
    policy.target purpose versionMarker) template.toList.length template.toList

/-- The parts of a name around the marker. -/
def aroundMarker (name : List Char) : List (List Char) :=
  splitText versionMarker.toList name.length name []

/-- The version a display name carries between two parts of its template. -/
def recoverVersion (displayName left right : List Char) : String :=
  let n := displayName.length
  let stop := if right.length ≤ n then n - right.length else n - (right.length - n)
  String.ofList ((displayName.take stop).drop left.length)

/-- The policy after an import. -/
def importedPolicy (content : Content) (db : Db) (job : GpoImportJob) (a : ManagedJob)
    (policy : ManagedGpoPolicy) : Except ServerError ManagedGpoPolicy :=
  match (db.domains.get? job.domain).bind fun config =>
      markedName content db a policy config.gpoNameTemplate with
  | none => throw .valueError
  | some name =>
    match aroundMarker name with
    | [left, right] => pure { policy with
        originJob := some (policy.originJob.getD job.id)
        stagedJob := some job.id
        state := if a.operation = .importAndLinkManagedGpo then .linked
          else if policy.state = .active then .active else .prepared
        displayName := job.pilotDisplayName
        nameKey := job.pilotNameKey
        backupId := a.backupId
        version := recoverVersion job.pilotDisplayName.toList left right }
    | _ => throw .valueError

/-- The policy after a change that keeps it. -/
def changedPolicy (content : Content) (db : Db) (job : GpoImportJob) (a : ManagedJob)
    (policy : ManagedGpoPolicy) : Except ServerError ManagedGpoPolicy :=
  match a.operation with
  | .importManagedGpo | .importAndLinkManagedGpo => importedPolicy content db job a policy
  | .linkManagedGpo => pure { policy with state := .linked }
  | .activateManagedGpo => pure { policy with state := .active, activeJob := some job.id }
  | _ => pure { policy with state := .inactive }

/-- What a success does to the managed policy. -/
def receivePolicy (content : Content) (job : GpoImportJob) (a : ManagedJob)
    (policy : ManagedGpoPolicy) (evidence : Value) : Request Unit := do
  if a.operation = .inspectManagedGpo then
    if a.intendedOperation = .deleteManagedGpo ∧
        (evidence.get? "state").bind (·.get? "gpo") = some .null then deletePolicy policy
    else pure ()
  else if a.operation = .deleteManagedGpo then deletePolicy policy
  else do
    let changed ← Txn.ofExcept
      (changedPolicy content (← get) job a { policy with gpoGuid := job.gpoGuid })
    savePolicy { changed with revision := changed.revision + 1 }

/-- The job with its success. -/
def GpoImportJob.succeed (job : GpoImportJob) (status : JobStatus) (d : ResultDocument)
    (now : Time) : GpoImportJob :=
  { job with
    status, errorCode := ""
    gpoGuid := match d.gpoGuid with
      | .str guid => guid
      | _ => ""
    resultEvidence := d.evidence, resultDigest := d.digest, completedAt := some now }

/-- What a job must be for a success to be recorded. -/
def checkReceiving (content : Content) (db : Db) (now : Time) (job : GpoImportJob) (a : ManagedJob) :
    Except ServerError Unit :=
  if a.operation = .inspectManagedGpo then
    match db.enrollments.get? job.enrollment, db.tenants.get? job.tenant with
    | some enrollment, some tenant => throwIf (job.status ≠ .queued ∨ job.claimedAt ≠ none ∨
        job.expiresAt ≤ now ∨
        db.managedScopeCurrent now content job a enrollment tenant = false) invalid
    | _, _ => throw .notFound
  else throwIf (job.status ≠ .running ∨ job.claimedAt = none) invalid

def receiveSuccess (content : Content) (now : Time) (job : GpoImportJob) (a : ManagedJob)
    (d : ResultDocument) : Request Unit := do
  match success a.operation with
  | none => throw invalid
  | some (status, code) => do
    throwIf (d.status ≠ .str status.text ∨ d.resultCode ≠ .str code) invalid
    if job.status.succeeded then throwIf (job.resultDigest ≠ d.digest) invalid
    else do
      let db ← get
      Txn.ofExcept (checkReceiving content db now job a)
      Txn.ofExcept (postcondition content a d.evidence d.gpoGuid)
      match db.policyForJob job with
      | none => throw invalid
      | some policy => do
        throwIf (policy.revision ≠ a.managedRevision) invalid
        let received := job.succeed status d now
        saveJob received
        receivePolicy content received a policy d.evidence

end Ipms.Server.Gpo
