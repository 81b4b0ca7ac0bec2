import Mathlib.Data.List.Sort
import Ipms.Lib.Fallible
import Ipms.Server.Gpo.Records

/-
  Ipms.Server.Gpo.Directory

  What the control plane checks of a reported directory: the targets and links
  of a snapshot, and that the state before a change is safe to change.
-/

namespace Ipms.Server.Gpo

open Ipms.Lib Ipms.ManagementJson
open Ipms.Agent.Gpo (ManagedJob Operation Snapshot Ou Link LinkKind Scope)

def invalid (message : String := "Invalid managed GPO state.") : ServerError :=
  .validationError message

/-! ## Purposes and markers -/

/-- Whether a text occurs in another. -/
def occursIn (part text : List Char) : Bool := text.tails.any part.isPrefixOf

/-- The text after the first ` - ` of a line. -/
def afterDash : List Char → Option (List Char)
  | ' ' :: '-' :: ' ' :: rest => some rest
  | '\n' :: _ => none
  | _ :: rest => afterDash rest
  | [] => none

/-- A component name without the release it starts with. -/
def withoutRelease (name : List Char) : List Char :=
  let strip (lead : List Char) :=
    if lead.isPrefixOf name then afterDash (name.drop lead.length) else none
  (strip "MSFT Windows ".toList <|> strip "SCM Windows ".toList).getD name

/-- A letter or digit of ASCII. -/
def alphanumeric (c : Char) : Bool :=
  decide ('a' ≤ c) && decide (c ≤ 'z') || decide ('A' ≤ c) && decide (c ≤ 'Z') ||
    Agent.Gpo.digit c

/-- `compact_purpose`; nothing where the code raises. -/
def compactPurpose (content : Content) (baselineId : String) (component : Component) :
    Option String :=
  let lead := "microsoft-windows-".toList
  let server := "server-".toList
  let base := if lead.isPrefixOf baselineId.toList then baselineId.toList.drop lead.length
    else baselineId.toList
  let start := if server.isPrefixOf base then "MS-WS".toList ++ base.drop server.length
    else "MS-W".toList ++ base.map Char.toUpper
  let name := (content.unicode.lower component.name).toList
  let mentions (part : String) := occursIn part.toList name
  let purpose : List Char :=
    if mentions "domain security" then "DomainSecurity".toList
    else if mentions "virtualization" then
      (if mentions "domain controller" then "DC-VBS" else "VBS").toList
    else if mentions "credential guard" then "CredentialGuard".toList
    else if mentions "domain controller" then "DC".toList
    else if mentions "member server" then "Member".toList
    else if mentions "bitlocker" then "BitLocker".toList
    else if mentions "defender" then "Defender".toList
    else if mentions "internet explorer" then "IE".toList
    else if mentions "user" then "User".toList
    else
      let kept := (withoutRelease component.name.toList).filter alphanumeric
      if kept.length > 48 then component.purpose.toList else kept
  if purpose = [] then none else some (String.ofList (start ++ '-' :: purpose))

def semanticPurpose (content : Content) (baselineId : String) (component : Component) :
    Option String :=
  (compactPurpose content baselineId component).map
    ((if component.scope = .user then "U-" else "C-") ++ ·)

def ownerMarker (a : ManagedJob) : String :=
  match a.override with
  | some o => "IPMS managed override; id=" ++ a.managedId ++ "; definition=" ++ o.overrideId
  | none => "IPMS managed GPO; id=" ++ a.managedId

/-- The start of a pilot's owner marker. -/
def pilotOwned (marker : String) : Bool :=
  "IPMS disabled, unlinked pilot;".toList.isPrefixOf marker.toList

/-! ## Targets -/

section
variable (content : Content)

def domainComponent (a : ManagedJob) : Bool :=
  (content.components a.baselineId a.backupId).any fun c => c.scope == .domain

def targetsDomainRoot (targets : List String) (domain : String) : Bool :=
  match targets with
  | [target] => content.unicode.casefold target == content.unicode.casefold (domainRoot domain)
  | _ => false

def domainTarget (a : ManagedJob) : Bool :=
  domainComponent content a || targetsDomainRoot content a.targetOus a.domainDnsName

def targetIdentity (dn domain : String) (root : Bool) : Option (List (Attribute × String)) :=
  if root then
    if content.unicode.casefold dn = content.unicode.casefold (domainRoot domain) then
      some (domainSuffix domain)
    else none
  else ouIdentity content.unicode dn domain

def sameTarget (left right : String) (a : ManagedJob) : Bool :=
  let root := domainTarget content a
  match targetIdentity content left a.domainDnsName root,
      targetIdentity content right a.domainDnsName root with
  | some l, some r => l == r
  | _, _ => false

def targetOu (dn : String) (a : ManagedJob) : Bool :=
  a.targetOus.any fun configured => sameTarget content dn configured a

/-- The kind of the links a job makes. -/
def linkKind (a : ManagedJob) : LinkKind := if domainTarget content a then .domain else .ou

/-! ## Snapshots -/

/-- What makes a link unique in its list. -/
def linkIdentity (l : Link) : String × String × String × LinkKind := (l.guid, l.domain, l.dn, l.kind)

/-- The checks of one link. -/
def validLink (l : Link) : Bool :=
  bounded l.dn 2048 && decide (1 ≤ l.order) && decide (l.order ≤ 128) && uuidText l.guid &&
    domainName content.unicode l.domain == some l.domain

/-- `_links`. -/
def validLinks (ls : List Link) : Bool :=
  decide (ls.length ≤ 128) && ls.all (validLink content) && decide (ls.map linkIdentity).Nodup

/-- The links of a container stand in order, and are links to that container. -/
def ownLinks (a : ManagedJob) (o : Ou) : Bool :=
  (o.links.all fun l => l.kind == linkKind content a && sameTarget content l.dn o.dn a &&
      l.domain == a.domainDnsName) &&
    o.links.map Link.order == (List.range o.links.length).map fun i => (i : Int) + 1

/-- The checks of one container. -/
def checkOu (a : ManagedJob) (o : Ou) : Except ServerError Unit := do
  throwIf (!(usn o.usn && uuidText o.guid &&
    (targetIdentity content o.dn a.domainDnsName (domainTarget content a)).isSome &&
    validLinks content o.links && validLinks content o.inheritedLinks)) invalid
  throwIf (domainTarget content a = true ∧
      (a.targetTier ≠ 0 ∨ o.guid ≠ a.domainGuid ∨ o.inheritedLinks ≠ []))
    (invalid "The domain-root observation must bind the Tier 0 domain identity.")
  throwIf (!ownLinks content a o) invalid

/-- A version number of the wire. -/
def version (n : Int) : Bool := decide (0 ≤ n) && decide (n ≤ 2 ^ 32 - 1)

/-- The checks of a reported policy. -/
def checkPolicy (g : Agent.Gpo.Policy) (allowInconsistent : Bool) : Except ServerError Unit := do
  throwIf (!(bounded g.name 240 && bounded g.description 2048 true &&
    bounded g.wmiFilter 2048 true &&
    [g.computerDs, g.computerSysvol, g.userDs, g.userSysvol].all version && sid g.ownerSid &&
    sha g.securityDigest && uuidText g.guid && !defaultGpoIds.contains g.guid &&
    validLinks content g.links)) invalid
  throwIf (allowInconsistent = false ∧ (g.computerDs ≠ g.computerSysvol ∨ g.userDs ≠ g.userSysvol))
    (invalid "Directory and SYSVOL versions disagree.")

/-- The containers are the targets of the job, in their order. -/
def targetsObserved (a : ManagedJob) (ous : List Ou) : Bool :=
  ous.length == a.targetOus.length &&
    (ous.zip a.targetOus).all fun (o, configured) => sameTarget content o.dn configured a

def validateSnapshot (a : ManagedJob) (value : Value) (allowInconsistent : Bool := false) :
    Except ServerError Snapshot := do
  throwIf ((canonical value).length > 16384)
    (invalid "The directory snapshot exceeds the bounded GPO transport budget.")
  match Snapshot.decode value with
  | none => throw invalid
  | some s => do
    throwIf (!(sid s.domainAdminsSid && decide (s.ous.length ≤ 32) &&
      targetsObserved content a s.ous && decide (s.ous.map Ou.guid).Nodup)) invalid
    s.ous.forM (checkOu content a)
    match s.gpo with
    | none => pure ()
    | some g => checkPolicy content g allowInconsistent
    pure s

/-! ## The state before a change -/

/-- The order of links by kind, name and position. -/
def linkBefore (l m : Link) : Bool :=
  decide (l.kind.text < m.kind.text) || l.kind.text == m.kind.text &&
    (decide (l.dn < m.dn) || l.dn == m.dn && decide (l.order ≤ m.order))

/-- Links sorted by kind, name and position. -/
def sortedLinks (ls : List Link) : List Link := ls.insertionSort fun l m => linkBefore l m = true

/-- A link to a target of the job that the job may have made. -/
def approvedLink (a : ManagedJob) (l : Link) : Bool :=
  l.kind == linkKind content a && l.domain == a.domainDnsName && targetOu content l.dn a &&
    !l.enforced

/-- The links of a policy in the reported containers. -/
def linksOf (guid : String) (ous : List Ou) : List Link :=
  ous.flatMap fun o => o.links.filter fun l => l.guid == guid

/-- The checks of the links before a change of links. -/
def checkLinksBefore (a : ManagedJob) (g : Agent.Gpo.Policy) (ous : List Ou) :
    Except ServerError Unit := do
  throwIf (!g.links.all (approvedLink content a))
    (invalid "The GPO has links outside the approved OU set.")
  let own := linksOf g.guid ous
  throwIf (own.any Link.enforced) invalid
  throwIf (sortedLinks own ≠ sortedLinks g.links)
    (invalid "OU and GPO link inventories disagree.")
  throwIf (a.intendedOperation = .activateManagedGpo ∧ (own.length ≠ ous.length ∨ own = []))
    (invalid "Link the policy to every approved OU before activation.")

def safeBefore (a : ManagedJob) (state : Snapshot) : Except ServerError Unit := do
  let component := content.components a.baselineId a.backupId
  throwIf (component = none ∨ (component.any fun c => c.scope == .domain) ∧ a.targetTier ≠ 0)
    (invalid "Domain-scoped settings require Tier 0 authority.")
  throwIf (state.nameAvailable = false) (invalid "The requested name is occupied.")
  match state.gpo with
  | none => throwIf (a.gpoGuid ≠ "" ∨ a.intendedOperation.isImport = false) invalid
  | some g => do
    throwIf (g.guid ≠ a.gpoGuid ∨ g.description ≠ a.ownerMarker ∨ g.wmiFilter ≠ "")
      (invalid "The target is not the inspected managed policy.")
    throwIf (pilotOwned a.ownerMarker = true ∧ (a.intendedOperation.isImport = false ∨
      g.links ≠ [] ∨ g.computerEnabled = true ∨ g.userEnabled = true)) invalid
    throwIf (a.intendedOperation.isLink = true ∧ (g.computerEnabled = true ∨ g.userEnabled = true))
      (invalid "Disable the managed GPO before changing links.")
    if a.intendedOperation = .importManagedGpo then pure ()
    else checkLinksBefore content a g state.ous

end

end Ipms.Server.Gpo
