import Ipms.Agent.Gpo.Journal
import Ipms.Server.Gpo.Reconciliation

/-
  Ipms.Agent.Gpo.Reconciliation

  What the agent makes of an observation of the directory: whether it is one the
  agent reports, and whether the agent acknowledges it for its fenced journal.
  Names of containers are compared without the case of their ASCII letters.
-/

namespace Ipms.Agent.Gpo

open Ipms.ManagementJson
open Ipms.Server.Gpo (Observation Presence knownIssues)

/-! ## Observations -/

def reconciliationIssue (code : String) : Bool :=
  let lead := "gpo_reconciliation_hresult_".toList
  if lead.isPrefixOf code.toList then
    let hr := code.toList.drop lead.length
    hr.length == 8 && (hr.head?.any fun c => decide ('8' ≤ c) && decide (c ≤ '9') ||
      decide ('a' ≤ c) && decide (c ≤ 'f')) && hr.all lowerHex
  else knownIssues.contains code

/-- The checks of an observed state: its policy is the one the observation is about, and a
complete observation lists the links of that policy. -/
def validObservedState (o : Observation) (state : Snapshot) : Bool :=
  state.valid &&
    match state.gpo with
    | none => o.gpoPresence == .absent
    | some g =>
      o.gpoPresence == .present && g.guid == o.gpoGuid &&
        (!o.forestComplete || g.links == o.forestLinks)

/-- The checks of an observation. -/
def validObservation (o : Observation) : Bool :=
  ((serializedSize o.toJson).any fun n => decide (n ≤ 32768)) &&
    (o.gpoGuid == "" || validUuid o.gpoGuid && !protectedGpo o.gpoGuid) &&
    decide (o.issues.length ≤ 8) && o.issues.all reconciliationIssue && decide o.issues.Nodup &&
    validLinks o.forestLinks && (o.forestLinks.all fun l => l.guid == o.gpoGuid) &&
    o.state.all (validObservedState o) &&
    (!o.forestComplete || o.gpoGuid != "" && o.gpoPresence != .unknown)

/-- `valid_reconciliation_observation`: the observation of a document that passes every check. -/
def validReconciliationObservation (v : Value) : Option Observation :=
  (Value.exactly Observation.toJson Observation.read v).filter validObservation

/-! ## Acknowledgement -/

/-- The policy is the disabled one of the job, and its versions agree. -/
def acceptablePolicy (a : ManagedJob) (g : Policy) : Bool :=
  !g.computerEnabled && !g.userEnabled && g.description == managedMarker a && g.wmiFilter == "" &&
    g.computerDs == g.computerSysvol && g.userDs == g.userSysvol

/-- The observed containers are the targets of the job, in their order. -/
def acceptableTargets (a : ManagedJob) (ous : List Ou) : Bool :=
  a.targetOus.length == ous.length &&
    (a.targetOus.zip ous).all fun (target, ou) => lower target == lower ou.dn

section
variable (catalog : Catalog)

/-- A job about the domain itself is of tier 0, and observes the domain itself. -/
def acceptableRoot (a : ManagedJob) (ous : List Ou) : Bool :=
  !domainTarget catalog a ||
    a.targetTier == 0 && ous.head?.all fun ou => ou.guid == a.domainGuid

/-- A link the job may have made. -/
def acceptableLink (a : ManagedJob) (l : Link) : Bool :=
  l.domain == a.domainDnsName && !l.enforced && l.kind == targetKind catalog a &&
    a.targetOus.any fun dn => lower dn == lower l.dn

/-- The links of a policy in the observed containers. -/
def directLinks (guid : String) (ous : List Ou) : List Link :=
  ous.flatMap fun ou => ou.links.filter fun l => l.guid == guid

/-- The checks of an observation with a policy in it. -/
def acceptableState (a : ManagedJob) (guid : String) (o : Observation) (state : Snapshot)
    (g : Policy) : Bool :=
  acceptablePolicy a g && acceptableTargets a state.ous &&
    (component catalog a.toJobCore).isSome && acceptableRoot catalog a state.ous &&
    o.forestLinks.all (acceptableLink catalog a) &&
    -- Sorting by the serialized text compares the lists as multisets.
    (directLinks guid state.ous).isPerm o.forestLinks

/-- `acceptable_reconciliation_observation`; a pilot has nothing to reconcile. -/
def acceptableReconciliationObservation (j : Journal) (v : Value) : Bool :=
  match j.assignment, validReconciliationObservation v with
  | .managed a, some o =>
    j.state == .reconciliation && j.gpoGuid != "" && o.gpoGuid == j.gpoGuid && o.quiescent &&
      o.forestComplete && o.aclConsistent == some true && o.issues.isEmpty &&
      o.gpoPresence == .present &&
      o.state.any fun state =>
        state.gpo.any fun g => acceptableState catalog a j.gpoGuid o state g
  | _, _ => false

end

end Ipms.Agent.Gpo
