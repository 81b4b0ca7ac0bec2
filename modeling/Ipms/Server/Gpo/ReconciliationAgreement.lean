import Ipms.Agent.Gpo.Reconciliation
import Ipms.Server.DistinguishedNames
import Ipms.Server.Gpo.Release

/-
  Ipms.Server.Gpo.ReconciliationAgreement

  Two judgements of one observation.  The control plane compares containers by
  what their names denote, the agent by how they are spelled.  What nothing stands
  against on the control plane is acknowledged by the agent where every container
  and every link is spelled as the job spells its target, but for ASCII case.
-/

namespace Ipms.Server.Gpo

open Ipms.Lib Ipms.ManagementJson
open Ipms.Agent.Gpo (ManagedJob Snapshot Ou Link Journal Catalog Component lower
  validReconciliationObservation validObservation acceptableReconciliationObservation)
open Agent.Gpo (acceptableLink acceptablePolicy acceptableRoot acceptableState acceptableTargets component dcSuffix rootDn serializedSize_eq targetKind)

/-! ## Case -/

/-- `str.casefold` does not see the case of ASCII letters. -/
def FoldsAscii (unicode : Unicode) : Prop :=
  ∀ s : String, unicode.casefold (lower s) = unicode.casefold s

theorem toLower_toLower (c : Char) : c.toLower.toLower = c.toLower := by
  unfold Char.toLower
  split
  · next h =>
      have hlow : (65 : UInt32) ≤ c.val := h.1
      have hhigh : c.val ≤ (90 : UInt32) := h.2
      rw [UInt32.le_iff_toNat_le] at hlow hhigh
      rw [dif_neg]
      rintro ⟨-, hstill⟩
      have hsmall : c.val + 32 ≤ (90 : UInt32) := hstill
      rw [UInt32.le_iff_toNat_le, UInt32.toNat_add] at hsmall
      simp only [UInt32.reduceToNat] at hlow hhigh hsmall
      omega
  · next h => rfl

theorem lower_lower (s : String) : lower (lower s) = lower s := by
  simp only [lower, String.toList_ofList, List.map_map]
  congr 1
  refine List.map_congr_left fun c _ => ?_
  exact toLower_toLower c

theorem asciiUnicode_foldsAscii : FoldsAscii asciiUnicode := lower_lower

theorem rootComponents_lower (labels : List (List Char)) :
    (joinWith [','] (labels.map fun label => 'D' :: 'C' :: '=' :: label)).map Char.toLower =
      ((labels.flatMap fun label => ",dc=".toList ++ label).drop 1).map Char.toLower := by
  induction labels with
  | nil => rfl
  | cons label rest ih =>
    cases rest with
    | nil =>
      rw [List.map_singleton, joinWith_singleton, List.flatMap_singleton]
      rfl
    | cons next rest =>
      rw [List.map_cons] at ih
      have hcomma (cs : List Char) : (',' :: cs).map Char.toLower = ',' :: cs.map Char.toLower := rfl
      rw [List.map_cons, List.map_cons, joinWith_cons_cons, List.map_append, hcomma, ih,
        List.flatMap_cons]
      simp [List.flatMap_cons]

theorem lower_domainRoot (domain : String) :
    lower (domainRoot domain) = lower (rootDn domain) := by
  unfold lower domainRoot rootDn dcSuffix
  rw [String.toList_ofList, String.toList_ofList, rootComponents_lower]

variable {o : Observation}

section
variable {content : Content} {catalog : Catalog} {a : ManagedJob}

theorem casefold_of_rootDn (hfold : FoldsAscii content.unicode) {target domain : String}
    (h : lower target = rootDn domain) :
    content.unicode.casefold target = content.unicode.casefold (domainRoot domain) := by
  have hlower : lower (domainRoot domain) = lower target := by
    rw [lower_domainRoot, ← h, lower_lower]
  rw [← hfold target, ← hlower, hfold]

theorem domainTarget_of_agent (hfold : FoldsAscii content.unicode)
    (hscope : domainComponent content a =
      (component catalog a.toJobCore).any fun c => c.scope == .domain)
    (h : Agent.Gpo.domainTarget catalog a = true) : domainTarget content a = true := by
  unfold Agent.Gpo.domainTarget at h
  unfold domainTarget
  rw [← hscope, Bool.or_eq_true] at h
  rw [Bool.or_eq_true]
  rcases h with hcomponent | htargets
  · exact .inl hcomponent
  · refine .inr ?_
    unfold targetsDomainRoot
    split at htargets
    · next target htarget =>
        simp only [htarget, beq_iff_eq] at htargets ⊢
        exact casefold_of_rootDn hfold htargets
    · cases htargets

variable {state : Snapshot}

theorem validateObservation_state {value : Value} (h : validateObservation content a value = .ok o)
    (hstate : o.state = some state) : ValidSnapshot content a true state := by
  unfold validateObservation at h
  obtain ⟨_, -, h⟩ := bind_eq_ok.mp h
  split at h
  · cases h
  · next o' _ =>
      obtain ⟨_, -, h⟩ := bind_eq_ok.mp h
      obtain ⟨_, -, h⟩ := bind_eq_ok.mp h
      obtain ⟨_, -, h⟩ := bind_eq_ok.mp h
      cases hs : o'.state with
      | none =>
        rw [hs] at h
        obtain rfl := pure_eq_ok.mp h
        rw [hs] at hstate
        cases hstate
      | some state' =>
        rw [hs] at h
        obtain ⟨s, hvalid, h⟩ := bind_eq_ok.mp h
        obtain ⟨_, -, h⟩ := bind_eq_ok.mp h
        obtain rfl := pure_eq_ok.mp h
        rw [hs] at hstate
        cases hstate
        obtain ⟨heq, hsnapshot⟩ := validateSnapshot_eq_ok.mp hvalid
        rw [Agent.Gpo.Snapshot.toJson_injective heq]
        exact hsnapshot

/-- Nothing stands against an observation about the domain itself for tier 0 only. -/
theorem Db.observationBlocker_tier {db : Db} {record : GpoReconciliation} {job : GpoImportJob}
    (hassigned : job.assignment = .managed a)
    (h : db.observationBlocker content record job = none)
    (hroot : domainTarget content a = true) : a.targetTier = 0 := by
  unfold Db.observationBlocker at h
  split at h
  · next value a' _ hassigned' =>
      rw [hassigned] at hassigned'
      cases hassigned'
      split at h
      · cases h
      split at h
      · cases h
      split at h
      · cases h
      split at h
      · cases h
      split at h
      · cases h
      split at h
      · cases h
      split at h
      · cases h
      split at h
      · unfold Db.observedPolicyBlocker at h
        simp only at h
        by_contra htier
        rw [if_pos (show domainTarget content a = true ∧ a.targetTier ≠ 0 from ⟨hroot, htier⟩)] at h
        split at h
        · cases h
        split at h
        · cases h
        split at h
        · cases h
        split at h
        · cases h
        split at h
        · cases h
        split at h <;> cases h
      · cases h
  · cases h

/-! ## The agent's judgement -/

/-- What the agent asks of an observation beyond the portal: its containers and links are spelled as
the job spells its targets, but for ASCII case, and a job with links is about the domain itself for
both or for neither. -/
structure SameSpelling (content : Content) (catalog : Catalog) (a : ManagedJob) (o : Observation) :
    Prop where
  units : ∀ state, o.state = some state → (state.ous.map fun ou => lower ou.dn) = a.targetOus.map lower
  links : ∀ l ∈ o.forestLinks, ∃ dn ∈ a.targetOus, lower dn = lower l.dn
  root : o.forestLinks ≠ [] → Agent.Gpo.domainTarget catalog a = domainTarget content a

theorem spelledAlike_iff (targets : List String) (ous : List Ou) :
    (targets.length = ous.length ∧ ∀ p ∈ targets.zip ous, lower p.1 = lower p.2.dn) ↔
      (ous.map fun ou => lower ou.dn) = targets.map lower := by
  induction targets generalizing ous with
  | nil => cases ous <;> simp
  | cons target rest ih =>
    cases ous with
    | nil => simp
    | cons ou ous =>
      have hrest := ih ous
      simp only [List.zip_cons_cons, List.forall_mem_cons, List.length_cons, List.map_cons,
        List.cons.injEq, Nat.add_right_cancel_iff]
      rw [← hrest]
      constructor
      · rintro ⟨hlength, heq, hall⟩
        exact ⟨heq.symm, hlength, hall⟩
      · rintro ⟨heq, hlength, hall⟩
        exact ⟨hlength, heq.symm, hall⟩

theorem acceptableTargets_iff {ous : List Ou} : acceptableTargets a ous = true ↔
    (ous.map fun ou => lower ou.dn) = a.targetOus.map lower := by
  rw [← spelledAlike_iff]
  simp only [acceptableTargets, Bool.and_eq_true, beq_iff_eq, List.all_eq_true]

variable {v : Value}

theorem validReconciliationObservation_eq_some (h : validReconciliationObservation v = some o) :
    Value.exactly Observation.toJson Observation.read v = some o ∧ validObservation o = true := by
  unfold validReconciliationObservation at h
  exact Option.filter_eq_some_iff.mp h

theorem validateObservation_same {o' : Observation} (h : validReconciliationObservation v = some o)
    (h' : validateObservation content a v = .ok o') : o' = o := by
  obtain ⟨hread, -⟩ := validReconciliationObservation_eq_some h
  unfold validateObservation at h'
  obtain ⟨_, -, h'⟩ := bind_eq_ok.mp h'
  rw [hread] at h'
  obtain ⟨_, -, h'⟩ := bind_eq_ok.mp h'
  obtain ⟨_, -, h'⟩ := bind_eq_ok.mp h'
  obtain ⟨_, -, h'⟩ := bind_eq_ok.mp h'
  cases hs : o.state with
  | none =>
    rw [hs] at h'
    exact (pure_eq_ok.mp h').symm
  | some state =>
    rw [hs] at h'
    obtain ⟨_, -, h'⟩ := bind_eq_ok.mp h'
    obtain ⟨_, -, h'⟩ := bind_eq_ok.mp h'
    exact (pure_eq_ok.mp h').symm

theorem managedMarker_eq (a : ManagedJob) : Agent.Gpo.managedMarker a = ownerMarker a := rfl

theorem acceptableRoot_of_valid (hvalid : ValidSnapshot content a true state)
    (hagent : Agent.Gpo.domainTarget catalog a = true → domainTarget content a = true)
    (htier : domainTarget content a = true → a.targetTier = 0) :
    acceptableRoot catalog a state.ous = true := by
  unfold acceptableRoot
  cases hroot : Agent.Gpo.domainTarget catalog a with
  | false => rfl
  | true =>
    have hportal := hagent hroot
    rw [htier hportal]
    cases hous : state.ous with
    | nil => rfl
    | cons ou rest =>
      have hou := hvalid.ous ou (by rw [hous]; exact List.mem_cons_self)
      rw [List.head?_cons, Option.all_some, (hou.root hportal).2.1]
      simp

theorem acceptableLink_iff {config : DomainSecuritySettings} {guid : String} {l : Link}
    (h : Db.observedLink content a config guid l = true) :
    acceptableLink catalog a l = true ↔
      linkKind content a = targetKind catalog a ∧
        ∃ dn ∈ a.targetOus, lower dn = lower l.dn := by
  simp only [Db.observedLink, Bool.and_eq_true, beq_iff_eq] at h
  obtain ⟨⟨⟨⟨⟨-, hdomain⟩, hkind⟩, henforced⟩, -⟩, -⟩ := h
  unfold acceptableLink
  rw [hdomain, hkind, henforced]
  simp only [beq_self_eq_true, Bool.true_and, Bool.and_eq_true, beq_iff_eq, List.any_eq_true]

theorem linkKind_eq_iff : linkKind content a = targetKind catalog a ↔
    Agent.Gpo.domainTarget catalog a = domainTarget content a := by
  unfold linkKind targetKind
  cases domainTarget content a <;> cases Agent.Gpo.domainTarget catalog a <;> simp

theorem units_of_acceptable {j : Journal} (hjournal : j.assignment = .managed a)
    (hvalid : validReconciliationObservation v = some o) (hstate : o.state = some state)
    (h : acceptableReconciliationObservation catalog j v = true) :
    (state.ous.map fun ou => lower ou.dn) = a.targetOus.map lower := by
  unfold acceptableReconciliationObservation at h
  rw [hjournal, hvalid] at h
  simp only [hstate, Option.any_some, Bool.and_eq_true] at h
  obtain ⟨g, -, hg⟩ := (Option.any_eq_true _ _).mp h.2
  simp only [acceptableState, Bool.and_eq_true] at hg
  exact acceptableTargets_iff.mp hg.1.1.1.1.2

end

/-! ### One unit under two names -/

/-- A compiled catalog that knows every component, as the portal's sample content does. -/
def sampleCatalog : Catalog where
  lookupComponent _ _ := some {
    artifactSha256 := sampleDraft.artifactSha256
    scope := .machine
    files := [] }
  overrideComponents := []

/-- The unit as the administrator typed it, with the comma of its name in hexadecimal. -/
def typedUnit : String := "OU=Servers\\2C Europe,DC=corp,DC=example"

/-- The unit as the directory names it. -/
def namedUnit : String := "OU=Servers\\, Europe,DC=corp,DC=example"

/-- The import for a unit, with the digest of its document. -/
def unitAssignment (unit : String) : ManagedJob :=
  { sampleDraft with
    inputDigest :=
      if unit = typedUnit then "d46a4fb0ee5e6538286158332f4193da837a1fdd2c45d3a249817e771ae397ae"
      else "31cfee9cc7a41fd6c80e29b5be4e848cbf01517d28c18c379db5e6a838ea7d8e"
    backupId := "{11111111-1111-4111-8111-111111111111}"
    profile := "server"
    targetOus := [unit] }

theorem unitAssignment_component (unit : String) :
    component sampleCatalog (unitAssignment unit).toJobCore =
      some { artifactSha256 := sampleDraft.artifactSha256, scope := .machine, files := [] } := by
  simp [component, sampleCatalog, unitAssignment]

theorem unitAssignment_scope (unit : String) : domainComponent sampleContent (unitAssignment unit) =
    (component sampleCatalog (unitAssignment unit).toJobCore).any
      fun c => c.scope == .domain := by
  rw [unitAssignment_component]
  simp [domainComponent, sampleContent]

/-- The claimed import for a unit. -/
def unitJob (unit : String) : GpoImportJob :=
  { sampleJob with
    assignment := .managed (unitAssignment unit)
    inputDigest := (unitAssignment unit).inputDigest }

/-- The fenced journal of the import. -/
def fencedJournal (unit : String) : Journal where
  assignment := .managed (unitAssignment unit)
  deviceUri := "urn:e"
  state := .reconciliation
  gpoGuid := sampleObservation.gpoGuid

/-- The state of the policy and one unit. -/
def unitState (dn : String) : Snapshot := { sampleSnapshot with ous := [{ sampleUnit [] with dn }] }

/-- The observation of the state. -/
def unitObservation (dn : String) : Observation :=
  { sampleObservation with state := some (unitState dn) }

def observedRecord (o : Observation) : GpoReconciliation :=
  { sampleRequest with observation := some o.toJson, observationDigest := digest o.toJson }

theorem validReconciliationObservation_toJson (hread : Observation.read o.toJson = some o)
    (hvalid : validObservation o = true) : validReconciliationObservation o.toJson = some o := by
  unfold validReconciliationObservation
  rw [Value.exactly_toJson hread, Option.filter_some, if_pos hvalid]

theorem observedRecord_verifiable (o : Observation) :
    ¬(sha (observedRecord o).journalSha256 = false ∨
      digest o.toJson ≠ (observedRecord o).observationDigest) := by
  rw [not_or]
  exact ⟨by simp only [observedRecord, sampleRequest]; decide, not_not.mpr rfl⟩

set_option maxRecDepth 20000 in
theorem namedUnit_document :
    Observation.read (unitObservation namedUnit).toJson = some (unitObservation namedUnit) ∧
      (fits (unitObservation namedUnit).toJson = true ∧
        (render (unitObservation namedUnit).toJson).length ≤ 32768) ∧
      fits (unitState namedUnit).toJson = true ∧
        (render (unitState namedUnit).toJson).length ≤ 16384 := by
  decide +kernel

set_option maxRecDepth 20000 in
theorem namedUnit_reported :
    validReconciliationObservation (unitObservation namedUnit).toJson =
      some (unitObservation namedUnit) := by
  have hstate : (unitObservation namedUnit).state = some (unitState namedUnit) := rfl
  refine validReconciliationObservation_toJson namedUnit_document.1 ?_
  unfold validObservation Agent.Gpo.validObservedState Snapshot.valid
  rw [serializedSize_eq, if_pos namedUnit_document.2.1.1, Option.any_some,
    decide_eq_true namedUnit_document.2.1.2, hstate, Option.all_some, serializedSize_eq,
    if_pos namedUnit_document.2.2.1, Option.any_some, decide_eq_true namedUnit_document.2.2.2]
  decide +kernel

set_option maxRecDepth 20000 in
theorem unitState_valid {unit : String} (hunit : unit = typedUnit ∨ unit = namedUnit) :
    ValidSnapshot sampleContent (unitAssignment unit) true (unitState namedUnit) := by
  refine ⟨by rw [canonical_eq_render]; exact namedUnit_document.2.2.2, by decide +kernel, by decide, ?_,
    by decide +kernel, fun o ho => ?_, fun g hg => ?_⟩
  · rcases hunit with rfl | rfl <;> decide +kernel
  · obtain rfl := List.mem_singleton.mp ho
    refine checkOu_eq_ok.mp ?_
    rcases hunit with rfl | rfl <;> decide +kernel
  · refine checkPolicy_eq_ok.mp ?_
    cases hg
    decide +kernel

theorem namedUnit_valid {unit : String} (hunit : unit = typedUnit ∨ unit = namedUnit) :
    validateObservation sampleContent (unitAssignment unit) (unitObservation namedUnit).toJson =
      .ok (unitObservation namedUnit) := by
  have hstate : validateSnapshot sampleContent (unitAssignment unit) (unitState namedUnit).toJson
      true = .ok (unitState namedUnit) :=
    validateSnapshot_eq_ok.mpr ⟨rfl, unitState_valid hunit⟩
  have hobserved : (unitObservation namedUnit).state = some (unitState namedUnit) := rfl
  unfold validateObservation
  rw [canonical_eq_render]
  refine bind_eq_ok.mpr ⟨(), throwIf_eq_ok.mpr (Nat.not_lt.mpr namedUnit_document.2.1.2), ?_⟩
  rw [Value.exactly_toJson namedUnit_document.1]
  refine bind_eq_ok.mpr ⟨(), throwIf_eq_ok.mpr (by decide), ?_⟩
  refine bind_eq_ok.mpr ⟨(), throwIf_eq_ok.mpr (by decide), ?_⟩
  refine bind_eq_ok.mpr ⟨(), throwIf_eq_ok.mpr (by decide), ?_⟩
  rw [hobserved]
  refine bind_eq_ok.mpr ⟨_, hstate, ?_⟩
  exact bind_eq_ok.mpr ⟨(), throwIf_eq_ok.mpr (by decide), rfl⟩

set_option maxRecDepth 20000 in
theorem namedUnit_unblocked {unit : String} (hunit : unit = typedUnit ∨ unit = namedUnit) :
    sampleDb.observationBlocker sampleContent (observedRecord (unitObservation namedUnit))
      (unitJob unit) = none := by
  have hassigned : (unitJob unit).assignment = .managed (unitAssignment unit) := by
    simp only [unitJob]
  have hrecorded : (observedRecord (unitObservation namedUnit)).observation =
      some (unitObservation namedUnit).toJson := by
    simp only [observedRecord]
  unfold Db.observationBlocker
  rw [hassigned, hrecorded]
  simp only
  rw [if_neg (observedRecord_verifiable _), namedUnit_valid hunit]
  rcases hunit with rfl | rfl <;> decide +kernel

end Ipms.Server.Gpo
