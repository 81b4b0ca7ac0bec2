import Ipms.Server.Gpo.Postcondition
import Ipms.Server.Gpo.ValidSnapshot

/-
  Ipms.Server.Gpo.Frame

  What an accepted receipt can have changed.  Around the links of the job's own
  policy the links of every target are the ones it had, renumbered; the own link
  stands once at its approved place; and a field of the policy that the
  operation does not write is as it was.  The USN of a container is not compared:
  every write of its links advances it.
-/

namespace Ipms.Server.Gpo

open Ipms.Lib Ipms.ManagementJson
open Ipms.Agent.Gpo (ManagedJob ManagedEvidence Operation Snapshot Ou Link LinkKind)

/-! ## Numbered links -/

/-- A link without its order. -/
def placeless (l : Link) : Link := { l with order := 0 }

/-- Number links from a place, in their order. -/
def numbered (k : Nat) (ls : List Link) : List Link :=
  (ls.zipIdx k).map fun (l, i) => { l with order := (i : Int) + 1 }

theorem renumber_eq_numbered (ls : List Link) : renumber ls = numbered 0 ls := rfl

theorem numbered_cons (k : Nat) (l : Link) (ls : List Link) :
    numbered k (l :: ls) = { l with order := (k : Int) + 1 } :: numbered (k + 1) ls := by
  unfold numbered
  rw [List.zipIdx_cons, List.map_cons]

theorem numbered_append (k : Nat) (ls ms : List Link) :
    numbered k (ls ++ ms) = numbered k ls ++ numbered (k + ls.length) ms := by
  unfold numbered
  rw [List.zipIdx_append, List.map_append]

theorem length_numbered (k : Nat) (ls : List Link) : (numbered k ls).length = ls.length := by
  unfold numbered
  rw [List.length_map, List.length_zipIdx]

theorem map_numbered {α : Type} {f : Link → α} (hf : ∀ l n, f { l with order := n } = f l) (k : Nat)
    (ls : List Link) : (numbered k ls).map f = ls.map f := by
  induction ls generalizing k with
  | nil => rfl
  | cons l ls ih => rw [numbered_cons, List.map_cons, List.map_cons, hf, ih]

theorem orders_numbered (k : Nat) (ls : List Link) :
    (numbered k ls).map Link.order = (List.range' k ls.length).map fun i : Nat => (i : Int) + 1 := by
  induction ls generalizing k with
  | nil => rfl
  | cons l ls ih =>
    rw [numbered_cons, List.map_cons, ih, List.length_cons, List.range'_succ, List.map_cons]

theorem map_filter_guid (p : String → Bool) (ls : List Link) :
    (ls.filter fun l => p l.guid).map placeless = (ls.map placeless).filter fun l => p l.guid := by
  rw [List.filter_map]
  rfl

theorem filter_numbered (p : String → Bool) (k : Nat) (ls : List Link) :
    ((numbered k ls).filter fun l => p l.guid).map placeless =
      (ls.filter fun l => p l.guid).map placeless := by
  rw [map_filter_guid, map_filter_guid, map_numbered fun _ _ => rfl]

theorem filter_numbered_eq_nil {p : String → Bool} {ls : List Link}
    (h : ∀ l ∈ ls, p l.guid = false) (k : Nat) : (numbered k ls).filter (fun l => p l.guid) = [] := by
  have hnone : ls.filter (fun l => p l.guid) = [] := by
    rw [List.filter_eq_nil_iff]
    exact fun l hl => by rw [h l hl]; exact Bool.false_ne_true
  have hmapped := filter_numbered p k ls
  rw [hnone] at hmapped
  exact List.map_eq_nil_iff.mp hmapped

/-! ## An approved insertion -/

section
variable {guid : String} {prior : List Link} {link : Link}

theorem mem_unrelated {l : Link} {ls : List Link} :
    l ∈ unrelated guid ls ↔ l ∈ ls ∧ l.guid ≠ guid := by
  unfold unrelated
  rw [List.mem_filter, bne_iff_ne]

theorem approvedPlace_le (guid : String) (prior : List Link) (order : Int) :
    approvedPlace guid prior order ≤ (unrelated guid prior).length := by
  unfold approvedPlace insertPlace
  split
  · omega
  · exact Nat.min_le_right _ _

theorem approvedPlace_eq {order : Int} (h : 1 ≤ order) :
    (approvedPlace guid prior order : Int) + 1 = min order ((unrelated guid prior).length + 1) := by
  unfold approvedPlace insertPlace
  rw [if_neg (by omega)]
  omega

theorem unrelated_insertedLinks (hguid : link.guid = guid) :
    (unrelated guid (insertedLinks guid prior link)).map placeless =
      (unrelated guid prior).map placeless := by
  unfold insertedLinks
  rw [renumber_eq_numbered]
  have hfilter := filter_numbered (fun g => g != guid) 0
    (insertAt (unrelated guid prior) (approvedPlace guid prior link.order) link)
  refine hfilter.trans ?_
  rw [filter_insertAt_of_neg (by rw [hguid]; exact bne_self_eq_false guid)]
  unfold unrelated
  rw [List.filter_filter]
  simp only [Bool.and_self]

theorem own_insertedLinks (hguid : link.guid = guid) :
    (insertedLinks guid prior link).filter (fun l => l.guid == guid) =
      [{ link with order := (approvedPlace guid prior link.order : Int) + 1 }] := by
  have hother : ∀ l ∈ unrelated guid prior, (l.guid == guid) = false := by
    intro l hl
    exact beq_eq_false_iff_ne.mpr (mem_unrelated.mp hl).2
  have hplace : ((unrelated guid prior).take (approvedPlace guid prior link.order)).length =
      approvedPlace guid prior link.order := by
    rw [List.length_take, Nat.min_eq_left (approvedPlace_le guid prior link.order)]
  unfold insertedLinks insertAt
  rw [renumber_eq_numbered, numbered_append, numbered_cons, List.filter_append,
    filter_numbered_eq_nil (p := fun g => g == guid) fun l hl => hother l (List.mem_of_mem_take hl),
    List.filter_cons_of_pos (by simpa using hguid),
    filter_numbered_eq_nil (p := fun g => g == guid) fun l hl => hother l (List.mem_of_mem_drop hl),
    hplace, Nat.zero_add, List.nil_append]

end

/-! ## Frames -/

section
variable (content : Content) (a : ManagedJob)

/-- What an operation may change of a policy; `adoption` where it takes over a pilot. -/
def changedBy (operation : Operation) (adoption : Bool) : Changed :=
  match operation with
  | .importAndLinkManagedGpo => { links := true, name := adoption, adoption, owner := adoption }
  | .activateManagedGpo =>
    { content := true, name := true, flags := true, links := true, owner := true }
  | _ => { links := true }

/-- A container after an operation that links: the other links as they were, in a numbering from
one, and one link to the policy, at the approved order or last where fewer links remain. -/
structure LinkedOu (guid : String) (prior after : Ou) (order : Int) : Prop where
  dn : after.dn = prior.dn
  identity : after.guid = prior.guid
  blocked : after.blocked = prior.blocked
  inherited : unrelated guid after.inheritedLinks = unrelated guid prior.inheritedLinks
  others : (unrelated guid after.links).map placeless = (unrelated guid prior.links).map placeless
  orders : after.links.map Link.order =
    (List.range' 0 after.links.length).map fun i : Nat => (i : Int) + 1
  own : ∃ place : Int, after.links.filter (fun l => l.guid == guid) =
      [approvedLinkTo content a guid after.dn place] ∧
    (1 ≤ order → place = min order ((unrelated guid prior.links).length + 1))

/-- A state after an operation that links: every target is linked, and of an existing policy only
what the operation writes has changed. -/
structure LinkedState (before after : Snapshot) (g : Agent.Gpo.Policy) : Prop where
  gpo : after.gpo = some g
  policy : ∀ old, before.gpo = some old → g.guid = old.guid ∧
    fixedGpo (changedBy a.operation (pilotOwned a.ownerMarker)) old g = true
  links : g.links.Perm (expectedLinks content a g.guid before.ous after.ous a.linkOrders)
  admins : after.domainAdminsSid = before.domainAdminsSid
  approved : before.ous.length ≤ a.linkOrders.length
  ous : List.Forall₂ (fun p o => LinkedOu content a g.guid p.1 o p.2)
    (before.ous.zip a.linkOrders) after.ous

/-- A container after a deletion: without the links to the policy, the others as they were in a
numbering from one. -/
structure UnlinkedOu (guid : String) (prior after : Ou) : Prop where
  dn : after.dn = prior.dn
  identity : after.guid = prior.guid
  blocked : after.blocked = prior.blocked
  inherited : after.inheritedLinks = prior.inheritedLinks
  others : after.links.map placeless = (unrelated guid prior.links).map placeless
  orders : after.links.map Link.order =
    (List.range' 0 after.links.length).map fun i : Nat => (i : Int) + 1

/-- The frame of an operation between the approved and the reported state. -/
def Framed (before after : Snapshot) : Prop :=
  match a.operation with
  | .importAndLinkManagedGpo | .linkManagedGpo | .activateManagedGpo =>
    ∃ g, LinkedState content a before after g
  | .deactivateManagedGpo => ∃ old, before.gpo = some old ∧ after = { before with
      gpo := some { old with computerEnabled := false, userEnabled := false }
      nameAvailable := true }
  | .deleteManagedGpo => ∃ old, before.gpo = some old ∧ after.gpo = none ∧
      after.domainAdminsSid = before.domainAdminsSid ∧ after.nameAvailable = true ∧
      List.Forall₂ (UnlinkedOu old.guid) before.ous after.ous
  | _ => True

end

section
variable {content : Content} {a : ManagedJob} {guid : String} {before state : Snapshot}

theorem checkLinked_frame {prior after : Ou} {order : Int}
    (h : checkLinked content a guid prior after order = .ok ()) :
    LinkedOu content a guid prior after order := by
  unfold checkLinked at h
  obtain ⟨_, hfields, h⟩ := bind_eq_ok.mp h
  obtain ⟨_, hinherited, h⟩ := bind_eq_ok.mp h
  simp only [throwIf_eq_ok, not_or, not_not] at hfields hinherited
  have hlinks : after.links =
      insertedLinks guid prior.links (approvedLinkTo content a guid after.dn order) := by
    split at h
    · cases h
    · obtain ⟨_, -, h⟩ := bind_eq_ok.mp h
      exact not_not.mp (throwIf_eq_ok.mp h)
  refine ⟨hfields.1.symm, hfields.2.1.symm, hfields.2.2.symm, hinherited.symm, ?_, ?_, ?_⟩
  · rw [hlinks]
    exact unrelated_insertedLinks rfl
  · rw [hlinks]
    unfold insertedLinks
    rw [renumber_eq_numbered, orders_numbered, length_numbered]
  · refine ⟨approvedPlace guid prior.links order + 1, ?_, approvedPlace_eq⟩
    rw [hlinks]
    exact own_insertedLinks rfl

theorem checkContainers_frame {priors afters : List Ou} {orders : List Int}
    (h : checkContainers content a guid priors afters orders = .ok ()) :
    priors.length ≤ orders.length ∧
      List.Forall₂ (fun p o => LinkedOu content a guid p.1 o p.2) (priors.zip orders) afters := by
  induction priors generalizing afters orders with
  | nil =>
    cases afters with
    | nil => exact ⟨Nat.zero_le _, .nil⟩
    | cons o afters => cases orders <;> cases h
  | cons prior priors ih =>
    cases afters with
    | nil => cases h
    | cons o afters =>
      cases orders with
      | nil => cases h
      | cons order orders =>
        obtain ⟨_, hfirst, hrest⟩ := bind_eq_ok.mp h
        obtain ⟨hlength, hous⟩ := ih hrest
        exact ⟨Nat.succ_le_succ hlength, .cons (checkLinked_frame hfirst) hous⟩

theorem checkDeletedOu_frame {prior after : Ou} (h : checkDeletedOu guid prior after = .ok ()) :
    UnlinkedOu guid prior after := by
  unfold checkDeletedOu at h
  obtain ⟨_, hfields, h⟩ := bind_eq_ok.mp h
  simp only [throwIf_eq_ok, not_or, not_not] at hfields h
  refine ⟨hfields.1.symm, hfields.2.1.symm, hfields.2.2.1.symm, hfields.2.2.2.symm, ?_, ?_⟩
  · rw [h, renumber_eq_numbered, map_numbered fun _ _ => rfl]
  · rw [h, renumber_eq_numbered, orders_numbered, length_numbered]

theorem checkDeletedOus_frame {priors afters : List Ou}
    (h : checkDeletedOus guid priors afters = .ok ()) :
    List.Forall₂ (UnlinkedOu guid) priors afters := by
  induction priors generalizing afters with
  | nil =>
    cases afters with
    | nil => exact .nil
    | cons o afters => cases h
  | cons prior priors ih =>
    cases afters with
    | nil => cases h
    | cons o afters =>
      obtain ⟨_, hfirst, hrest⟩ := bind_eq_ok.mp h
      exact .cons (checkDeletedOu_frame hfirst) (ih hrest)

variable {g : Agent.Gpo.Policy}

theorem checkFixed_eq_ok {c : Changed} {old : Agent.Gpo.Policy} :
    checkFixed c old g = .ok () ↔ fixedGpo c old g = true := by
  unfold checkFixed
  rw [throwIf_eq_ok, Bool.not_eq_false]

variable {backedUp : Bool}

theorem checkLinkedPolicy_frame
    (hop : a.operation = .importAndLinkManagedGpo ∨ a.operation = .linkManagedGpo ∨
      a.operation = .activateManagedGpo)
    (h : checkLinkedPolicy content a before g backedUp = .ok ()) : ∀ old, before.gpo = some old →
      fixedGpo (changedBy a.operation (pilotOwned a.ownerMarker)) old g = true := by
  intro old hold
  unfold checkLinkedPolicy at h
  rcases hop with hop | hop | hop
  · simp only [hop, hold] at h
    obtain ⟨_, hfixed, -⟩ := bind_eq_ok.mp h
    rw [hop]
    exact checkFixed_eq_ok.mp hfixed
  · simp only [hop, hold] at h
    obtain ⟨_, hfixed, -⟩ := bind_eq_ok.mp h
    rw [hop]
    exact checkFixed_eq_ok.mp hfixed
  · simp only [hop, hold] at h
    obtain ⟨_, -, h⟩ := bind_eq_ok.mp h
    split at h
    · next old' _ hold' _ =>
        cases hold'
        obtain ⟨_, hfixed, -⟩ := bind_eq_ok.mp h
        rw [hop]
        exact checkFixed_eq_ok.mp hfixed
    · cases h

theorem checkPolicyLinks_frame (h : checkPolicyLinks content a g before state = .ok ()) :
    g.links.Perm (expectedLinks content a g.guid before.ous state.ous a.linkOrders) := by
  unfold checkPolicyLinks at h
  rw [throwIf_eq_ok, not_not] at h
  have hsorted : g.links.Perm (placedLinks g.links) := (List.perm_insertionSort _ _).symm
  rw [h] at hsorted
  exact hsorted.trans (List.perm_insertionSort _ _)

theorem checkDeactivated_frame {old : Agent.Gpo.Policy}
    (h : checkDeactivated before state old g = .ok ()) :
    g = { old with computerEnabled := false, userEnabled := false } ∧ state.ous = before.ous := by
  unfold checkDeactivated at h
  obtain ⟨_, hfixed, h⟩ := bind_eq_ok.mp h
  simp only [throwIf_eq_ok, not_or, not_not, Bool.not_eq_true] at h
  obtain ⟨hcomputer, huser, hous⟩ := h
  refine ⟨?_, hous⟩
  have hsame := beq_iff_eq.mp (checkFixed_eq_ok.mp hfixed)
  simp only [Bool.false_eq_true, if_false, if_true, hcomputer, huser] at hsame
  exact hsame

theorem linked_frame (hop : a.operation = .importAndLinkManagedGpo ∨ a.operation = .linkManagedGpo ∨
      a.operation = .activateManagedGpo) (hgpo : state.gpo = some g)
    (hguid : ∀ old, before.gpo = some old → g.guid = old.guid)
    (hadmins : state.domainAdminsSid = before.domainAdminsSid) (h : (do
      checkLinkedPolicy content a before g backedUp
      checkOwner a before state g
      checkContainers content a g.guid before.ous state.ous a.linkOrders
      checkPolicyLinks content a g before state) = .ok ()) :
    LinkedState content a before state g := by
  obtain ⟨_, hpolicy, h⟩ := bind_eq_ok.mp h
  obtain ⟨_, -, h⟩ := bind_eq_ok.mp h
  obtain ⟨_, hcontainers, hlinks⟩ := bind_eq_ok.mp h
  obtain ⟨hlength, hous⟩ := checkContainers_frame hcontainers
  exact ⟨hgpo, fun old hold => ⟨hguid old hold, checkLinkedPolicy_frame hop hpolicy old hold⟩,
    checkPolicyLinks_frame hlinks, hadmins, hlength, hous⟩

/-- A change of the policy. -/
theorem checkChanged_frame (hdelete : a.operation ≠ .deleteManagedGpo)
    (hadmins : a.inspection = false → state.domainAdminsSid = before.domainAdminsSid)
    (h : checkChanged content a before state backedUp = .ok ()) :
    Framed content a before state := by
  unfold checkChanged at h
  cases hgpo : state.gpo with
  | none => rw [hgpo] at h; cases h
  | some g =>
    rw [hgpo] at h
    simp only at h
    obtain ⟨_, hname, h⟩ := bind_eq_ok.mp h
    obtain ⟨_, -, h⟩ := bind_eq_ok.mp h
    obtain ⟨_, hguid, h⟩ := bind_eq_ok.mp h
    rw [throwIf_eq_ok] at hname hguid
    have hsame : ∀ old, before.gpo = some old → g.guid = old.guid := by
      intro old hold
      rw [hold] at hguid
      simpa using hguid
    unfold Framed
    cases hop : a.operation with
    | createUnlinkedPilot | inspectManagedGpo | importManagedGpo => exact trivial
    | deleteManagedGpo => exact absurd hop hdelete
    | importAndLinkManagedGpo | linkManagedGpo | activateManagedGpo =>
      have hwrite := hadmins (by unfold ManagedJob.inspection; rw [hop]; rfl)
      rw [if_neg (by rw [hop]; nofun)] at h
      obtain ⟨_, -, h⟩ := bind_eq_ok.mp h
      simp only [hop] at h
      exact ⟨g, linked_frame (by simp [hop]) hgpo hsame hwrite h⟩
    | deactivateManagedGpo =>
      have hwrite := hadmins (by unfold ManagedJob.inspection; rw [hop]; rfl)
      rw [if_neg (by rw [hop]; nofun)] at h
      obtain ⟨_, hpresent, h⟩ := bind_eq_ok.mp h
      cases hold : before.gpo with
      | none => exact absurd ⟨hold, by rw [hop]; nofun⟩ (throwIf_eq_ok.mp hpresent)
      | some old =>
        simp only [hop, hold] at h
        obtain ⟨hchanged, hous⟩ := checkDeactivated_frame h
        have havailable : state.nameAvailable = true := by
          simpa using (not_or.mp hname).1
        refine ⟨old, rfl, ?_⟩
        obtain ⟨admins, gpo, ous, available⟩ := state
        cases hgpo
        cases hous
        cases hwrite
        cases havailable
        rw [hchanged]

/-- What an accepted receipt of a job can have changed. -/
theorem postcondition_frame {evidence document : Value} (hbefore : a.expectedState = some before)
    (h : postcondition content a evidence document = .ok ()) :
    ∃ e : ManagedEvidence, evidence = e.toJson ∧ Framed content a before e.state := by
  unfold postcondition at h
  obtain ⟨_, -, h⟩ := bind_eq_ok.mp h
  cases hread : Value.exactly ManagedEvidence.toJson ManagedEvidence.read evidence with
  | none => rw [hread] at h; cases h
  | some e =>
    rw [hread] at h
    simp only at h
    refine ⟨e, (Value.exactly_eq_some ManagedEvidence.read_toJson).mp hread, ?_⟩
    obtain ⟨_, -, h⟩ := bind_eq_ok.mp h
    obtain ⟨_, -, h⟩ := bind_eq_ok.mp h
    obtain ⟨state, hstate, h⟩ := bind_eq_ok.mp h
    obtain ⟨_, hadministrators, h⟩ := bind_eq_ok.mp h
    obtain ⟨_, -, h⟩ := bind_eq_ok.mp h
    obtain ⟨_, -, h⟩ := bind_eq_ok.mp h
    obtain ⟨backedUp, -, h⟩ := bind_eq_ok.mp h
    obtain ⟨_, -, h⟩ := bind_eq_ok.mp h
    obtain ⟨hsame, -⟩ := validateSnapshot_eq_ok.mp hstate
    rw [Snapshot.toJson_injective hsame]
    have hadmins : a.inspection = false → state.domainAdminsSid = before.domainAdminsSid := by
      intro hwrite
      unfold checkAdministrators at hadministrators
      rw [hwrite, hbefore] at hadministrators
      simp only [Bool.false_eq_true, if_false, throwIf_eq_ok, Option.any_some, Bool.not_eq_false,
        beq_iff_eq] at hadministrators
      exact hadministrators.symm
    by_cases hread : a.inspection = true
    · unfold Framed
      rw [beq_iff_eq.mp hread]
      exact trivial
    · rw [if_neg hread, hbefore] at h
      simp only at h
      by_cases hdelete : a.operation = .deleteManagedGpo
      · rw [if_pos hdelete] at h
        unfold checkDeleted at h
        cases hold : before.gpo with
        | none => rw [hold] at h; cases h
        | some old =>
          rw [hold] at h
          simp only at h
          obtain ⟨_, hgone, hous⟩ := bind_eq_ok.mp h
          simp only [throwIf_eq_ok, not_or, not_not, Bool.not_eq_false] at hgone
          unfold Framed
          rw [hdelete]
          exact ⟨old, hold, hgone.2.1, hadmins (eq_false_of_ne_true hread), hgone.2.2,
            checkDeletedOus_frame hous⟩
      · rw [if_neg hdelete] at h
        exact checkChanged_frame hdelete hadmins h

end

/-! ### Accepted receipts -/

/-- The deletion of the policy. -/
def deletionJob : ManagedJob :=
  { sampleDraft with
    operation := .deleteManagedGpo, intendedOperation := .deleteManagedGpo
    gpoGuid := "00000000-0000-4000-8000-000000000009", expectedState := some sampleSnapshot }

/-- The receipt of the deletion; the unit has a new USN. -/
def deletionEvidence : ManagedEvidence where
  operation := .deleteManagedGpo
  managedId := sampleDraft.managedId
  state := { sampleSnapshot with gpo := none, ous := [{ sampleUnit [] with usn := "18" }] }
  preparedArtifactSha256 := ""
  backupId := "00000000-0000-4000-8000-00000000000d"
  backupManifestSha256 := "aaaaaaaaaaaaaaaaaaaaaaaaaaaaaaaaaaaaaaaaaaaaaaaaaaaaaaaaaaaaaaaa"
  overrideSha256 := none

/-- The import of a policy whose identifier will be one the unit already has a link to. -/
def collisionJob : ManagedJob :=
  { sampleDraft with
    operation := .importAndLinkManagedGpo, intendedOperation := .importAndLinkManagedGpo
    ownerMarker := "", linkOrders := [2]
    expectedState := some { sampleSnapshot with
      gpo := none
      ous := [sampleUnit [sampleLink "00000000-0000-4000-8000-000000000009" 1]] } }

/-- The one link the import leaves. -/
def collisionLink : Link :=
  { sampleLink "00000000-0000-4000-8000-000000000009" 1 with enabled := false }

/-- The receipt of the import. -/
def collisionEvidence : ManagedEvidence where
  operation := .importAndLinkManagedGpo
  managedId := sampleDraft.managedId
  state := { sampleSnapshot with
    gpo := sampleSnapshot.gpo.map fun g => { g with links := [collisionLink] }
    ous := [sampleUnit [collisionLink]] }
  preparedArtifactSha256 := sampleDraft.artifactSha256
  backupId := ""
  backupManifestSha256 := ""
  overrideSha256 := none

set_option maxRecDepth 20000 in
theorem deletionEvidence_accepted :
    postcondition sampleContent deletionJob deletionEvidence.toJson .null = .ok () := by
  decide +kernel

set_option maxRecDepth 20000 in
theorem collisionEvidence_accepted : postcondition sampleContent collisionJob
    collisionEvidence.toJson (.str "00000000-0000-4000-8000-000000000009") = .ok () := by
  decide +kernel

/-- The accepted deletion removes the policy and keeps the rest of the unit, but for its USN. -/
theorem postcondition_frame_sample :
    ∃ e : ManagedEvidence, deletionEvidence.toJson = e.toJson ∧
      Framed sampleContent deletionJob sampleSnapshot e.state :=
  postcondition_frame rfl deletionEvidence_accepted

/-- A deletion is accepted although the USN of a unit changed with it, and an import although its
link does not stand at the approved order. -/
theorem receipts_beyond_frame :
    (postcondition sampleContent deletionJob deletionEvidence.toJson .null = .ok () ∧
      deletionEvidence.state.ous.map Ou.usn ≠ sampleSnapshot.ous.map Ou.usn) ∧
    (postcondition sampleContent collisionJob collisionEvidence.toJson
        (.str "00000000-0000-4000-8000-000000000009") = .ok () ∧
      collisionJob.linkOrders = [2] ∧
      collisionEvidence.state.ous.map (fun o => o.links.map Link.order) = [[1]]) :=
  ⟨⟨deletionEvidence_accepted, by decide⟩, collisionEvidence_accepted, rfl, by decide⟩

end Ipms.Server.Gpo
