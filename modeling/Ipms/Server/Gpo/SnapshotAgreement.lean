import Ipms.Server.Document
import Ipms.Server.Gpo.ValidSnapshot
import Ipms.Server.Labels

/-
  Ipms.Server.Gpo.SnapshotAgreement

  Two validators of one document.  The agent checks the shape of a snapshot
  before it reports it; the portal checks the shape again, with narrower SIDs,
  versions and domains, and that the containers are those of the assignment.
  Given the agent's checks, only what the portal adds remains.
-/

namespace Ipms.Server.Gpo

open Ipms.Lib Ipms.ManagementJson
open Ipms.Agent.Gpo (ManagedJob Snapshot Ou Link LinkKind Policy digitsValue validSnapshot)
open List (all_eq_true length_cons mem_cons_self)
open Agent.Gpo (clean decimal digit dns dnsLabel lower protectedGpo serializedSize_eq sidPart sidParts validSnapshot_eq_some validUuid)

/-! ## Numbers -/

theorem mul_pow_le_foldl (cs : List Char) (n : Nat) :
    n * 10 ^ cs.length ≤ cs.foldl (fun n c => 10 * n + (c.toNat - 48)) n := by
  induction cs generalizing n with
  | nil => simp
  | cons c cs ih =>
    rw [List.foldl_cons, length_cons]
    calc n * 10 ^ (cs.length + 1)
        = 10 * n * 10 ^ cs.length := by
          rw [Nat.pow_succ, Nat.mul_comm 10 n, Nat.mul_assoc, Nat.mul_comm 10]
      _ ≤ (10 * n + (c.toNat - 48)) * 10 ^ cs.length :=
          Nat.mul_le_mul_right _ (Nat.le_add_right _ _)
      _ ≤ _ := ih _

theorem length_le_of_digitsValue_lt {c : Char} {cs : List Char} {k : Nat}
    (hdigit : digit c = true) (hzero : c ≠ '0') (h : digitsValue (c :: cs) < 10 ^ k) :
    (c :: cs).length ≤ k := by
  have hone : 1 ≤ 10 * 0 + (c.toNat - 48) := by
    simp only [digit, Bool.and_eq_true, decide_eq_true_eq] at hdigit
    have hlow : 48 ≤ c.toNat := hdigit.1
    have hne : c.toNat ≠ 48 := fun heq => hzero (Char.toNat_inj.mp heq)
    omega
  have hpow : 10 ^ cs.length < 10 ^ k := by
    calc 10 ^ cs.length
        = 1 * 10 ^ cs.length := (Nat.one_mul _).symm
      _ ≤ (10 * 0 + (c.toNat - 48)) * 10 ^ cs.length := Nat.mul_le_mul_right _ hone
      _ ≤ digitsValue (c :: cs) := mul_pow_le_foldl cs _
      _ < 10 ^ k := h
  have hlt := (Nat.pow_lt_pow_iff_right (by omega)).mp hpow
  rw [length_cons]
  omega

theorem sidNumber_of_sidPart {part : List Char} {maximum k : Nat}
    (h : sidPart part maximum = true) (hmax : maximum < 10 ^ k) :
    sidNumber k part = true := by
  simp only [sidPart, Bool.and_eq_true, Bool.not_eq_true', Bool.and_eq_false_iff,
    decide_eq_true_eq, decide_eq_false_iff_not] at h
  obtain ⟨⟨⟨hne, hlead⟩, hdigits⟩, hvalue⟩ := h
  cases part with
  | nil => cases hne
  | cons c cs =>
    unfold sidNumber
    by_cases hzero : c = '0'
    · have hnil : cs = [] := by
        rcases hlead with hshort | hhead
        · exact List.length_eq_zero_iff.mp (by rw [length_cons] at hshort; omega)
        · simp [hzero] at hhead
      subst hzero hnil
      rfl
    · have hdigit : digit c = true := all_eq_true.mp hdigits c mem_cons_self
      have hlength := length_le_of_digitsValue_lt hdigit hzero (Nat.lt_of_le_of_lt hvalue hmax)
      rw [hdigits, decide_eq_true hlength]
      simp [hzero]

/-- The sub-authorities of a SID, the numbers after its authority. -/
def subAuthorities (s : String) : Nat := ((s.toList.drop 4).splitOn '-').length - 1

theorem sid_of_agent {s : String} (h : Agent.Gpo.sid s = true) :
    sid s = true ↔ 2 ≤ subAuthorities s := by
  simp only [Agent.Gpo.sid, Bool.and_eq_true] at h
  obtain ⟨⟨⟨hstart, -⟩, -⟩, hparts⟩ := h
  unfold sid subAuthorities
  rw [hstart, Bool.true_and]
  cases hsplit : (s.toList.drop 4).splitOn '-' with
  | nil => exact absurd hsplit (List.splitOn_ne_nil _ _)
  | cons authority rest =>
    rw [hsplit] at hparts
    simp only [sidParts, Bool.and_eq_true, all_eq_true, decide_eq_true_eq] at hparts
    obtain ⟨⟨⟨hauthority, hrest⟩, -⟩, hcount⟩ := hparts
    have hnumbers : rest.all (sidNumber 10) = true :=
      all_eq_true.mpr fun part hpart => sidNumber_of_sidPart (hrest part hpart) (by decide)
    simp only [sidNumber_of_sidPart (k := 15) hauthority (by decide), hnumbers, Bool.true_and,
      Bool.and_true, Bool.and_eq_true, decide_eq_true_eq, length_cons]
    omega

theorem usn_of_decimal {s : String} (h : decimal s = true) : usn s = true := by
  simp only [decimal, Bool.and_eq_true, Bool.or_eq_true, bne_iff_ne, beq_iff_eq,
    decide_eq_true_eq] at h
  obtain ⟨⟨⟨hne, hlength⟩, hlead⟩, hdigits⟩ := h
  unfold usn sidNumber
  cases hcs : s.toList with
  | nil => exact absurd (String.toList_eq_nil_iff.mp hcs) hne
  | cons c cs =>
    rw [hcs] at hlength hlead hdigits
    by_cases hzero : c = '0'
    · have hnil : cs = [] := by
        rcases hlead with hone | hhead
        · exact List.length_eq_zero_iff.mp (by rw [length_cons] at hone; omega)
        · simp [hzero] at hhead
      subst hzero hnil
      rfl
    · rw [hdigits, decide_eq_true hlength]
      simp [hzero]

theorem bounded_of_clean {s : String} {maximum : Nat} {empty : Bool}
    (h : clean s maximum empty = true) : bounded s maximum empty = true := by
  simp only [clean, Bool.and_eq_true, decide_eq_true_eq] at h
  obtain ⟨⟨hempty, hsize⟩, hchars⟩ := h
  have hlength : s.toList.length ≤ maximum := Nat.le_trans (len_le_size s) hsize
  unfold bounded
  rw [hempty, decide_eq_true hlength, hchars]
  rfl

theorem uuidText_of_validUuid {s : String} (h : validUuid s = true) :
    uuidText s = true := by
  simp only [validUuid, Bool.and_eq_true] at h
  unfold uuidText
  rw [h.1.1, Bool.true_and]
  exact h.1.2

theorem notDefault_of_unprotected {s : String} (h : protectedGpo s = false) :
    defaultGpoIds.contains s = false := by
  by_contra hcontains
  rw [Bool.not_eq_false, List.contains_iff_mem] at hcontains
  have hall : ∀ id ∈ defaultGpoIds, protectedGpo id = true := by decide
  rw [hall s hcontains] at h
  cases h

/-- A domain with a label that is not a number. -/
def lettered (domain : String) : Bool :=
  !(domain.toList.splitOn '.').all fun label => label.all Agent.Gpo.digit

/-- A text with a dot between labels has two labels and three characters. -/
theorem labels_of_dotted {cs : List Char} (hdot : '.' ∈ cs)
    (h : ∀ label ∈ cs.splitOn '.', dnsLabel label = true) :
    2 ≤ (cs.splitOn '.').length ∧ 3 ≤ cs.length := by
  have hjoin : List.intercalate ['.'] (cs.splitOn '.') = cs := List.intercalate_splitOn '.'
  have hpositive : ∀ label ∈ cs.splitOn '.', 1 ≤ label.length := by
    intro label hlabel
    cases label with
    | nil => exact absurd (h [] hlabel) (by decide)
    | cons c label => simp
  cases hsplit : cs.splitOn '.' with
  | nil => exact absurd hsplit (List.splitOn_ne_nil _ _)
  | cons first rest =>
    rw [hsplit] at h hjoin hpositive
    cases rest with
    | nil =>
      rw [List.intercalate_singleton] at hjoin
      rw [← hjoin] at hdot
      exact absurd (dnsLabel_chars (h first mem_cons_self) '.' hdot) (by decide)
    | cons second rest =>
      have hfirst := hpositive first mem_cons_self
      have hsecond := hpositive second (by simp)
      refine ⟨by simp, ?_⟩
      have hlength := congrArg List.length hjoin
      rw [List.intercalate_cons_cons] at hlength
      cases rest with
      | nil =>
        rw [List.intercalate_singleton] at hlength
        simp only [List.length_append, length_cons, List.length_nil] at hlength
        omega
      | cons third rest =>
        rw [List.intercalate_cons_cons] at hlength
        simp only [List.length_append, length_cons, List.length_nil] at hlength
        omega

theorem domainName_of_dns {unicode : Unicode} (hlower : LowersAscii unicode) {s : String}
    (h : dns s = true) : (domainName unicode s == some s) = lettered s := by
  simp only [dns, Bool.and_eq_true, all_eq_true, decide_eq_true_eq,
    List.contains_iff_mem] at h
  obtain ⟨⟨⟨-, hsize⟩, hdot⟩, hlabels⟩ := h
  obtain ⟨htwo, hthree⟩ := labels_of_dotted hdot hlabels
  have hlength : s.toList.length ≤ 253 := Nat.le_trans (len_le_size s) hsize
  have hall : (s.toList.splitOn '.').all domainLabel = true := all_eq_true.mpr hlabels
  unfold domainName
  simp only [lower_of_nameChars hlower (nameChars_of_labels hlabels)]
  by_cases hletter : lettered s = true
  · rw [if_pos ⟨hthree, hlength, htwo, hletter, hall⟩, hletter]
    simp
  · rw [if_neg fun hchecks => hletter hchecks.2.2.2.1, Bool.eq_false_iff.mpr hletter]
    rfl

/-- What the portal asks of a list of links beyond the agent. -/
def letteredLinks (ls : List Link) : Bool := ls.all fun l => lettered l.domain

theorem validLink_of_agent {content : Content} (hlower : LowersAscii content.unicode) {l : Link}
    (h : l.valid = true) : validLink content l = lettered l.domain := by
  simp only [Link.valid, Bool.and_eq_true] at h
  obtain ⟨⟨⟨⟨hguid, hdns⟩, hdn⟩, hlow⟩, hhigh⟩ := h
  unfold validLink
  rw [bounded_of_clean hdn, hlow, hhigh, uuidText_of_validUuid hguid, domainName_of_dns hlower hdns]
  rfl

theorem linkIdentity_nodup {ls : List Link} (h : (ls.map Link.key).Nodup) :
    (ls.map linkIdentity).Nodup := by
  have hkey : ls.map Link.key =
      (ls.map linkIdentity).map fun (guid, _, dn, _) => lower dn ++ "/" ++ guid := by
    rw [List.map_map]
    rfl
  rw [hkey] at h
  exact List.Nodup.of_map _ h

theorem validLinks_of_agent {content : Content} (hlower : LowersAscii content.unicode)
    {ls : List Link} (h : Agent.Gpo.validLinks ls = true) :
    validLinks content ls = letteredLinks ls := by
  simp only [Agent.Gpo.validLinks, Bool.and_eq_true, all_eq_true] at h
  obtain ⟨⟨hcount, hvalid⟩, hnodup⟩ := h
  have hdistinct := linkIdentity_nodup (of_decide_eq_true hnodup)
  have hall : ls.all (validLink content) = letteredLinks ls := by
    unfold letteredLinks
    rw [Bool.eq_iff_iff]
    simp only [all_eq_true]
    constructor
    · intro hlinks l hl
      rw [← validLink_of_agent hlower (hvalid l hl)]
      exact hlinks l hl
    · intro hlinks l hl
      rw [validLink_of_agent hlower (hvalid l hl)]
      exact hlinks l hl
  unfold validLinks
  rw [hcount, hall, decide_eq_true hdistinct]
  simp

/-! ## What the portal adds -/

section
variable (content : Content) (a : ManagedJob)

/-- The checks of a container only the portal makes. -/
structure PortalOu (o : Ou) : Prop where
  links : letteredLinks o.links = true
  inherited : letteredLinks o.inheritedLinks = true
  root : domainTarget content a = true →
    a.targetTier = 0 ∧ o.guid = a.domainGuid ∧ o.inheritedLinks = []
  own : ownLinks content a o = true

/-- The checks of a policy only the portal makes. -/
structure PortalPolicy (allowInconsistent : Bool) (g : Policy) : Prop where
  versions : ∀ n ∈ [g.computerDs, g.computerSysvol, g.userDs, g.userSysvol], n ≤ 2 ^ 32 - 1
  owner : 2 ≤ subAuthorities g.ownerSid
  links : letteredLinks g.links = true
  consistent : allowInconsistent = false →
    g.computerDs = g.computerSysvol ∧ g.userDs = g.userSysvol

/-- The checks of a snapshot only the portal makes. -/
structure PortalSnapshot (allowInconsistent : Bool) (s : Snapshot) : Prop where
  admins : 2 ≤ subAuthorities s.domainAdminsSid
  targets : targetsObserved content a s.ous = true
  ous : ∀ o ∈ s.ous, PortalOu content a o
  gpo : ∀ g, s.gpo = some g → PortalPolicy allowInconsistent g

end

section
variable {content : Content} {a : ManagedJob}

theorem targetIdentity_of_observed {ous : List Ou} (h : targetsObserved content a ous = true)
    {o : Ou} (ho : o ∈ ous) :
    (targetIdentity content o.dn a.domainDnsName (domainTarget content a)).isSome = true := by
  simp only [targetsObserved, Bool.and_eq_true, beq_iff_eq, all_eq_true] at h
  obtain ⟨hlength, hsame⟩ := h
  obtain ⟨i, hi, rfl⟩ := List.getElem_of_mem ho
  have hi' : i < a.targetOus.length := by omega
  have hpair : (ous[i], a.targetOus[i]) ∈ ous.zip a.targetOus := by
    rw [List.mem_iff_getElem]
    exact ⟨i, by rw [List.length_zip]; omega, List.getElem_zip⟩
  have htarget := hsame _ hpair
  simp only [sameTarget] at htarget
  cases hleft : targetIdentity content ous[i].dn a.domainDnsName (domainTarget content a) with
  | none => rw [hleft] at htarget; cases htarget
  | some identity => rfl

theorem validOu_of_agent (hlower : LowersAscii content.unicode) {o : Ou} (h : o.valid = true)
    (htarget : (targetIdentity content o.dn a.domainDnsName (domainTarget content a)).isSome = true) :
    ValidOu content a o ↔ PortalOu content a o := by
  simp only [Ou.valid, Bool.and_eq_true] at h
  obtain ⟨⟨⟨⟨hdn, hguid⟩, husn⟩, hlinks⟩, hinherited⟩ := h
  constructor
  · intro hportal
    refine ⟨?_, ?_, hportal.root, hportal.own⟩
    · rw [← validLinks_of_agent hlower hlinks]
      exact hportal.links
    · rw [← validLinks_of_agent hlower hinherited]
      exact hportal.inherited
  · intro hportal
    refine ⟨usn_of_decimal husn, uuidText_of_validUuid hguid, htarget, ?_, ?_, hportal.root,
      hportal.own⟩
    · rw [validLinks_of_agent hlower hlinks]
      exact hportal.links
    · rw [validLinks_of_agent hlower hinherited]
      exact hportal.inherited

theorem validPolicy_of_agent (hlower : LowersAscii content.unicode) {g : Policy}
    (h : g.valid = true) {allow : Bool} :
    ValidPolicy content allow g ↔ PortalPolicy allow g := by
  simp only [Policy.valid, Bool.and_eq_true, Bool.not_eq_true', all_eq_true] at h
  obtain ⟨⟨⟨⟨⟨⟨⟨⟨hguid, hprotected⟩, hname⟩, hdescription⟩, hfilter⟩, howner⟩, hsecurity⟩,
    hversions⟩, hlinks⟩ := h
  constructor
  · intro hportal
    refine ⟨fun n hn => ?_, (sid_of_agent howner).mp hportal.owner, ?_, hportal.consistent⟩
    · have hversion := all_eq_true.mp hportal.versions n hn
      simp only [version, Bool.and_eq_true, decide_eq_true_eq] at hversion
      exact hversion.2
    · rw [← validLinks_of_agent hlower hlinks]
      exact hportal.links
  · intro hportal
    refine ⟨bounded_of_clean hname, bounded_of_clean hdescription, bounded_of_clean hfilter,
      all_eq_true.mpr fun n hn => ?_, (sid_of_agent howner).mpr hportal.owner, hsecurity,
      uuidText_of_validUuid hguid, notDefault_of_unprotected hprotected, ?_, hportal.consistent⟩
    · have hversion := hversions n hn
      simp only [Agent.Gpo.version, Bool.and_eq_true, decide_eq_true_eq] at hversion
      simp only [version, Bool.and_eq_true, decide_eq_true_eq]
      exact ⟨hversion.1, hportal.versions n hn⟩
    · rw [validLinks_of_agent hlower hlinks]
      exact hportal.links

/-- A document the agent accepts is accepted by the portal exactly when it passes the checks that
only the portal makes. -/
theorem validSnapshot_accepted_iff (hlower : LowersAscii content.unicode) (v : Value) (s : Snapshot)
    (allow : Bool) (h : validSnapshot v = some s) :
    (∃ s', validateSnapshot content a v allow = .ok s') ↔ PortalSnapshot content a allow s := by
  obtain ⟨rfl, hvalid⟩ := validSnapshot_eq_some.mp h
  simp only [Snapshot.valid, Bool.and_eq_true, all_eq_true, decide_eq_true_eq] at hvalid
  obtain ⟨⟨⟨⟨⟨⟨hsize, hadmins⟩, hcount⟩, hous⟩, hnodup⟩, -⟩, hgpo⟩ := hvalid
  constructor
  · rintro ⟨s', haccepted⟩
    obtain ⟨heq, hportal⟩ := validateSnapshot_eq_ok.mp haccepted
    obtain rfl := Agent.Gpo.Snapshot.toJson_injective heq
    refine ⟨(sid_of_agent hadmins).mp hportal.admins, hportal.targets, fun o ho => ?_,
      fun g hg => ?_⟩
    · have hou := hportal.ous o ho
      exact (validOu_of_agent hlower (hous o ho) hou.target).mp hou
    · rw [hg] at hgpo
      exact (validPolicy_of_agent hlower hgpo).mp (hportal.gpo g hg)
  · intro hportal
    refine ⟨s, validateSnapshot_eq_ok.mpr ⟨rfl, ?_, (sid_of_agent hadmins).mpr hportal.admins, hcount,
      hportal.targets, hnodup, fun o ho => ?_, fun g hg => ?_⟩⟩
    · rw [canonical_eq_render]
      rw [serializedSize_eq] at hsize
      split at hsize
      · exact of_decide_eq_true hsize
      · cases hsize
    · exact (validOu_of_agent hlower (hous o ho)
        (targetIdentity_of_observed hportal.targets ho)).mpr (hportal.ous o ho)
    · rw [hg] at hgpo
      exact (validPolicy_of_agent hlower hgpo).mpr (hportal.gpo g hg)

end

/-! ### A policy of the local system -/

/-- The inspection before an import. -/
def inspectionDraft : ManagedJob := { sampleDraft with operation := .inspectManagedGpo }

/-- The snapshot with another owner. -/
def ownedSnapshot (owner : String) : Snapshot :=
  { sampleSnapshot with gpo := sampleSnapshot.gpo.map fun g => { g with ownerSid := owner } }

set_option maxRecDepth 20000 in
theorem sampleSnapshot_valid : validSnapshot sampleSnapshot.toJson = some sampleSnapshot := by
  refine validSnapshot_eq_some.mpr ⟨rfl, ?_⟩
  unfold Snapshot.valid
  rw [serializedSize_eq, if_pos (by decide)]
  decide

theorem validSnapshot_accepted_sample :
    (∃ s', validateSnapshot sampleContent inspectionDraft sampleSnapshot.toJson = .ok s') ↔
      PortalSnapshot sampleContent inspectionDraft false sampleSnapshot :=
  validSnapshot_accepted_iff (fun _ _ => rfl) sampleSnapshot.toJson sampleSnapshot false
    sampleSnapshot_valid

set_option maxRecDepth 20000 in
theorem ownedSnapshot_valid :
    validSnapshot (ownedSnapshot "S-1-5-18").toJson = some (ownedSnapshot "S-1-5-18") := by
  refine validSnapshot_eq_some.mpr ⟨rfl, ?_⟩
  unfold Snapshot.valid
  rw [serializedSize_eq, if_pos (by decide)]
  decide

/-- The agent reports a policy that the local system owns.  Its SID has one sub-authority, and the
portal rejects the report. -/
theorem agent_snapshot_rejected :
    validSnapshot (ownedSnapshot "S-1-5-18").toJson = some (ownedSnapshot "S-1-5-18") ∧
      ∀ allow s, validateSnapshot sampleContent inspectionDraft
        (ownedSnapshot "S-1-5-18").toJson allow ≠ .ok s := by
  refine ⟨ownedSnapshot_valid, ?_⟩
  intro allow s h
  obtain ⟨heq, hvalid⟩ := validateSnapshot_eq_ok.mp h
  obtain rfl := Agent.Gpo.Snapshot.toJson_injective heq
  exact absurd (hvalid.gpo _ rfl).owner (by decide)

end Ipms.Server.Gpo
