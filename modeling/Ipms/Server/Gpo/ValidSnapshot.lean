import Ipms.Server.Gpo.Directory

/-
  Ipms.Server.Gpo.ValidSnapshot

  What `validate_snapshot` accepts, as a structure: every later argument about a
  reported state takes its facts from here and leaves the checks folded.
-/

namespace Ipms.Server.Gpo

open Ipms.Lib Ipms.ManagementJson
open Ipms.Agent.Gpo (ManagedJob Operation Snapshot Ou Link LinkKind)

/-! ## Containers and policies -/

section
variable (content : Content) (a : ManagedJob)

/-- What the checks of a container establish. -/
structure ValidOu (o : Ou) : Prop where
  usn : usn o.usn = true
  guid : uuidText o.guid = true
  target : (targetIdentity content o.dn a.domainDnsName (domainTarget content a)).isSome = true
  links : validLinks content o.links = true
  inherited : validLinks content o.inheritedLinks = true
  root : domainTarget content a = true →
    a.targetTier = 0 ∧ o.guid = a.domainGuid ∧ o.inheritedLinks = []
  own : ownLinks content a o = true

/-- What the checks of a policy establish. -/
structure ValidPolicy (allowInconsistent : Bool) (g : Agent.Gpo.Policy) : Prop where
  name : bounded g.name 240 = true
  description : bounded g.description 2048 true = true
  wmiFilter : bounded g.wmiFilter 2048 true = true
  versions : [g.computerDs, g.computerSysvol, g.userDs, g.userSysvol].all version = true
  owner : sid g.ownerSid = true
  security : sha g.securityDigest = true
  guid : uuidText g.guid = true
  notDefault : defaultGpoIds.contains g.guid = false
  links : validLinks content g.links = true
  consistent : allowInconsistent = false →
    g.computerDs = g.computerSysvol ∧ g.userDs = g.userSysvol

/-- What `validate_snapshot` establishes. -/
structure ValidSnapshot (allowInconsistent : Bool) (s : Snapshot) : Prop where
  size : (canonical s.toJson).length ≤ 16384
  admins : sid s.domainAdminsSid = true
  count : s.ous.length ≤ 32
  targets : targetsObserved content a s.ous = true
  nodup : (s.ous.map Ou.guid).Nodup
  ous : ∀ o ∈ s.ous, ValidOu content a o
  gpo : ∀ g, s.gpo = some g → ValidPolicy content allowInconsistent g

end

section
variable {content : Content} {a : ManagedJob}

theorem checkOu_eq_ok {o : Ou} : checkOu content a o = .ok () ↔ ValidOu content a o := by
  unfold checkOu
  simp only [bind_eq_ok, throwIf_eq_ok, exists_const, Bool.not_eq_true', Bool.not_eq_false,
    Bool.and_eq_true]
  constructor
  · rintro ⟨⟨⟨⟨⟨husn, hguid⟩, htarget⟩, hlinks⟩, hinherited⟩, hroot, hown⟩
    refine ⟨husn, hguid, htarget, hlinks, hinherited, fun h => ?_, hown⟩
    simp only [h, true_and, not_or, not_not] at hroot
    exact hroot
  · intro h
    refine ⟨⟨⟨⟨⟨h.usn, h.guid⟩, h.target⟩, h.links⟩, h.inherited⟩, ?_, h.own⟩
    rintro ⟨hroot, hbad⟩
    obtain ⟨htier, hguid, hinherited⟩ := h.root hroot
    simp [htier, hguid, hinherited] at hbad

theorem checkPolicy_eq_ok {g : Agent.Gpo.Policy} {allow : Bool} :
    checkPolicy content g allow = .ok () ↔ ValidPolicy content allow g := by
  unfold checkPolicy
  simp only [bind_eq_ok, throwIf_eq_ok, exists_const, Bool.not_eq_true', Bool.not_eq_false,
    Bool.and_eq_true]
  constructor
  · rintro ⟨⟨⟨⟨⟨⟨⟨⟨⟨hname, hdescription⟩, hfilter⟩, hversions⟩, howner⟩, hsecurity⟩, hguid⟩, hdefault⟩,
      hlinks⟩, hconsistent⟩
    refine ⟨hname, hdescription, hfilter, hversions, howner, hsecurity, hguid, hdefault, hlinks,
      fun h => ?_⟩
    simp only [h, true_and, not_or, not_not] at hconsistent
    exact hconsistent
  · intro h
    refine ⟨⟨⟨⟨⟨⟨⟨⟨⟨h.name, h.description⟩, h.wmiFilter⟩, h.versions⟩, h.owner⟩, h.security⟩, h.guid⟩,
      h.notDefault⟩, h.links⟩, ?_⟩
    rintro ⟨hallow, hbad⟩
    obtain ⟨hcomputer, huser⟩ := h.consistent hallow
    simp [hcomputer, huser] at hbad

/-- `validate_snapshot` accepts exactly the documents of valid snapshots. -/
theorem validateSnapshot_eq_ok {v : Value} {s : Snapshot} {allow : Bool} :
    validateSnapshot content a v allow = .ok s ↔ v = s.toJson ∧ ValidSnapshot content a allow s := by
  unfold validateSnapshot
  simp only [bind_eq_ok, throwIf_eq_ok, exists_const, not_lt, gt_iff_lt]
  constructor
  · rintro ⟨hsize, h⟩
    cases hd : Snapshot.decode v with
    | none => rw [hd] at h; cases h
    | some s' =>
      rw [hd] at h
      simp only [bind_eq_ok, throwIf_eq_ok, exists_const, Bool.not_eq_true', Bool.not_eq_false,
        Bool.and_eq_true, decide_eq_true_eq] at h
      obtain ⟨⟨⟨⟨hadmins, hcount⟩, htargets⟩, hnodup⟩, _, hous, h⟩ := h
      obtain rfl := Snapshot.decode_eq_some.mp hd
      have hvalid : ∀ o ∈ s'.ous, ValidOu content a o :=
        fun o ho => checkOu_eq_ok.mp (forM_eq_ok.mp hous o ho)
      cases hg : s'.gpo with
      | none =>
        rw [hg] at h
        obtain rfl := pure_eq_ok.mp h
        exact ⟨rfl, hsize, hadmins, hcount, htargets, hnodup, hvalid, by rw [hg]; intro _ h; cases h⟩
      | some g =>
        rw [hg] at h
        obtain ⟨_, hpolicy, h⟩ := bind_eq_ok.mp h
        obtain rfl := pure_eq_ok.mp h
        refine ⟨rfl, hsize, hadmins, hcount, htargets, hnodup, hvalid, fun g' hg' => ?_⟩
        rw [hg] at hg'
        cases hg'
        exact checkPolicy_eq_ok.mp hpolicy
  · rintro ⟨rfl, h⟩
    refine ⟨h.size, ?_⟩
    rw [Snapshot.decode_eq_some.mpr rfl]
    simp only [bind_eq_ok, throwIf_eq_ok, exists_const, Bool.not_eq_true', Bool.not_eq_false,
      Bool.and_eq_true, decide_eq_true_eq]
    refine ⟨⟨⟨⟨h.admins, h.count⟩, h.targets⟩, h.nodup⟩, (), ?_, ?_⟩
    · exact forM_eq_ok.mpr fun o ho => checkOu_eq_ok.mpr (h.ous o ho)
    · cases hg : s.gpo with
      | none => rfl
      | some g => exact bind_eq_ok.mpr ⟨(), checkPolicy_eq_ok.mpr (h.gpo g hg), rfl⟩

end

/-! ### A valid state -/

/-- A content with one component, of the machine. -/
def sampleContent : Content where
  unicode := asciiUnicode
  components _ _ := some {
    artifactSha256 := "aaaaaaaaaaaaaaaaaaaaaaaaaaaaaaaaaaaaaaaaaaaaaaaaaaaaaaaaaaaaaaaa"
    scope := .machine
    files := []
    name := "MSFT Windows Server 2025 - Member Server"
    purpose := "Member" }
  profileComponents _ _ := []
  overrideComponents _ _ := none
  artifactBytes _ := none
  reviewable _ := true

/-- A disabled policy without links, and the organizational unit it is meant for. -/
def sampleSnapshot : Snapshot where
  domainAdminsSid := "S-1-5-21-1-2-3-512"
  gpo := some {
    guid := "00000000-0000-4000-8000-000000000009"
    name := "IPMS"
    description := "IPMS managed GPO; id=00000000-0000-4000-8000-000000000003"
    computerEnabled := false
    userEnabled := false
    computerDs := 1
    computerSysvol := 1
    userDs := 1
    userSysvol := 1
    ownerSid := "S-1-5-21-1-2-3-512"
    securityDigest := "aaaaaaaaaaaaaaaaaaaaaaaaaaaaaaaaaaaaaaaaaaaaaaaaaaaaaaaaaaaaaaaa"
    wmiFilter := ""
    links := [] }
  ous := [
    { dn := "OU=Servers,DC=corp,DC=example"
      guid := "00000000-0000-4000-8000-00000000000a"
      usn := "17"
      blocked := false
      links := []
      inheritedLinks := [] }]
  nameAvailable := true

/-- The assignment of an import, without its digest. -/
def sampleDraft : ManagedJob where
  jobId := "00000000-0000-4000-8000-000000000001"
  inputDigest := ""
  operation := .importManagedGpo
  domainDnsName := "corp.example"
  domainGuid := "00000000-0000-4000-8000-00000000000b"
  forestDnsName := "corp.example"
  executorDcFqdn := "dc1.corp.example"
  scopeId := "00000000-0000-4000-8000-000000000002"
  scopeRevision := 1
  targetTier := 1
  baselineId := "microsoft-windows-server-2025"
  profile := "member-server"
  backupId := "00000000-0000-4000-8000-00000000000c"
  artifactSha256 := "aaaaaaaaaaaaaaaaaaaaaaaaaaaaaaaaaaaaaaaaaaaaaaaaaaaaaaaaaaaaaaaa"
  pilotDisplayName := "IPMS"
  expiresAt := "2026-09-10T11:30:45Z"
  approvalMode := "portal"
  managedId := "00000000-0000-4000-8000-000000000003"
  managedRevision := 1
  gpoGuid := ""
  ownerMarker := "IPMS managed GPO; id=00000000-0000-4000-8000-000000000003"
  targetOus := ["OU=Servers,DC=corp,DC=example"]
  linkOrders := [1]
  preflightId := "00000000-0000-4000-8000-000000000004"
  expectedState := none
  intendedOperation := .importManagedGpo
  safetyReview := ⟨false, false⟩
  override := none

/-- A link to the unit, under a name of it. -/
def sampleLink (guid : String) (order : Int) (dn : String := "OU=Servers,DC=corp,DC=example") : Link where
  guid := guid
  domain := "corp.example"
  dn := dn
  kind := .ou
  enabled := true
  enforced := false
  order := order

def sampleUnit (links : List Link) : Ou where
  dn := "OU=Servers,DC=corp,DC=example"
  guid := "00000000-0000-4000-8000-00000000000a"
  usn := "17"
  blocked := false
  links := links
  inheritedLinks := []

end Ipms.Server.Gpo
