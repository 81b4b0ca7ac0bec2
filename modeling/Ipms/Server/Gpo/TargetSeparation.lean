import Ipms.Server.DistinguishedNames
import Ipms.Server.Gpo.Settings

/-
  Ipms.Server.Gpo.TargetSeparation

  The organizational units of a settings document: each has one identity, the
  components its name denotes, no identity is listed twice, and no unit of a tier
  lies in a unit of another.
-/

namespace Ipms.Server.Gpo

open Ipms.Lib

/-! ## Targets -/

/-- The identity of an organizational unit. -/
abbrev Identity := List (Attribute × String)

/-- Two targets of which the later was checked against the earlier. -/
def Apart (labels : Nat) (earlier later : Int × Identity) : Prop :=
  targetsClash labels later earlier = false

/-- The targets of a tier are those before it and the identities of its cleaned names, each checked
against all before it. -/
theorem tierTargets_spec {c : Catalogue} {domain : String} {tier : Int} {values cleaned : List String}
    {seen all : List (Int × Identity)}
    (h : tierTargets c domain tier values seen = .ok (cleaned, all)) :
    ∃ identities : List Identity, all = seen ++ identities.map (tier, ·) ∧
      List.Forall₂ (fun v i => ouIdentity c.unicode v domain (tier == 0) = some i) cleaned identities ∧
      (seen.Pairwise (Apart (domain.toList.splitOn '.').length) →
        all.Pairwise (Apart (domain.toList.splitOn '.').length)) := by
  induction values generalizing cleaned seen all with
  | nil =>
    obtain ⟨rfl, rfl⟩ := Prod.mk.inj (pure_eq_ok.mp h)
    exact ⟨[], by simp, .nil, id⟩
  | cons value values ih =>
    rw [tierTargets] at h
    dsimp only at h
    split at h
    · cases h
    · rename_i identity hidentity
      obtain ⟨_, hnew, h⟩ := bind_eq_ok.mp h
      rw [throwIf_eq_ok] at hnew
      obtain ⟨⟨rest, all'⟩, hrest, h⟩ := bind_eq_ok.mp h
      obtain ⟨rfl, rfl⟩ := Prod.mk.inj (pure_eq_ok.mp h)
      obtain ⟨identities, hall, hvalues, hapart⟩ := ih hrest
      refine ⟨identity :: identities, ?_, .cons (ouIdentity_strip hidentity) hvalues, fun hseen => ?_⟩
      · rw [hall, List.append_assoc]
        rfl
      · apply hapart
        rw [List.pairwise_append]
        refine ⟨hseen, List.pairwise_singleton _ _, fun earlier hearlier later hlater => ?_⟩
        rw [List.mem_singleton.mp hlater]
        by_contra hclash
        exact hnew (List.any_eq_true.mpr ⟨earlier, hearlier, Bool.of_not_eq_false hclash⟩)

/-- The names of a document with their tiers. -/
def listed (t : TierOus) : List (Int × String) :=
  t.zero.map (0, ·) ++ t.one.map (1, ·) ++ t.two.map (2, ·)

/-- A listed name has a target. -/
def HasTarget (unicode : Unicode) (domain : String) (name : Int × String) (target : Int × Identity) :
    Prop :=
  target.1 = name.1 ∧ ouIdentity unicode name.2 domain (name.1 == 0) = some target.2

theorem forall₂_hasTarget {unicode : Unicode} {domain : String} {tier : Int} {names : List String}
    {identities : List Identity}
    (h : List.Forall₂ (fun v i => ouIdentity unicode v domain (tier == 0) = some i) names identities) :
    List.Forall₂ (HasTarget unicode domain) (names.map (tier, ·)) (identities.map (tier, ·)) := by
  induction h with
  | nil => exact .nil
  | cons hname _ ih => exact .cons ⟨rfl, hname⟩ ih

theorem validateSettings_targets {c : Catalogue} {data cleaned : SettingsDocument}
    (h : validateSettings c data = .ok cleaned) :
    ∃ targets : List (Int × Identity),
      List.Forall₂ (HasTarget c.unicode cleaned.domainName) (listed cleaned.tierOus) targets ∧
        targets.Pairwise (Apart (cleaned.domainName.toList.splitOn '.').length) := by
  unfold validateSettings at h
  split at h
  · cases h
  rename_i name hname
  obtain ⟨⟨zero, seen₀⟩, hzero, h⟩ := bind_eq_ok.mp h
  obtain ⟨⟨one, seen₁⟩, hone, h⟩ := bind_eq_ok.mp h
  obtain ⟨⟨two, seen₂⟩, htwo, h⟩ := bind_eq_ok.mp h
  obtain ⟨_, -, h⟩ := bind_eq_ok.mp h
  obtain ⟨_, -, h⟩ := bind_eq_ok.mp h
  obtain rfl := pure_eq_ok.mp h
  unfold checkTier at hzero hone htwo
  obtain ⟨_, -, hzero⟩ := bind_eq_ok.mp hzero
  obtain ⟨_, -, hone⟩ := bind_eq_ok.mp hone
  obtain ⟨_, -, htwo⟩ := bind_eq_ok.mp htwo
  obtain ⟨ids₀, rfl, hids₀, hapart₀⟩ := tierTargets_spec hzero
  obtain ⟨ids₁, rfl, hids₁, hapart₁⟩ := tierTargets_spec hone
  obtain ⟨ids₂, rfl, hids₂, hapart₂⟩ := tierTargets_spec htwo
  refine ⟨_, ?_, hapart₂ (hapart₁ (hapart₀ List.Pairwise.nil))⟩
  rw [List.nil_append]
  exact List.rel_append (List.rel_append (forall₂_hasTarget hids₀) (forall₂_hasTarget hids₁))
    (forall₂_hasTarget hids₂)

/-! ## Separation -/

/-- A unit lies in another, or is that unit. -/
def Inside (inner outer : Identity) : Prop := outer <:+ inner

/-- Two targets of a document: they are different units, and those of different tiers lie in one
another only where one is the domain itself. -/
def Separate (domain : String) (left right : Int × Identity) : Prop :=
  left.2 ≠ right.2 ∧ (left.1 ≠ right.1 → Inside left.2 right.2 ∨ Inside right.2 left.2 →
    left.2 = domainSuffix domain ∨ right.2 = domainSuffix domain)

theorem eq_domainSuffix_of_length {unicode : Unicode} {value domain : String} {allowed : Bool}
    {identity : Identity} (h : ouIdentity unicode value domain allowed = some identity)
    (hlength : identity.length = (domain.toList.splitOn '.').length) :
    identity = domainSuffix domain := by
  obtain ⟨_, _, units, rfl, _⟩ := ouIdentity_eq_some_iff.mp h
  have hsuffix : (domainSuffix domain).length = (domain.toList.splitOn '.').length :=
    List.length_map _
  rw [List.length_append, hsuffix] at hlength
  rw [List.length_eq_zero_iff.mp (by omega : units.length = 0), List.nil_append]

/-- Targets that do not clash are separate. -/
theorem separate_of_apart {unicode : Unicode} {domain : String} {names : List (Int × String)}
    {targets : List (Int × Identity)} (hnames : List.Forall₂ (HasTarget unicode domain) names targets)
    (h : targets.Pairwise (Apart (domain.toList.splitOn '.').length)) :
    targets.Pairwise (Separate domain) := by
  have hnamed : ∀ target ∈ targets, ∃ value allowed,
      ouIdentity unicode value domain allowed = some target.2 := by
    clear h
    induction hnames with
    | nil => exact fun _ h => absurd h List.not_mem_nil
    | cons hname _ ih => exact List.forall_mem_cons.mpr ⟨⟨_, _, hname.2⟩, ih⟩
  refine h.imp_of_mem ?_
  intro left right hleft hright hapart
  obtain ⟨_, _, hleftNamed⟩ := hnamed left hleft
  obtain ⟨_, _, hrightNamed⟩ := hnamed right hright
  unfold Apart targetsClash at hapart
  rw [Bool.or_eq_false_iff] at hapart
  obtain ⟨hdifferent, hoverlap⟩ := hapart
  refine ⟨fun heq => ?_, fun htier hinside => ?_⟩
  · rw [heq] at hdifferent
    exact absurd hdifferent (by simp)
  · have htiers : (right.1 != left.1) = true := bne_iff_ne.mpr fun heq => htier heq.symm
    have hover : overlap right.2 left.2 = true := by
      unfold overlap
      rw [Bool.or_eq_true, List.isSuffixOf_iff_suffix, List.isSuffixOf_iff_suffix]
      exact hinside.symm
    rw [htiers, hover, Bool.and_true, Bool.true_and, Bool.not_eq_false', Bool.or_eq_true, beq_iff_eq,
      beq_iff_eq] at hoverlap
    rcases hoverlap with hroot | hroot
    · exact Or.inr (eq_domainSuffix_of_length hrightNamed hroot)
    · exact Or.inl (eq_domainSuffix_of_length hleftNamed hroot)

/-- The identity of an organizational unit.

    `ou_identity` accepts exactly the bounded values that, without the white space around them,
    are names of one or more units followed by the components of the domain, or of the domain
    itself where the caller allows it.  The identities of two accepted values are equal exactly
    when the values denote the same decoded, normalized and folded components.  The names of
    validated settings have identities; no two are equal, and none of a tier lies in one of
    another tier unless one of them is the domain itself. -/
theorem ouIdentity_denotes :
    (∀ (unicode : Unicode) (value domain : String) (allowDomainRoot : Bool) (identity : Identity),
      ouIdentity unicode value domain allowDomainRoot = some identity ↔
        BoundedName value ∧ NameText unicode (strip value.toList) identity ∧
          InDomain domain allowDomainRoot identity) ∧
    (∀ (unicode : Unicode) (left right domain : String) (leftRoot rightRoot : Bool) (i j : Identity),
      ouIdentity unicode left domain leftRoot = some i →
      ouIdentity unicode right domain rightRoot = some j →
      (i = j ↔ ∃ components, NameText unicode (strip left.toList) components ∧
        NameText unicode (strip right.toList) components)) ∧
    ∀ (c : Catalogue) (data cleaned : SettingsDocument), validateSettings c data = .ok cleaned →
      ∃ targets, List.Forall₂ (HasTarget c.unicode cleaned.domainName) (listed cleaned.tierOus) targets ∧
        targets.Pairwise (Separate cleaned.domainName) := by
  refine ⟨fun _ _ _ _ _ => ouIdentity_eq_some_iff, ?_, ?_⟩
  · intro unicode left right domain leftRoot rightRoot i j hi hj
    obtain ⟨_, hleft, _⟩ := ouIdentity_eq_some_iff.mp hi
    obtain ⟨_, hright, _⟩ := ouIdentity_eq_some_iff.mp hj
    constructor
    · rintro rfl
      exact ⟨i, hleft, hright⟩
    · rintro ⟨components, hl, hr⟩
      rw [hleft.unique hl, hright.unique hr]
  · intro c data cleaned h
    obtain ⟨targets, hnames, hapart⟩ := validateSettings_targets h
    exact ⟨targets, hnames, separate_of_apart hnames hapart⟩

/-! ### Two names of one unit, and a name that is too long -/

/-- Tables that compose one accented letter. -/
def composingUnicode : Unicode :=
  { asciiUnicode with nfc := fun s => if s = "e\u0301" then "é" else s }

/-- The unit with its letter composed. -/
def composedName : String := "OU=é,DC=corp,DC=test"

/-- The unit with its letter decomposed. -/
def decomposedName : String := "OU=e\u0301,DC=corp,DC=test"

/-- A name with more space inside it than a value may have characters. -/
def spacedName : List Char :=
  "OU=a".toList ++ ',' :: (List.replicate 2048 ' ' ++ "DC=corp".toList ++ ',' :: "DC=test".toList)

/-- The name denotes a unit of the domain. -/
theorem spacedName_denotes :
    NameText asciiUnicode (strip spacedName) [(.ou, "a"), (.dc, "corp"), (.dc, "test")] := by
  have hspaces : ∀ c ∈ List.replicate 2048 ' ', space c = true := by
    intro c hc
    rw [List.eq_of_mem_replicate hc]
    decide
  have hbalanced : ∀ r ∈ ["OU=a".toList, List.replicate 2048 ' ' ++ "DC=corp".toList, "DC=test".toList],
      Balanced r := by
    simp only [List.forall_mem_cons, List.not_mem_nil, false_implies, implies_true, and_true]
    have hplain : ∀ {cs : List Char}, (cs.all fun c => decide (c ≠ '\\' ∧ c ≠ ',')) = true →
        ∀ c ∈ cs, c ≠ '\\' ∧ c ≠ ',' :=
      fun h c hc => of_decide_eq_true (List.all_eq_true.mp h c hc)
    refine ⟨balanced_of_plain (hplain (by decide)), balanced_of_plain fun c hc => ?_,
      balanced_of_plain (hplain (by decide))⟩
    rcases List.mem_append.mp hc with hblank | hletter
    · exact space_ne (hspaces c hblank)
    · exact hplain (by decide : ("DC=corp".toList.all fun c => _) = true) c hletter
  have hjoin : joinWith [','] ["OU=a".toList, List.replicate 2048 ' ' ++ "DC=corp".toList,
      "DC=test".toList] = spacedName := by
    rw [joinWith_cons_cons, joinWith_cons_cons, joinWith_singleton]
    rfl
  have hstrip : strip spacedName = spacedName := by
    apply strip_eq_self
    · intro c hc
      cases hc
      decide
    · intro c hc
      have hlast : spacedName.getLast? = some 't' := by
        unfold spacedName
        rw [List.getLast?_append, List.getLast?_cons, List.getLast?_append, List.getLast?_cons]
        rfl
      rw [hlast] at hc
      cases hc
      decide
  rw [hstrip, nameText_iff, ← hjoin]
  refine ⟨_, splitRdns_joinWith (List.cons_ne_nil _ _) hbalanced, mapM_eq_some_iff.mpr ?_⟩
  refine .cons (by decide +kernel) (.cons ?_ (.cons (by decide +kernel) .nil))
  rw [decodeComponent_blanks hspaces]
  decide +kernel

/-- Names of one unit may differ in what they denote before it is normalized, and a value of more
than 2048 characters is refused though it denotes a unit. -/
theorem ouIdentity_normalized_and_bounded :
    ¬ (∀ (unicode : Unicode) (left right domain : String) (i j : Identity),
      ouIdentity unicode left domain = some i → ouIdentity unicode right domain = some j →
      (i = j ↔ ∃ components, NameText { unicode with nfc := id } (strip left.toList) components ∧
        NameText { unicode with nfc := id } (strip right.toList) components)) ∧
    ¬ (∀ (unicode : Unicode) (value domain : String), (∃ i, ouIdentity unicode value domain = some i) ↔
      ∃ i, NameText unicode (strip value.toList) i ∧ InDomain domain false i) := by
  constructor
  · intro h
    have hcomposed : ouIdentity composingUnicode composedName "corp.test" =
        some [(.ou, "é"), (.dc, "corp"), (.dc, "test")] := by decide +kernel
    have hdecomposed : ouIdentity composingUnicode decomposedName "corp.test" =
        some [(.ou, "é"), (.dc, "corp"), (.dc, "test")] := by decide +kernel
    obtain ⟨components, hleft, hright⟩ := (h _ _ _ _ _ _ hcomposed hdecomposed).mp rfl
    have hplain : ouIdentity { composingUnicode with nfc := id } composedName "corp.test" =
        some [(.ou, "é"), (.dc, "corp"), (.dc, "test")] := by decide +kernel
    have hplain' : ouIdentity { composingUnicode with nfc := id } decomposedName "corp.test" =
        some [(.ou, "e\u0301"), (.dc, "corp"), (.dc, "test")] := by decide +kernel
    rw [hleft.unique (ouIdentity_eq_some_iff.mp hplain).2.1] at hright
    exact absurd (hright.unique (ouIdentity_eq_some_iff.mp hplain').2.1) (by decide)
  · intro h
    obtain ⟨i, hi⟩ := (h asciiUnicode (String.ofList spacedName) "corp.test").mpr
      ⟨_, by rw [String.toList_ofList]; exact spacedName_denotes, [(.ou, "a")], by decide,
        by decide, Or.inl (List.cons_ne_nil _ _)⟩
    obtain ⟨⟨_, hlength, _⟩, _⟩ := ouIdentity_eq_some_iff.mp hi
    have hlong : spacedName.length = 2068 := by
      unfold spacedName
      simp only [List.length_append, List.length_cons, List.length_replicate]
      rfl
    rw [String.toList_ofList, hlong] at hlength
    exact absurd hlength (by decide)

end Ipms.Server.Gpo
