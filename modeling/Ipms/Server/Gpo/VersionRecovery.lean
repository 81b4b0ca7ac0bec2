import Ipms.Server.Gpo.Placement
import Ipms.Server.Gpo.Settings
import Ipms.Server.Labels

/-
  Ipms.Server.Gpo.VersionRecovery

  The version of an imported policy.  The portal renders the template once with
  the version for the display name, and once with a marker to find the version in
  that name again.  Both renderings share the text around the version token, so
  the marker leads back to the version exactly where that text does not hold it.
-/

namespace Ipms.Server.Gpo

open Ipms.Lib Ipms.ManagementJson
open Ipms.Agent.Gpo (ManagedJob)
open List (all_eq_true append_assoc cons drop_left drop_take length length_append length_cons mem_cons_self nil_append)

/-! ## Splitting at a text -/

theorem splitText_ne_nil (sep : List Char) (fuel : Nat) (cs part : List Char) :
    splitText sep fuel cs part ≠ [] := by
  induction fuel generalizing cs part with
  | zero => cases cs <;> simp [splitText]
  | succ fuel ih =>
    cases cs with
    | nil => simp [splitText]
    | cons c rest =>
      unfold splitText
      split
      · simp
      · exact ih _ _

variable {cs sep : List Char} {fuel : Nat}

/-- A split leaves one part exactly where the separator does not occur. -/
theorem splitText_eq_single {part a : List Char} (hfuel : cs.length ≤ fuel) (hsep : sep ≠ []) :
    splitText sep fuel cs part = [a] ↔ a = part ++ cs ∧ ¬sep <:+: cs := by
  induction fuel generalizing cs part with
  | zero =>
    obtain rfl := List.length_eq_zero_iff.mp (Nat.le_zero.mp hfuel)
    simp only [splitText, cons.injEq, and_true, List.append_nil, List.infix_nil]
    exact ⟨fun h => ⟨h.symm, hsep⟩, fun h => h.1.symm⟩
  | succ fuel ih =>
    cases cs with
    | nil =>
      simp only [splitText, cons.injEq, and_true, List.append_nil, List.infix_nil]
      exact ⟨fun h => ⟨h.symm, hsep⟩, fun h => h.1.symm⟩
    | cons c rest =>
      have hrest : rest.length ≤ fuel := Nat.le_of_succ_le_succ hfuel
      unfold splitText
      rw [List.infix_cons_iff]
      by_cases hhere : sep.isPrefixOf (c :: rest) = true
      · rw [if_pos hhere]
        have hstart := List.isPrefixOf_iff_prefix.mp hhere
        constructor
        · intro h
          have hnil := (cons.inj h).2
          exact absurd hnil (splitText_ne_nil _ _ _ _)
        · rintro ⟨-, hnot⟩
          exact absurd (.inl hstart) hnot
      · rw [if_neg hhere, ih hrest, append_assoc, List.singleton_append]
        have hstart : ¬sep <+: c :: rest := fun h => hhere (List.isPrefixOf_iff_prefix.mpr h)
        exact and_congr_right fun _ =>
          ⟨fun h hor => hor.elim hstart h, fun h hinfix => h (.inr hinfix)⟩

/-- The first place of a text in another. -/
def FirstAt (sep left cs : List Char) : Prop := ∀ k < left.length, ¬sep <+: cs.drop k

/-- A split leaves two parts exactly around the only occurrence it meets. -/
theorem splitText_eq_pair {part a b : List Char} (hfuel : cs.length ≤ fuel) (hsep : sep ≠ []) :
    splitText sep fuel cs part = [a, b] ↔
      ∃ left, a = part ++ left ∧ cs = left ++ sep ++ b ∧ FirstAt sep left cs ∧ ¬sep <:+: b := by
  induction fuel generalizing cs part with
  | zero =>
    obtain rfl := List.length_eq_zero_iff.mp (Nat.le_zero.mp hfuel)
    simp [splitText, hsep]
  | succ fuel ih =>
    cases cs with
    | nil => simp [splitText, hsep]
    | cons c rest =>
      have hrest : rest.length ≤ fuel := Nat.le_of_succ_le_succ hfuel
      unfold splitText
      by_cases hhere : sep.isPrefixOf (c :: rest) = true
      · rw [if_pos hhere]
        have hstart := List.isPrefixOf_iff_prefix.mp hhere
        obtain ⟨tail, htail⟩ := hstart
        have hdrop : (c :: rest).drop sep.length = tail := by rw [← htail, drop_left]
        have hshort : tail.length ≤ fuel := by
          have hlength := congrArg length htail
          have hpos := List.length_pos_of_ne_nil hsep
          rw [length_append, length_cons] at hlength
          omega
        rw [hdrop, cons.injEq, splitText_eq_single hshort hsep, nil_append]
        constructor
        · rintro ⟨rfl, rfl, habsent⟩
          exact ⟨[], by simp, by rw [nil_append, htail], by simp [FirstAt], habsent⟩
        · rintro ⟨left, rfl, hcs, hfirst, habsent⟩
          cases left with
          | nil =>
            rw [nil_append, ← htail] at hcs
            obtain rfl := List.append_cancel_left hcs
            exact ⟨by simp, rfl, habsent⟩
          | cons d left => exact absurd ⟨tail, htail⟩ (hfirst 0 (by simp))
      · rw [if_neg hhere, ih hrest]
        have hstart : ¬sep <+: c :: rest := fun h => hhere (List.isPrefixOf_iff_prefix.mpr h)
        constructor
        · rintro ⟨left, rfl, rfl, hfirst, habsent⟩
          refine ⟨c :: left, by simp, by simp, ?_, habsent⟩
          intro k hk
          cases k with
          | zero => exact hstart
          | succ k =>
            rw [length_cons] at hk
            exact hfirst k (by omega)
        · rintro ⟨left, rfl, hcs, hfirst, habsent⟩
          cases left with
          | nil => exact absurd ⟨b, by simpa using hcs.symm⟩ hstart
          | cons d left =>
            rw [List.cons_append, List.cons_append, cons.injEq] at hcs
            obtain ⟨rfl, rfl⟩ := hcs
            refine ⟨left, by simp, rfl, ?_, habsent⟩
            intro k hk
            exact hfirst (k + 1) (by rw [length_cons]; omega)

/-! ## The text around the version -/

/-- The name of a token, without an empty format specification. -/
def tokenName (token : String) : String :=
  if token.toList.getLast? = some ':' then String.ofList token.toList.dropLast else token

/-- The text a template renders before and after its version token. -/
def nameAround (field : String → Option String) : Nat → List Char → Option (List Char × List Char)
  | _, [] => none
  | 0, _ => none
  | fuel + 1, c :: rest =>
    if c = '{' then do
      let token := String.ofList (rest.takeWhile (· ≠ '}'))
      let tail := (rest.dropWhile (· ≠ '}')).drop 1
      if tokenName token = "version" then
        let right ← formatTemplate field fuel tail
        pure ([], right)
      else do
        let value ← field token
        let (left, right) ← nameAround field fuel tail
        pure (value.toList ++ left, right)
    else do
      let (left, right) ← nameAround field fuel rest
      pure (c :: left, right)

section
variable (tier scope target purpose : String)

theorem nameToken_eq (w token : String) : nameToken tier scope target purpose w token =
    if tokenName token = "tier" then some tier
    else if tokenName token = "scope" then some scope
    else if tokenName token = "target" then some target
    else if tokenName token = "purpose" then some purpose
    else if tokenName token = "version" then some w
    else none := rfl

theorem nameToken_version {token : String} (h : tokenName token = "version") (w : String) :
    nameToken tier scope target purpose w token = some w := by
  rw [nameToken_eq, h]
  rfl

theorem nameToken_other {token : String} (h : tokenName token ∈ tokens)
    (hne : tokenName token ≠ "version") :
    ∃ value, ∀ w, nameToken tier scope target purpose w token = some value := by
  have hcases : tokenName token = "tier" ∨ tokenName token = "scope" ∨ tokenName token = "target" ∨
      tokenName token = "purpose" := by
    simp only [tokens, List.mem_cons, List.not_mem_nil, or_false] at h
    tauto
  rcases hcases with h | h | h | h
  · exact ⟨tier, fun w => by rw [nameToken_eq, h]; rfl⟩
  · exact ⟨scope, fun w => by rw [nameToken_eq, h]; rfl⟩
  · exact ⟨target, fun w => by rw [nameToken_eq, h]; rfl⟩
  · exact ⟨purpose, fun w => by rw [nameToken_eq, h]; rfl⟩

variable {fields : List String}

theorem templateFields_brace {rest : List Char}
    (h : templateFields (fuel + 1) ('{' :: rest) = some fields) :
    ∃ more, fields = tokenName (String.ofList (rest.takeWhile (· ≠ '}'))) :: more ∧
      templateFields fuel ((rest.dropWhile (· ≠ '}')).drop 1) = some more := by
  unfold templateFields at h
  rw [if_pos rfl] at h
  simp only at h
  split at h
  · cases h
  · obtain ⟨more, hmore, h⟩ := Option.bind_eq_some_iff.mp h
    obtain rfl := Option.some.inj h
    refine ⟨more, ?_, hmore⟩
    unfold tokenName
    rw [String.toList_ofList]
    split <;> rfl

theorem templateFields_literal {fuel : Nat} {c : Char} {rest : List Char} {fields : List String}
    (hc : c ≠ '{') (h : templateFields (fuel + 1) (c :: rest) = some fields) :
    templateFields fuel rest = some fields := by
  unfold templateFields at h
  rw [if_neg hc] at h
  split at h
  · exact h
  · cases h

/-- A template without the version renders one text. -/
theorem formatTemplate_unversioned (h : templateFields fuel cs = some fields)
    (hfields : ∀ f ∈ fields, f ∈ tokens) (hversion : "version" ∉ fields) :
    ∃ out, ∀ w, formatTemplate (nameToken tier scope target purpose w) fuel cs = some out := by
  induction fuel generalizing cs fields with
  | zero =>
    cases cs with
    | nil => exact ⟨[], fun _ => rfl⟩
    | cons c rest => cases h
  | succ fuel ih =>
    cases cs with
    | nil => exact ⟨[], fun _ => rfl⟩
    | cons c rest =>
      by_cases hc : c = '{'
      · subst hc
        obtain ⟨more, rfl, hmore⟩ := templateFields_brace h
        obtain ⟨out, hout⟩ := ih hmore (fun f hf => hfields f (List.mem_cons_of_mem _ hf))
          fun hmem => hversion (List.mem_cons_of_mem _ hmem)
        obtain ⟨value, hvalue⟩ := nameToken_other tier scope target purpose
          (hfields _ mem_cons_self) fun heq => hversion (heq ▸ mem_cons_self)
        refine ⟨value.toList ++ out, fun w => ?_⟩
        unfold formatTemplate
        rw [if_pos rfl, hvalue w, hout w]
        rfl
      · obtain ⟨out, hout⟩ := ih (templateFields_literal hc h) hfields hversion
        refine ⟨c :: out, fun w => ?_⟩
        unfold formatTemplate
        rw [if_neg hc, hout w]
        rfl

/-- A template with one version renders the version between two texts. -/
theorem formatTemplate_versioned (h : templateFields fuel cs = some fields)
    (hfields : ∀ f ∈ fields, f ∈ tokens) (hversion : fields.count "version" = 1) (v : String) :
    ∃ left right, nameAround (nameToken tier scope target purpose v) fuel cs = some (left, right) ∧
      ∀ w, formatTemplate (nameToken tier scope target purpose w) fuel cs =
        some (left ++ w.toList ++ right) := by
  induction fuel generalizing cs fields with
  | zero =>
    cases cs with
    | nil =>
      obtain rfl := Option.some.inj h
      cases hversion
    | cons c rest => cases h
  | succ fuel ih =>
    cases cs with
    | nil =>
      obtain rfl := Option.some.inj h
      cases hversion
    | cons c rest =>
      by_cases hc : c = '{'
      · subst hc
        obtain ⟨more, rfl, hmore⟩ := templateFields_brace h
        have htokens := fun f hf => hfields f (List.mem_cons_of_mem _ hf)
        by_cases hname : tokenName (String.ofList (rest.takeWhile (· ≠ '}'))) = "version"
        · rw [hname, List.count_cons_self] at hversion
          have hnone : "version" ∉ more := List.count_eq_zero.mp (by omega)
          obtain ⟨out, hout⟩ := formatTemplate_unversioned tier scope target purpose hmore
            htokens hnone
          refine ⟨[], out, ?_, fun w => ?_⟩
          · unfold nameAround
            simp only [if_true, hname, hout v]
            rfl
          · unfold formatTemplate
            rw [if_pos rfl, nameToken_version tier scope target purpose hname w, hout w]
            rfl
        · rw [List.count_cons_of_ne hname] at hversion
          obtain ⟨left, right, haround, hout⟩ := ih hmore htokens hversion
          obtain ⟨value, hvalue⟩ := nameToken_other tier scope target purpose
            (hfields _ mem_cons_self) hname
          refine ⟨value.toList ++ left, right, ?_, fun w => ?_⟩
          · unfold nameAround
            simp only [if_true, hname, if_false, hvalue v, haround]
            rfl
          · unfold formatTemplate
            rw [if_pos rfl, hvalue w, hout w]
            simp
      · obtain ⟨left, right, haround, hout⟩ :=
          ih (templateFields_literal hc h) hfields hversion
        refine ⟨c :: left, right, ?_, fun w => ?_⟩
        · unfold nameAround
          rw [if_neg hc, haround]
          rfl
        · unfold formatTemplate
          rw [if_neg hc, hout w]
          rfl

end

variable {unicode : Unicode}

theorem templateFields_of_valid {template : String} (h : validTemplate unicode template = true) :
    ∃ fields, templateFields template.toList.length template.toList = some fields ∧
      fields.Perm tokens := by
  simp only [validTemplate, Bool.and_eq_true] at h
  obtain ⟨⟨-, hfields⟩, -⟩ := h
  cases heq : templateFields template.toList.length template.toList with
  | none => rw [heq] at hfields; cases hfields
  | some fields =>
    rw [heq] at hfields
    simp only [Bool.and_eq_true, beq_iff_eq, all_eq_true, List.contains_iff_mem] at hfields
    have hnodup : tokens.Nodup := by decide
    refine ⟨fields, rfl, ?_⟩
    exact ((List.subperm_of_subset hnodup hfields.2).perm_of_length_le
      (Nat.le_of_eq hfields.1)).symm

/-! ## Occurrences of the marker -/

theorem infix_take_iff {n : Nat} :
    sep <:+: cs.take n ↔ (∃ k, k + sep.length ≤ n ∧ sep <+: cs.drop k) ∨ sep = [] := by
  constructor
  · rintro ⟨before, after, heq⟩
    by_cases hnil : sep = []
    · exact .inr hnil
    have hstart : sep <+: (cs.take n).drop before.length := by
      rw [← heq, append_assoc, drop_left]
      exact List.prefix_append sep after
    rw [drop_take, List.prefix_take_iff] at hstart
    have hpos := List.length_pos_of_ne_nil hnil
    exact .inl ⟨before.length, by omega, hstart.1⟩
  · rintro (⟨k, hroom, hstart⟩ | rfl)
    · have htake : sep <+: (cs.take n).drop k := by
        rw [drop_take, List.prefix_take_iff]
        exact ⟨hstart, by omega⟩
      exact htake.isInfix.trans (List.drop_suffix k _).isInfix
    · exact List.nil_infix

/-- The characters of the marker. -/
def marker : List Char := versionMarker.toList

theorem marker_ne_nil : marker ≠ [] := by decide

/-- The text around a version does not lead the search for the marker astray: the marker neither
starts before its place nor stands after it. -/
def MarkerAbsent (left right : List Char) : Prop :=
  ¬marker <:+: left ++ marker.dropLast ∧ ¬marker <:+: right

theorem firstAt_marker_iff {left right : List Char} :
    FirstAt marker left (left ++ marker ++ right) ↔ ¬marker <:+: left ++ marker.dropLast := by
  have hlength : marker.length = 16 ∧ marker.dropLast.length = 15 := by decide
  have htake : left ++ marker.dropLast = (left ++ marker ++ right).take (left.length + 15) := by
    rw [append_assoc, List.take_length_add_append,
      List.take_append_of_le_length (by omega), List.dropLast_eq_take, hlength.1]
  rw [htake, infix_take_iff]
  constructor
  · rintro hfirst (⟨k, hroom, hstart⟩ | hnil)
    · exact hfirst k (by omega) hstart
    · exact marker_ne_nil hnil
  · intro hnone k hk hstart
    exact hnone (.inl ⟨k, by omega, hstart⟩)

theorem recoverVersion_eq {left v right l r : List Char}
    (hlength : l.length + r.length = left.length + right.length) :
    recoverVersion (left ++ v ++ right) l r =
      String.ofList (((left ++ v ++ right).drop l.length).take v.length) := by
  have htotal : (left ++ v ++ right).length = left.length + v.length + right.length := by
    simp only [length_append]
  unfold recoverVersion
  simp only [htotal]
  rw [if_pos (by omega), drop_take]
  congr 2
  omega

/-- The version is found again exactly where the text around it does not hold the marker.  A marker
found too early starts the version with its underscore. -/
theorem recover_iff {left v right : List Char} (hv : v ≠ []) (hunderscore : '_' ∉ v) :
    (∃ l r, aroundMarker (left ++ marker ++ right) = [l, r] ∧
      recoverVersion (left ++ v ++ right) l r = String.ofList v) ↔ MarkerAbsent left right := by
  unfold aroundMarker MarkerAbsent
  constructor
  · rintro ⟨l, r, hsplit, hrecover⟩
    obtain ⟨l', hl, hcs, hfirst, habsent⟩ :=
      (splitText_eq_pair (Nat.le_refl _) marker_ne_nil).mp hsplit
    rw [nil_append] at hl
    subst hl
    have hlengths := congrArg length hcs
    simp only [length_append] at hlengths
    have hle : l.length ≤ left.length := by
      by_contra hlate
      refine hfirst left.length (Nat.lt_of_not_le hlate) ?_
      rw [append_assoc, drop_left]
      exact List.prefix_append _ _
    rcases Nat.lt_or_eq_of_le hle with hlt | heq
    · -- The recovered text starts inside `left`, where the marker found too early starts.
      rw [recoverVersion_eq (by omega)] at hrecover
      have hchars := String.ofList_injective hrecover
      have hget : (left ++ marker ++ right)[l.length]? = some '_' := by
        rw [hcs, append_assoc, List.getElem?_append_right (Nat.le_refl _), Nat.sub_self]
        rfl
      rw [append_assoc, List.getElem?_append_left hlt] at hget
      have hpos := List.length_pos_of_ne_nil hv
      have hhead : v[0]? = some '_' := by
        rw [← hchars, List.getElem?_take_of_lt hpos, List.getElem?_drop, Nat.add_zero,
          append_assoc, List.getElem?_append_left hlt, hget]
      exact absurd (List.mem_of_getElem? hhead) hunderscore
    · obtain ⟨rfl, hrest⟩ := List.append_inj (by simpa using hcs) heq.symm
      obtain rfl := List.append_cancel_left hrest
      exact ⟨firstAt_marker_iff.mp hfirst, habsent⟩
  · rintro ⟨hleft, hright⟩
    refine ⟨left, right, (splitText_eq_pair (Nat.le_refl _) marker_ne_nil).mpr
      ⟨left, rfl, rfl, firstAt_marker_iff.mpr hleft, hright⟩, ?_⟩
    rw [recoverVersion_eq rfl, append_assoc, drop_left, List.take_left]

/-! ## Recovered versions -/

theorem policyVersion_chars (hunderscore : unicode.decimal '_' = none) {version : String}
    (h : policyVersion unicode version = true) : version.toList ≠ [] ∧ '_' ∉ version.toList := by
  simp only [policyVersion, Bool.and_eq_true, beq_iff_eq, all_eq_true] at h
  obtain ⟨hthree, hparts⟩ := h
  constructor
  · intro hnil
    rw [hnil] at hthree
    cases hthree
  · intro hmem
    rcases mem_splitOn (x := '.') hmem with hdot | ⟨part, hpart, hchar⟩
    · exact absurd hdot (by decide)
    · have hnumber := hparts part hpart
      simp only [policyVersionPart, Bool.and_eq_true, all_eq_true] at hnumber
      have hdecimal := hnumber.2 '_' hchar
      rw [hunderscore] at hdecimal
      cases hdecimal

theorem renderName_eq_some {template tier scope target purpose version name : String}
    (h : renderName unicode template tier scope target purpose version = some name) :
    policyVersion unicode version = true ∧
      formatTemplate (nameToken tier scope target purpose version) template.toList.length
        template.toList = some name.toList := by
  unfold renderName at h
  split at h
  · cases h
  split at h
  · cases h
  rename_i hchecks
  rw [not_or, not_or, Bool.not_eq_false] at hchecks
  obtain ⟨text, htext, h⟩ := Option.bind_eq_some_iff.mp h
  split at h
  · cases h
  · obtain rfl := Option.some.inj h
    rw [String.toList_ofList]
    exact ⟨Bool.not_eq_false _ ▸ hchecks.2.1, htext⟩

theorem importedPolicy_version {content : Content} {db : Db} {job : GpoImportJob} {a : ManagedJob}
    {policy p : ManagedGpoPolicy} {name : List Char}
    (hmarked : (db.domains.get? job.domain).bind (fun config =>
      markedName content db a policy config.gpoNameTemplate) = some name)
    (h : importedPolicy content db job a policy = .ok p) :
    ∃ l r, aroundMarker name = [l, r] ∧ p.version = recoverVersion job.pilotDisplayName.toList l r := by
  unfold importedPolicy at h
  rw [hmarked] at h
  simp only at h
  split at h
  · next l r hsplit =>
      obtain rfl := Except.ok.inj h
      exact ⟨l, r, hsplit, rfl⟩
  · cases h

/-- The texts around the version in a policy's name hold no marker. -/
def VersionRecoverable (template tier scope target purpose : String) : Prop :=
  ∃ left right, nameAround (nameToken tier scope target purpose versionMarker)
    template.toList.length template.toList = some (left, right) ∧ MarkerAbsent left right

/-- An import records the version its name was rendered with exactly where the text around the
version holds no marker. -/
theorem importedPolicy_version_iff (content : Content) (db : Db) (job : GpoImportJob)
    (a : ManagedJob) (policy : ManagedGpoPolicy) (config : DomainSecuritySettings)
    (component : Component) (purpose version : String)
    (hunderscore : content.unicode.decimal '_' = none)
    (hconfig : db.domains.get? job.domain = some config)
    (htemplate : validTemplate content.unicode config.gpoNameTemplate = true)
    (hcomponent : content.components a.baselineId a.backupId = some component)
    (hpurpose : namePurpose content db a policy = some purpose)
    (hname : renderName content.unicode config.gpoNameTemplate (toString policy.tier)
      (if component.scope = .user then "U" else "C") policy.target purpose version =
        some job.pilotDisplayName) :
    (∃ p, importedPolicy content db job a policy = .ok p ∧ p.version = version) ↔
      VersionRecoverable config.gpoNameTemplate (toString policy.tier)
        (if component.scope = .user then "U" else "C") policy.target purpose := by
  obtain ⟨hversion, htext⟩ := renderName_eq_some hname
  obtain ⟨hne, hchars⟩ := policyVersion_chars hunderscore hversion
  obtain ⟨fields, hfields, hperm⟩ := templateFields_of_valid htemplate
  have hcount : fields.count "version" = 1 := by rw [hperm.count_eq]; decide
  obtain ⟨left, right, haround, hformat⟩ := formatTemplate_versioned (toString policy.tier)
    (if component.scope = .user then "U" else "C") policy.target purpose hfields
    (fun f hf => hperm.mem_iff.mp hf) hcount versionMarker
  have hdisplay : job.pilotDisplayName.toList = left ++ version.toList ++ right :=
    Option.some.inj (htext.symm.trans (hformat version))
  have hmarked : (db.domains.get? job.domain).bind (fun config =>
      markedName content db a policy config.gpoNameTemplate) = some (left ++ marker ++ right) := by
    rw [hconfig]
    unfold markedName
    simp only [Option.bind_some, hcomponent, hpurpose, Option.bind_eq_bind]
    exact hformat versionMarker
  have hrecover := @recover_iff left version.toList right hne hchars
  rw [String.ofList_toList, ← hdisplay] at hrecover
  have hcondition : VersionRecoverable config.gpoNameTemplate (toString policy.tier)
      (if component.scope = .user then "U" else "C") policy.target purpose ↔
        MarkerAbsent left right := by
    constructor
    · rintro ⟨left', right', haround', habsent⟩
      rw [haround] at haround'
      obtain ⟨rfl, rfl⟩ := Prod.mk.inj (Option.some.inj haround')
      exact habsent
    · intro habsent
      exact ⟨left, right, haround, habsent⟩
  rw [hcondition, ← hrecover]
  constructor
  · rintro ⟨p, hp, rfl⟩
    obtain ⟨l, r, hsplit, hrec⟩ := importedPolicy_version hmarked hp
    exact ⟨l, r, hsplit, hrec.symm⟩
  · rintro ⟨l, r, hsplit, hrec⟩
    unfold importedPolicy
    rw [hmarked]
    simp only [hsplit]
    exact ⟨_, rfl, hrec⟩

/-! ### A template that ends in the marker before its version -/

/-- A domain that names its policies by a template. -/
def namingDb (template : String) : Db :=
  { Db.empty with domains := .single { sampleConfig with gpoNameTemplate := template } }

/-- The import of the first version under a name. -/
def namingJob (name : String) : GpoImportJob where
  id := sampleDraft.jobId
  tenant := "t"
  domain := sampleDraft.scopeId
  enrollment := "e"
  system := "s"
  requestedBy := some 1
  policyRevision := 1
  fourEyesRequired := false
  authorizationRevision := 1
  domainGuid := sampleDraft.domainGuid
  requestSha256 := ""
  inputDigest := ""
  assignment := .managed sampleDraft
  pilotDisplayName := name
  pilotNameKey := asciiLower name
  status := .running
  requestedAt := 0
  expiresAt := 3600000000

/-- The policy of the import. -/
def namedPolicy : ManagedGpoPolicy := sampleManaged "new" "microsoft-windows-server-2025" "" none

/-- The component of the import. -/
def namedComponent : Component where
  artifactSha256 := "aaaaaaaaaaaaaaaaaaaaaaaaaaaaaaaaaaaaaaaaaaaaaaaaaaaaaaaaaaaaaaaa"
  scope := .machine
  files := []
  name := "MSFT Windows Server 2025 - Member Server"
  purpose := "Member"

def defaultTemplate : String := "{tier}-{scope}-{target}-{purpose}_V{version}"

/-- A template whose literal text before the version is the start of the marker. -/
def markedTemplate : String := "a__IPMS_VERSION{version}-{tier}-{scope}-{target}-{purpose}"

set_option maxRecDepth 20000 in
theorem importedPolicy_version_sample :
    (∃ p, importedPolicy sampleContent (namingDb defaultTemplate)
      (namingJob "1-C-Servers-MS-WS2025-Member_V1.0.0") sampleDraft namedPolicy = .ok p ∧
        p.version = "1.0.0") ↔
      VersionRecoverable defaultTemplate "1" "C" "Servers" "MS-WS2025-Member" :=
  importedPolicy_version_iff sampleContent (namingDb defaultTemplate)
    (namingJob "1-C-Servers-MS-WS2025-Member_V1.0.0") sampleDraft namedPolicy
    { sampleConfig with gpoNameTemplate := defaultTemplate } namedComponent "MS-WS2025-Member" "1.0.0"
    (by decide) (by decide) (by decide +kernel) rfl (by decide +kernel) (by decide +kernel)

set_option maxRecDepth 20000 in
/-- The template and the name are accepted, and the import records the marker's start as the
version. -/
theorem importedPolicy_misreads_version :
    validTemplate asciiUnicode markedTemplate = true ∧
      renderName asciiUnicode markedTemplate "1" "C" "Servers" "MS-WS2025-Member" "1.0.0" =
        some "a__IPMS_VERSION1.0.0-1-C-Servers-MS-WS2025-Member" ∧
      ∃ p, importedPolicy sampleContent (namingDb markedTemplate)
        (namingJob "a__IPMS_VERSION1.0.0-1-C-Servers-MS-WS2025-Member") sampleDraft namedPolicy =
          .ok p ∧ p.version = "__IPM" := by
  refine ⟨by decide +kernel, by decide +kernel, ?_⟩
  refine ⟨{ namedPolicy with
    originJob := some sampleDraft.jobId, stagedJob := some sampleDraft.jobId, state := .prepared
    displayName := "a__IPMS_VERSION1.0.0-1-C-Servers-MS-WS2025-Member"
    nameKey := asciiLower "a__IPMS_VERSION1.0.0-1-C-Servers-MS-WS2025-Member"
    backupId := sampleDraft.backupId, version := "__IPM" }, ?_, rfl⟩
  decide +kernel

end Ipms.Server.Gpo
