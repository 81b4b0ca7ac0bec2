import Ipms.ManagementJson.Size
import Ipms.Server.Gpo.ValidSnapshot

/-
  Ipms.Server.Gpo.Capacity

  How many links fit a reported state.  A link to a target of the job takes at
  least 128 bytes, so a state within its 16384 bytes has no container with 128
  of them: there is always room for one more.
-/

namespace Ipms.Server.Gpo

open Ipms.Lib Ipms.ManagementJson
open Ipms.Agent.Gpo (ManagedJob Operation Snapshot Ou Link LinkKind linksJson)

/-! ## Distinguished names -/

theorem length_splitRdns {cs raw : List Char} {rdns : List (List Char)}
    (h : splitRdns cs raw = some rdns) :
    (rdns.map fun r => r.length + 1).sum = raw.length + cs.length + 1 := by
  induction cs, raw using splitRdns.induct generalizing rdns with
  | case1 raw =>
    cases h
    simp
  | case2 raw => cases h
  | case3 raw c rest ih =>
    rw [splitRdns] at h
    rw [ih h]
    simp only [List.length_append, List.length_cons, List.length_nil]
    omega
  | case4 raw rest ih =>
    obtain ⟨tail, htail, rfl⟩ := Option.map_eq_some_iff.mp h
    rw [List.map_cons, List.sum_cons, ih htail]
    simp only [List.length_cons, List.length_nil]
    omega
  | case5 raw c rest hlone hescape hcomma ih =>
    rw [splitRdns] at h
    · rw [ih h]
      simp only [List.length_append, List.length_cons, List.length_nil]
      omega
    all_goals assumption

theorem length_decoded {unicode : Unicode} {rdns : List (List Char)}
    {decoded : List (Attribute × String)} (h : rdns.mapM (decodeComponent unicode) = some decoded) :
    2 * decoded.length ≤ (rdns.map fun r => r.length + 1).sum := by
  induction rdns generalizing decoded with
  | nil =>
    cases h
    exact Nat.zero_le _
  | cons r rdns ih =>
    rw [List.mapM_cons] at h
    obtain ⟨component, hr, h⟩ := Option.bind_eq_some_iff.mp h
    obtain ⟨rest, hrest, h⟩ := Option.bind_eq_some_iff.mp h
    obtain rfl := Option.some.inj h
    have hne : r ≠ [] := by
      rintro rfl
      cases hr
    have hpos := List.length_pos_of_ne_nil hne
    have htail := ih hrest
    rw [List.map_cons, List.sum_cons, List.length_cons]
    omega

theorem length_strip_le (cs : List Char) : (strip cs).length ≤ cs.length := by
  unfold strip
  rw [List.length_reverse]
  calc ((cs.dropWhile space).reverse.dropWhile space).length
      ≤ (cs.dropWhile space).reverse.length := (List.dropWhile_sublist _).length_le
    _ = (cs.dropWhile space).length := List.length_reverse
    _ ≤ cs.length := (List.dropWhile_sublist _).length_le

theorem length_ouIdentity {unicode : Unicode} {dn domain : String}
    {identity : List (Attribute × String)} (h : ouIdentity unicode dn domain = some identity) :
    2 * (domain.toList.splitOn '.').length + 1 ≤ dn.toList.length := by
  unfold ouIdentity at h
  split at h
  · cases h
  obtain ⟨rdns, hrdns, h⟩ := Option.bind_eq_some_iff.mp h
  obtain ⟨decoded, hdecoded, h⟩ := Option.bind_eq_some_iff.mp h
  have hlong : (domainSuffix domain).length < decoded.length := by
    by_contra hshort
    rw [if_neg (by simp), if_pos (.inl (Nat.not_lt.mp hshort))] at h
    cases h
  have hlabels : (domainSuffix domain).length = (domain.toList.splitOn '.').length :=
    List.length_map _
  have hsum := length_splitRdns hrdns
  have hcomponents := length_decoded hdecoded
  have hstrip := length_strip_le dn.toList
  rw [List.length_nil] at hsum
  omega

/-! ## Links -/

theorem domainName_eq_some {unicode : Unicode} {value name : String}
    (h : domainName unicode value = some name) :
    3 ≤ value.toList.length ∧ name = unicode.lower value ∧
      2 ≤ (name.toList.splitOn '.').length := by
  unfold domainName at h
  simp only at h
  split at h
  · next hchecks =>
      obtain rfl := Option.some.inj h
      exact ⟨hchecks.1, rfl, hchecks.2.2.1⟩
  · cases h

theorem length_render_link {l : Link} {n k : Nat} (hguid : l.guid.toList.length = 36)
    (hdomain : 3 ≤ l.domain.toList.length) (hdn : n ≤ l.dn.toList.length)
    (hkind : k ≤ l.kind.text.toList.length) : 121 + n + k ≤ (render l.toJson).length := by
  have hdn' := length_renderString l.dn
  have hdomain' := length_renderString l.domain
  have hguid' := length_renderString l.guid
  have hkind' := length_renderString l.kind.text
  have horder := length_toChars_pos l.order
  have hbool : ∀ b : Bool, 4 ≤ (render (.bool b)).length := by decide
  have henabled := hbool l.enabled
  have henforced := hbool l.enforced
  have hkeys : (renderString "dn").length = 4 ∧ (renderString "domain").length = 8 ∧
      (renderString "enabled").length = 9 ∧ (renderString "enforced").length = 10 ∧
      (renderString "guid").length = 6 ∧ (renderString "kind").length = 6 ∧
      (renderString "order").length = 7 := by decide
  obtain ⟨hkdn, hkdomain, hkenabled, hkenforced, hkguid, hkkind, hkorder⟩ := hkeys
  unfold Link.toJson
  rw [render]
  simp only [renderMembers, if_true, Bool.false_eq_true, if_false, List.nil_append,
    List.length_append, List.length_cons, List.length_nil, List.append_nil, hkdn, hkdomain,
    hkenabled, hkenforced, hkguid, hkkind, hkorder]
  rw [show render (.str l.dn) = renderString l.dn from rfl,
    show render (.str l.domain) = renderString l.domain from rfl,
    show render (.str l.guid) = renderString l.guid from rfl,
    show render (.str l.kind.text) = renderString l.kind.text from rfl,
    show render (.int l.order) = toChars l.order from rfl]
  omega

section
variable {content : Content} {a : ManagedJob} {o : Ou} {s : Snapshot}

theorem ValidOu.own_link (h : ValidOu content a o) {l : Link} (hl : l ∈ o.links) :
    validLink content l = true ∧ l.kind = linkKind content a ∧
      sameTarget content l.dn o.dn a = true ∧ l.domain = a.domainDnsName := by
  have hlinks := h.links
  have hown := h.own
  simp only [validLinks, Bool.and_eq_true, List.all_eq_true] at hlinks
  simp only [ownLinks, Bool.and_eq_true, List.all_eq_true, beq_iff_eq] at hown
  obtain ⟨⟨hkind, hsame⟩, hdomain⟩ := hown.1 l hl
  exact ⟨hlinks.1.2 l hl, hkind, hsame, hdomain⟩

theorem targetIdentity_of_sameTarget {left right : String}
    (h : sameTarget content left right a = true) :
    ∃ identity,
      targetIdentity content left a.domainDnsName (domainTarget content a) = some identity := by
  unfold sameTarget at h
  simp only at h
  split at h
  · next hleft _ => exact ⟨_, hleft⟩
  · cases h

theorem ValidOu.length_link (h : ValidOu content a o) {l : Link} (hl : l ∈ o.links) :
    128 ≤ (render l.toJson).length := by
  obtain ⟨hvalid, hkind, hsame, hdomain⟩ := h.own_link hl
  simp only [validLink, Bool.and_eq_true, bounded, beq_iff_eq, uuidText, Bool.false_or,
    bne_iff_ne] at hvalid
  obtain ⟨⟨⟨⟨⟨⟨hdn, -⟩, -⟩, -⟩, -⟩, hguid, -⟩, hname⟩ := hvalid
  obtain ⟨hlong, -, hlabels⟩ := domainName_eq_some hname
  cases hroot : domainTarget content a with
  | true =>
    have hnonempty : 1 ≤ l.dn.toList.length := by
      rw [Nat.one_le_iff_ne_zero]
      intro hzero
      exact hdn (String.toList_inj.mp (List.eq_nil_of_length_eq_zero hzero))
    have hdomainKind : 6 ≤ l.kind.text.toList.length := by
      rw [hkind, linkKind, hroot]
      decide
    exact length_render_link hguid hlong hnonempty hdomainKind
  | false =>
    obtain ⟨identity, hidentity⟩ := targetIdentity_of_sameTarget hsame
    rw [hroot] at hidentity
    have hunit := length_ouIdentity hidentity
    rw [← hdomain] at hunit
    have hfive : 5 ≤ l.dn.toList.length := by omega
    have hunitKind : 2 ≤ l.kind.text.toList.length := by
      rw [hkind, linkKind, hroot]
      decide
    exact length_render_link hguid hlong hfive hunitKind

theorem length_render_links (ho : o ∈ s.ous) :
    (render (linksJson o.links)).length ≤ (render s.toJson).length := by
  have hlinks : (render (linksJson o.links)).length ≤ (render o.toJson).length :=
    length_render_member (k := "links") (by simp)
  have hou : (render o.toJson).length ≤ (render (.arr (s.ous.map Ou.toJson))).length :=
    length_render_item (List.mem_map_of_mem ho)
  have hous : (render (.arr (s.ous.map Ou.toJson))).length ≤ (render s.toJson).length :=
    length_render_member (k := "ous") (by simp)
  exact hlinks.trans (hou.trans hous)

theorem ValidSnapshot.length_links {allow : Bool} (h : ValidSnapshot content a allow s)
    (ho : o ∈ s.ous) : o.links.length < 128 := by
  have hlinks : ∀ v ∈ o.links.map Link.toJson, 128 ≤ (render v).length := by
    intro v hv
    obtain ⟨l, hl, rfl⟩ := List.mem_map.mp hv
    exact (h.ous o ho).length_link hl
  have hlong := length_render_arr_ge hlinks
  have hwhole := length_render_links ho
  have hsize := h.size
  rw [canonical_eq_render] at hsize
  rw [List.length_map] at hlong
  unfold linksJson at hwhole
  omega

end

end Ipms.Server.Gpo
