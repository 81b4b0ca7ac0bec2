import Mathlib.Data.List.Nodup
import Ipms.Agent.Gpo.Text
import Ipms.Lib.Merge

/-
  Ipms.Agent.Gpo.Links

  The links of a policy in a forest: the text of the links of one container, the
  locations that several reads observe, merged into one map, and the census of
  the reported links against this map.
-/

namespace Ipms.Agent.Gpo.Links

open Ipms.Lib Ipms.ManagementJson

/-- The failure of every check here. -/
def preflightRequired : Exn := operationError "gpo_preflight_required"

/-! ## The links of a container -/

/-- `lower` of a byte. -/
def lowerByte (b : UInt8) : UInt8 := if 0x41 ≤ b ∧ b ≤ 0x5a then b + 0x20 else b

def lower (s : Bytes) : Bytes := s.map lowerByte

/-- `"ldap://"`. -/
def ldap : Bytes := [0x6c, 0x64, 0x61, 0x70, 0x3a, 0x2f, 0x2f]

/-- `rfind`: the index of the last byte that is `b`. -/
def rfind (b : UInt8) (s : Bytes) : Option Nat :=
  (s.reverse.findIdx? (· = b)).map (s.length - 1 - ·)

/-- The name, in lower case, and the flags of the text between two brackets. -/
def readSegment (segment : Bytes) : Except Exn (Bytes × UInt32) :=
  match rfind 0x3b segment with
  | none => .error preflightRequired
  | some delimiter =>
    let digit := segment.getD (delimiter + 1) 0
    if delimiter + 2 ≠ segment.length ∨ digit < 0x30 ∨ 0x33 < digit then .error preflightRequired
    else
      let path := lower (segment.take delimiter)
      if ¬ldap <+: path ∨ path.length ≤ 7 then .error preflightRequired
      else .ok (path.drop 7, (digit - 0x30).toUInt32)

/-- The loop of `matching_gpo_link` on what is left of the text. -/
def scan (policyDn : Bytes) : Bytes → Nat → Option UInt32 → Except Exn (Option UInt32)
  | [], _, found => .ok found
  | first :: rest, count, found =>
    if first ≠ 0x5b ∨ count + 1 > 128 then .error preflightRequired
    else
      match rest.findIdx? (· = 0x5d) with
      | none => .error preflightRequired
      | some stop => do
        let (name, flags) ← readSegment (rest.take stop)
        if name = lower policyDn then
          throwIf (found ≠ none) preflightRequired
          scan policyDn (rest.drop (stop + 1)) (count + 1) (some flags)
        else scan policyDn (rest.drop (stop + 1)) (count + 1) found
termination_by links => links.length
decreasing_by
  all_goals
    rw [List.length_drop, List.length_cons]
    omega

def matchingGpoLink (links policyDn : Bytes) : Except Exn (Option UInt32) := do
  throwIf (links.length > 65536) preflightRequired
  scan policyDn links 0 none

/-! ## Locations -/

/-- The locations of a policy, with the flags of its link at each. -/
abbrev Locations := Std.ExtTreeMap Bytes UInt32

def mergeForestLinkLocations : Locations → Locations → Except Exn Locations :=
  mergeMap 128 preflightRequired

/-- What a link reports of its location. -/
structure Reported where
  location : Bytes
  enabled : Bool
  enforced : Bool
  deriving DecidableEq

/-- The members of a reported link. -/
def report (link : Value) : Except Exn Reported := do
  let dn ← (← link.at! "dn").asStr
  let enabled ← (← link.at! "enabled").asBool
  let enforced ← (← link.at! "enforced").asBool
  return ⟨lower (utf8 dn), enabled, enforced⟩

/-- The loop of `verify_forest_link_census`. -/
def census (complete : Locations) : List Value → List Bytes → Except Exn Unit
  | [], _ => .ok ()
  | link :: rest, seen => do
    let location := lower (utf8 (← (← link.at! "dn").asStr))
    match complete[location]? with
    | none => .error preflightRequired
    | some flags =>
      throwIf (location ∈ seen) preflightRequired
      throwIf ((← (← link.at! "enabled").asBool) ≠ (flags &&& 1 == 0)) preflightRequired
      throwIf ((← (← link.at! "enforced").asBool) ≠ (flags &&& 2 != 0)) preflightRequired
      census complete rest (location :: seen)

def verifyForestLinkCensus (observed : List Value) (complete : Locations) : Except Exn Unit := do
  throwIf (observed.length ≠ complete.size ∨ observed.length > 128) preflightRequired
  census complete observed []

/-! ## Items -/

/-- One item of the text. -/
structure Item where
  scheme : Bytes
  dn : Bytes
  digit : UInt8
  scheme_eq : lower scheme = ldap
  dn_ne : dn ≠ []
  dn_free : 0x5d ∉ dn
  digit_mem : 0x30 ≤ digit ∧ digit ≤ 0x33

/-- The text between the brackets of an item. -/
def Item.segment (item : Item) : Bytes := item.scheme ++ item.dn ++ [0x3b, item.digit]

/-- The text of an item. -/
def Item.render (item : Item) : Bytes := 0x5b :: item.segment ++ [0x5d]

def Item.flags (item : Item) : UInt32 := (item.digit - 0x30).toUInt32

/-- The flags of the items with the name of the policy. -/
def matching (policyDn : Bytes) (items : List Item) : List UInt32 :=
  (items.filter fun item => lower item.dn = lower policyDn).map Item.flags

theorem lower_append (s t : Bytes) : lower (s ++ t) = lower s ++ lower t := List.map_append

theorem length_lower (s : Bytes) : (lower s).length = s.length := List.length_map _

/-- The last delimiter stands before the last byte. -/
theorem rfind_last {b : UInt8} {s : Bytes} {i : Nat} :
    rfind b s = some i ∧ i + 2 = s.length ↔
      ∃ path d, s = path ++ [b, d] ∧ d ≠ b ∧ i = path.length := by
  unfold rfind
  constructor
  · rintro ⟨hfind, hlast⟩
    obtain ⟨j, hj, hi⟩ := Option.map_eq_some_iff.mp hfind
    obtain ⟨hlength, hb, hbefore⟩ := List.findIdx?_eq_some_iff_getElem.mp hj
    have hfirst := hbefore 0
    obtain rfl : j = 1 := by
      rw [List.length_reverse] at hlength
      omega
    cases hs : s.reverse with
    | nil =>
      rw [hs] at hlength
      exact absurd hlength (by decide)
    | cons d before =>
      cases before with
      | nil =>
        rw [hs] at hlength
        exact absurd hlength (Nat.lt_irrefl 1)
      | cons c before =>
        simp only [hs, List.getElem_cons_succ, List.getElem_cons_zero,
          decide_eq_true_eq] at hb hfirst
        have hsplit : s = before.reverse ++ [c, d] := by
          rw [← List.reverse_reverse s, hs, List.reverse_cons, List.reverse_cons, List.append_assoc]
          rfl
        refine ⟨before.reverse, d, by rw [hsplit, hb], hfirst Nat.one_pos, ?_⟩
        rw [hsplit, List.length_append, List.length_cons, List.length_singleton] at hlast
        omega
  · rintro ⟨path, d, rfl, hd, rfl⟩
    simp [List.findIdx?_cons, hd]

theorem getD_last (path : Bytes) (b d : UInt8) : (path ++ [b, d]).getD (path.length + 1) 0 = d := by
  simp

theorem readSegment_eq_ok {segment name : Bytes} {flags : UInt32} :
    readSegment segment = .ok (name, flags) ↔
      ∃ (scheme dn : Bytes) (digit : UInt8), lower scheme = ldap ∧ dn ≠ [] ∧
        (0x30 ≤ digit ∧ digit ≤ 0x33) ∧ segment = scheme ++ dn ++ [0x3b, digit] ∧
          name = lower dn ∧ flags = (digit - 0x30).toUInt32 := by
  unfold readSegment
  constructor
  · intro h
    split at h
    · cases h
    rename_i delimiter hfind
    dsimp only at h
    split at h
    · cases h
    rename_i hchecks
    split at h
    · cases h
    rename_i hpath
    cases h
    simp only [not_or, not_not, UInt8.not_lt] at hchecks hpath
    obtain ⟨path, d, rfl, hd, rfl⟩ := rfind_last.mp ⟨hfind, hchecks.1⟩
    rw [getD_last] at hchecks ⊢
    rw [List.take_left' rfl] at hpath ⊢
    obtain ⟨⟨rest, hrest⟩, hlong⟩ := hpath
    rw [length_lower, Nat.not_le] at hlong
    refine ⟨path.take 7, path.drop 7, d, ?_, ?_, hchecks.2, ?_, ?_, rfl⟩
    · rw [lower, List.map_take, ← lower, ← hrest]
      rfl
    · rw [ne_eq, List.drop_eq_nil_iff]
      omega
    · rw [List.take_append_drop]
    · rw [lower, lower, List.map_drop]
  · rintro ⟨scheme, dn, digit, hscheme, hdn, hdigit, rfl, rfl, rfl⟩
    have hne : digit ≠ 0x3b := by
      rintro rfl
      exact absurd hdigit.2 (by decide)
    obtain ⟨hfind, hlast⟩ := rfind_last.mpr ⟨scheme ++ dn, digit, rfl, hne, rfl⟩
    have hlong : (lower scheme).length = 7 := by
      rw [hscheme]
      rfl
    have hpos := List.length_pos_of_ne_nil hdn
    rw [hfind]
    dsimp only
    rw [getD_last, if_neg (by simp only [not_or, not_not, UInt8.not_lt]; exact ⟨hlast, hdigit⟩),
      List.take_left' rfl, lower_append, if_neg, hscheme]
    · rfl
    · rw [not_or, not_not, List.length_append, hlong, length_lower, hscheme]
      exact ⟨List.prefix_append _ _, by omega⟩

/-! ## The scanner -/

theorem findIdx?_segment (item : Item) (rest : Bytes) :
    (item.segment ++ 0x5d :: rest).findIdx? (· = 0x5d) = some item.segment.length := by
  have hfree : ∀ b ∈ item.segment, ¬b = 0x5d := by
    rintro _ hb rfl
    simp only [Item.segment, List.mem_append, List.mem_cons, List.not_mem_nil, or_false] at hb
    rcases hb with (hscheme | hdn) | hb | hdigit
    · have hmem : lowerByte 0x5d ∈ ldap := item.scheme_eq ▸ List.mem_map_of_mem hscheme
      exact absurd hmem (by decide)
    · exact item.dn_free hdn
    · exact absurd hb (by decide)
    · have hle := item.digit_mem.2
      rw [← hdigit] at hle
      exact absurd hle (by decide)
  rw [List.findIdx?_append, List.findIdx?_eq_none_iff.mpr (by simpa using hfree), Option.none_or,
    List.findIdx?_cons]
  simp

variable {policyDn : Bytes} {found : Option UInt32} {count : Nat}

theorem scan_render {rest : Bytes} {item : Item} (hcount : count < 128) :
    scan policyDn (item.render ++ rest) count found =
      if lower item.dn = lower policyDn then do
        throwIf (found ≠ none) preflightRequired
        scan policyDn rest (count + 1) (some item.flags)
      else scan policyDn rest (count + 1) found := by
  have htext : item.render ++ rest = 0x5b :: (item.segment ++ 0x5d :: rest) := by
    simp [Item.render]
  have hread : readSegment item.segment = .ok (lower item.dn, item.flags) :=
    readSegment_eq_ok.mpr ⟨item.scheme, item.dn, item.digit, item.scheme_eq, item.dn_ne,
      item.digit_mem, rfl, rfl, rfl⟩
  have hdrop : (item.segment ++ 0x5d :: rest).drop (item.segment.length + 1) = rest := by
    simp
  rw [htext, scan, if_neg (by simp only [ne_eq, not_true, false_or]; omega), findIdx?_segment]
  dsimp only
  rw [List.take_left' rfl, hread, hdrop]
  rfl

/-- The scanner reads the items of a text that has room for them, at most one of which is of the
policy. -/
theorem scan_items {policyDn : Bytes} {m : Option UInt32} : (items : List Item) → (count : Nat) →
    (found : Option UInt32) → count + items.length ≤ 128 →
    (scan policyDn (items.flatMap Item.render) count found = .ok m ↔
      found.toList ++ matching policyDn items = m.toList)
  | [], count, found, _ => by
    have hinj : found = m ↔ found.toList = m.toList := by
      cases found <;> cases m <;> simp
    rw [List.flatMap_nil, scan, Except.ok.injEq, matching, List.filter_nil, List.map_nil,
      List.append_nil, hinj]
  | item :: items, count, found, hcount => by
    rw [List.length_cons] at hcount
    rw [List.flatMap_cons, scan_render (by omega), matching, List.filter_cons]
    simp only [decide_eq_true_eq]
    split
    · rw [throwIf_bind, List.map_cons, ← matching]
      cases found with
      | none =>
        rw [if_neg (not_not.mpr rfl), scan_items items _ _ (by omega)]
        rfl
      | some flags =>
        rw [if_pos nofun]
        cases m <;> simp
    · exact scan_items items _ _ (by omega)

variable {m : Option UInt32} {links : Bytes}

/-- What the scanner accepts are items. -/
theorem items_of_scan (h : scan policyDn links count found = .ok m) (hcount : count ≤ 128) :
    ∃ items : List Item, count + items.length ≤ 128 ∧ links = items.flatMap Item.render := by
  fun_induction scan policyDn links count found with
  | case1 => exact ⟨[], hcount, rfl⟩
  | case2 | case3 => cases h
  | case4 first rest count found hfirst stop hstop ihMatch ihOther =>
    simp only [ne_eq, not_or, not_not, Nat.not_lt] at hfirst
    obtain ⟨⟨name, flags⟩, hread, h⟩ := bind_eq_ok.mp h
    obtain ⟨items, hitems, hrest⟩ : ∃ items : List Item,
        count + 1 + items.length ≤ 128 ∧ rest.drop (stop + 1) = items.flatMap Item.render := by
      dsimp only at h
      split at h
      · obtain ⟨_, -, h⟩ := bind_eq_ok.mp h
        exact ihMatch flags h hfirst.2
      · exact ihOther h hfirst.2
    obtain ⟨scheme, dn, digit, hscheme, hdn, hdigit, hsegment, -⟩ := readSegment_eq_ok.mp hread
    obtain ⟨hlength, hbracket, hbefore⟩ := List.findIdx?_eq_some_iff_getElem.mp hstop
    -- The segment ends before the first closing bracket.
    have hfree : 0x5d ∉ rest.take stop := by
      intro hmem
      obtain ⟨j, hj, hget⟩ := List.mem_iff_getElem.mp hmem
      rw [List.length_take] at hj
      rw [List.getElem_take] at hget
      exact hbefore j (by omega) (decide_eq_true hget)
    have hsplit : rest = rest.take stop ++ 0x5d :: rest.drop (stop + 1) := by
      conv_lhs => rw [← List.take_append_drop stop rest, List.drop_eq_getElem_cons hlength,
        of_decide_eq_true hbracket]
    rw [hsegment] at hsplit hfree
    have hdnfree : 0x5d ∉ dn := fun hmem =>
      hfree (List.mem_append_left _ (List.mem_append_right _ hmem))
    refine ⟨⟨scheme, dn, digit, hscheme, hdn, hdnfree, hdigit⟩ :: items, ?_, ?_⟩
    · rw [List.length_cons]
      omega
    · rw [hfirst.1, hsplit, hrest]
      simp [Item.render, Item.segment]

theorem matchingGpoLink_eq_ok : matchingGpoLink links policyDn = .ok m ↔ links.length ≤ 65536 ∧
      ∃ items : List Item, items.length ≤ 128 ∧ links = items.flatMap Item.render ∧
        matching policyDn items = m.toList := by
  have hlong : ¬links.length > 65536 ↔ links.length ≤ 65536 := Nat.not_lt
  unfold matchingGpoLink
  constructor
  · intro h
    obtain ⟨_, hlength, h⟩ := bind_eq_ok.mp h
    obtain ⟨items, hcount, rfl⟩ := items_of_scan h (Nat.zero_le _)
    refine ⟨hlong.mp (throwIf_eq_ok.mp hlength), items, by omega, rfl, ?_⟩
    exact (scan_items items 0 none hcount).mp h
  · rintro ⟨hlength, items, hcount, rfl, hmatching⟩
    rw [throwIf_bind, if_neg (hlong.mpr hlength)]
    exact (scan_items items 0 none (by omega)).mpr hmatching

/-! ## The census -/

/-- What a map says of the links at its locations. -/
def reports (complete : Locations) : List Reported :=
  complete.toList.map fun entry => ⟨entry.1, entry.2 &&& 1 == 0, entry.2 &&& 2 != 0⟩

variable {complete : Locations}

theorem mem_reports {link : Reported} : link ∈ reports complete ↔
    ∃ flags, complete[link.location]? = some flags ∧ link.enabled = (flags &&& 1 == 0) ∧
      link.enforced = (flags &&& 2 != 0) := by
  unfold reports
  rw [List.mem_map]
  constructor
  · rintro ⟨⟨location, flags⟩, hentry, rfl⟩
    exact ⟨flags, Std.ExtTreeMap.mem_toList_iff_getElem?_eq_some.mp hentry, rfl, rfl⟩
  · rintro ⟨flags, hflags, henabled, henforced⟩
    refine ⟨(link.location, flags), Std.ExtTreeMap.mem_toList_iff_getElem?_eq_some.mpr hflags, ?_⟩
    rw [← henabled, ← henforced]

/-- One turn of the census. -/
theorem census_cons {link : Value} {rest : List Value} {seen : List Bytes} :
    census complete (link :: rest) seen = .ok () ↔ ∃ reported, report link = .ok reported ∧
      reported.location ∉ seen ∧ reported ∈ reports complete ∧
        census complete rest (reported.location :: seen) = .ok () := by
  rw [census]
  constructor
  · intro h
    obtain ⟨dnValue, hdnValue, h⟩ := bind_eq_ok.mp h
    obtain ⟨dn, hdn, h⟩ := bind_eq_ok.mp h
    dsimp only at h
    split at h
    · cases h
    rename_i flags hflags
    obtain ⟨_, hseen, h⟩ := bind_eq_ok.mp h
    obtain ⟨enabledValue, henabledValue, h⟩ := bind_eq_ok.mp h
    obtain ⟨enabled, henabled, h⟩ := bind_eq_ok.mp h
    obtain ⟨_, hsameEnabled, h⟩ := bind_eq_ok.mp h
    obtain ⟨enforcedValue, henforcedValue, h⟩ := bind_eq_ok.mp h
    obtain ⟨enforced, henforced, h⟩ := bind_eq_ok.mp h
    obtain ⟨_, hsameEnforced, h⟩ := bind_eq_ok.mp h
    rw [throwIf_eq_ok] at hseen
    rw [throwIf_eq_ok, not_not] at hsameEnabled hsameEnforced
    refine ⟨⟨lower (utf8 dn), enabled, enforced⟩, ?_, hseen, mem_reports.mpr
      ⟨flags, hflags, hsameEnabled, hsameEnforced⟩, h⟩
    rw [report, hdnValue, ok_bind, hdn, ok_bind, henabledValue, ok_bind, henabled, ok_bind,
      henforcedValue, ok_bind, henforced]
    rfl
  · rintro ⟨reported, hreport, hseen, hmem, h⟩
    obtain ⟨flags, hflags, hsameEnabled, hsameEnforced⟩ := mem_reports.mp hmem
    obtain ⟨dnValue, hdnValue, hreport⟩ := bind_eq_ok.mp hreport
    obtain ⟨dn, hdn, hreport⟩ := bind_eq_ok.mp hreport
    obtain ⟨enabledValue, henabledValue, hreport⟩ := bind_eq_ok.mp hreport
    obtain ⟨enabled, henabled, hreport⟩ := bind_eq_ok.mp hreport
    obtain ⟨enforcedValue, henforcedValue, hreport⟩ := bind_eq_ok.mp hreport
    obtain ⟨enforced, henforced, hreport⟩ := bind_eq_ok.mp hreport
    cases hreport
    rw [hdnValue, ok_bind, hdn, ok_bind]
    dsimp only at hflags hseen hsameEnabled hsameEnforced h ⊢
    rw [hflags]
    dsimp only
    rw [throwIf_bind, if_neg hseen, henabledValue, ok_bind, henabled, ok_bind, throwIf_bind,
      if_neg (not_not.mpr hsameEnabled), henforcedValue, ok_bind, henforced, ok_bind, throwIf_bind,
      if_neg (not_not.mpr hsameEnforced)]
    exact h

variable {observed : List Value}

/-- The loop of the census accepts reports of locations not seen yet, each once and as in the
map. -/
theorem census_eq_ok : {seen : List Bytes} →
    (census complete observed seen = .ok () ↔ ∃ links, observed.mapM report = .ok links ∧
      (links.map Reported.location).Nodup ∧ ∀ link ∈ links, link.location ∉ seen ∧
        link ∈ reports complete) := by
  induction observed with
  | nil => exact ⟨fun _ => ⟨[], rfl, List.nodup_nil, nofun⟩, fun _ => rfl⟩
  | cons value observed ih =>
    intro seen
    rw [census_cons]
    constructor
    · rintro ⟨reported, hreport, hseen, hmem, hrest⟩
      obtain ⟨links, hlinks, hnodup, hall⟩ := ih.mp hrest
      refine ⟨reported :: links, mapM_eq_ok.mpr (.cons hreport (mapM_eq_ok.mp hlinks)), ?_,
        List.forall_mem_cons.mpr ⟨⟨hseen, hmem⟩, fun link hlink => ?_⟩⟩
      · rw [List.map_cons, List.nodup_cons, List.mem_map]
        refine ⟨?_, hnodup⟩
        rintro ⟨link, hlink, hsame⟩
        exact (hall link hlink).1 (hsame ▸ List.mem_cons_self)
      · obtain ⟨hnew, hreported⟩ := hall link hlink
        exact ⟨fun hold => hnew (List.mem_cons_of_mem _ hold), hreported⟩
    · rintro ⟨links, hlinks, hnodup, hall⟩
      cases mapM_eq_ok.mp hlinks with
      | @cons _ reported _ links hreport hrest =>
        rw [List.map_cons, List.nodup_cons, List.mem_map] at hnodup
        obtain ⟨⟨hseen, hmem⟩, hall⟩ := List.forall_mem_cons.mp hall
        refine ⟨reported, hreport, hseen, hmem, ih.mpr ⟨links, mapM_eq_ok.mpr hrest, hnodup.2,
          fun link hlink => ⟨?_, (hall link hlink).2⟩⟩⟩
        rw [List.mem_cons, not_or]
        exact ⟨fun hsame => hnodup.1 ⟨link, hlink, hsame⟩, (hall link hlink).1⟩

/-- The census accepts exactly the links that name each location of the map once, with its flags. -/
theorem verifyForestLinkCensus_eq_ok (hsize : complete.size ≤ 128) :
    verifyForestLinkCensus observed complete = .ok () ↔
      ∃ links, observed.mapM report = .ok links ∧ links.Perm (reports complete) := by
  have hkeys : ((reports complete).map Reported.location).Nodup := by
    have hfirst : (reports complete).map Reported.location = complete.keys := by
      rw [reports, List.map_map, ← Std.ExtTreeMap.map_fst_toList_eq_keys]
      rfl
    rw [hfirst]
    exact Std.ExtTreeMap.nodup_keys
  have hlength : (reports complete).length = complete.size := by
    rw [reports, List.length_map, Std.ExtTreeMap.length_toList]
  unfold verifyForestLinkCensus
  constructor
  · intro h
    obtain ⟨_, hcount, h⟩ := bind_eq_ok.mp h
    rw [throwIf_eq_ok, not_or, not_not] at hcount
    obtain ⟨links, hlinks, hnodup, hall⟩ := census_eq_ok.mp h
    have hsub := List.subperm_of_subset (List.Nodup.of_map _ hnodup) fun link hlink =>
      (hall link hlink).2
    have hsame : (reports complete).length = links.length := by
      rw [hlength, ← hcount.1, (mapM_eq_ok.mp hlinks).length_eq]
    exact ⟨links, hlinks, hsub.perm_of_length_le (Nat.le_of_eq hsame)⟩
  · rintro ⟨links, hlinks, hperm⟩
    have hcount : observed.length = complete.size := by
      rw [(mapM_eq_ok.mp hlinks).length_eq, hperm.length_eq, hlength]
    rw [throwIf_bind, if_neg (by omega)]
    exact census_eq_ok.mpr ⟨links, hlinks, (hperm.map _).nodup_iff.mpr hkeys,
      fun link hlink => ⟨nofun, hperm.mem_iff.mp hlink⟩⟩

/-- A text of links is read exactly when it is made of items, one of which at most names the policy.
Maps of locations merge into their union, in any order and however often they are repeated, unless
they disagree or hold too many; the census of the union accepts exactly the links that name each of
its locations once with its flags. -/
theorem forest_links :
    (∀ links policyDn m, matchingGpoLink links policyDn = .ok m ↔ links.length ≤ 65536 ∧
      ∃ items : List Item, items.length ≤ 128 ∧ links = items.flatMap Item.render ∧
        matching policyDn items = m.toList) ∧
    (∀ maps maps' : List Locations, (∀ m, m ∈ maps ↔ m ∈ maps') →
      maps.foldlM mergeForestLinkLocations ∅ = maps'.foldlM mergeForestLinkLocations ∅) ∧
    (∀ maps : List Locations, Disagree maps →
      maps.foldlM mergeForestLinkLocations ∅ = .error preflightRequired) ∧
    ∀ maps : List Locations, ¬Disagree maps → ∃ union, IsUnion maps union ∧
      (128 < union.size → maps.foldlM mergeForestLinkLocations ∅ = .error preflightRequired) ∧
      (union.size ≤ 128 → maps.foldlM mergeForestLinkLocations ∅ = .ok union ∧
        ∀ observed, verifyForestLinkCensus observed union = .ok () ↔
          ∃ links, observed.mapM report = .ok links ∧ links.Perm (reports union)) := by
  have hfails : ∀ maps : List Locations,
      (∀ union : Locations, ¬(IsUnion maps union ∧ union.size ≤ 128)) →
        mergeMaps 128 preflightRequired maps = .error preflightRequired := by
    intro maps hnone
    cases hmerge : mergeMaps 128 preflightRequired maps with
    | ok union => exact absurd (mergeMaps_eq_ok.mp hmerge) (hnone union)
    | error e => rw [mergeMaps_error e hmerge]
  refine ⟨fun _ _ _ => matchingGpoLink_eq_ok, fun _ _ h => mergeMaps_congr h, fun maps h => ?_,
    fun maps h => ?_⟩
  · exact hfails maps fun union hunion => not_disagree_of_union hunion.1 h
  · obtain ⟨union, hunion⟩ := exists_union h
    refine ⟨union, hunion, fun hlarge => hfails maps ?_, fun hsize =>
      ⟨mergeMaps_eq_ok.mpr ⟨hunion, hsize⟩, fun _ => verifyForestLinkCensus_eq_ok hsize⟩⟩
    rintro other ⟨hother, hsize⟩
    have hsame : other = union := Std.ExtTreeMap.ext_getElem? fun k =>
      Option.ext fun v => (hother k v).trans (hunion k v).symm
    rw [hsame] at hsize
    omega

/-- A scheme in small letters is accepted. -/
theorem small_scheme_accepted :
    matchingGpoLink (0x5b :: ldap ++ [0x78, 0x3b, 0x30, 0x5d]) [0x78] = .ok (some 0) := by
  have hitem := @scan_render [0x78] none 0 []
    ⟨ldap, [0x78], 0x30, by decide, by decide, by decide, by decide⟩ (by decide)
  rw [matchingGpoLink, throwIf_bind, if_neg (by decide)]
  refine hitem.trans ?_
  rw [if_pos rfl, throwIf_bind, if_neg (by decide), scan]
  rfl

end Ipms.Agent.Gpo.Links
