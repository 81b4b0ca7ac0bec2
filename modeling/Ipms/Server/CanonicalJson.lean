import Ipms.ManagementJson.Recognition
import Ipms.ManagementJson.Unambiguous
import Ipms.Server.Text

/-
  Ipms.Server.CanonicalJson

  The canonical JSON of a dictionary with its keys in any order, and its
  agreement with the agent's contract text: the same bytes, hence the same
  digest, and the agent's parser reads the same tree back.
-/

namespace Ipms.Server

open Ipms.ManagementJson Ipms.Crypto

/-- How `sort_keys` compares two items of a dictionary. -/
def keyLe (m n : String × Value) : Bool := !decide (n.1.toList < m.1.toList)

mutual
/-- The document with the items of every dictionary sorted by key. -/
def sortKeys : Value → Value
  | .arr items => .arr (sortKeysItems items)
  | .obj members => .obj ((sortKeysMembers members).mergeSort keyLe)
  | v => v
/-- `sortKeys` of each item of a list. -/
def sortKeysItems : List Value → List Value
  | [] => []
  | item :: rest => sortKeys item :: sortKeysItems rest
/-- `sortKeys` of the value of each item of a dictionary. -/
def sortKeysMembers : List (String × Value) → List (String × Value)
  | [] => []
  | (key, item) :: rest => (key, sortKeys item) :: sortKeysMembers rest
end

/-- `canonical` of a document as Python holds it. -/
def canonicalDocument (document : Value) : Bytes := canonical (sortKeys document)

/-- `digest` of a document as Python holds it. -/
def digestDocument (document : Value) : String := digest (sortKeys document)

/-! ## Both sides put the members in the same order -/

theorem keyLe_trans (a b c : String × Value) (hab : keyLe a b = true) (hbc : keyLe b c = true) :
    keyLe a c = true := by
  simp only [keyLe, Bool.not_eq_true', decide_eq_false_iff_not] at hab hbc ⊢
  exact List.not_lt.mpr (List.le_trans (List.not_lt.mp hab) (List.not_lt.mp hbc))

theorem keyLe_total (a b : String × Value) : (keyLe a b || keyLe b a) = true := by
  simp only [keyLe, Bool.or_eq_true, Bool.not_eq_true', decide_eq_false_iff_not]
  rcases List.le_total a.1.toList b.1.toList with h | h
  · exact Or.inl (List.not_lt.mpr h)
  · exact Or.inr (List.not_lt.mpr h)

theorem mergeSort_keyLt {members : List (String × Value)} (hnodup : (members.map (·.1)).Nodup) :
    (members.mergeSort keyLe).Pairwise KeyLt := by
  have hsorted := List.pairwise_mergeSort keyLe_trans keyLe_total members
  have hperm : (members.mergeSort keyLe).Perm members := List.mergeSort_perm members keyLe
  have hdistinct : ((members.mergeSort keyLe).map (·.1)).Nodup := (hperm.map (·.1)).nodup_iff.mpr hnodup
  have hboth := hsorted.and (List.pairwise_map.mp hdistinct)
  refine hboth.imp ?_
  rintro a b ⟨hle, hne⟩
  simp only [keyLe, Bool.not_eq_true', decide_eq_false_iff_not] at hle
  rcases Std.lt_trichotomy a.1.toList b.1.toList with hlt | heq | hgt
  · exact utf8_lt_of_lt hlt
  · exact absurd (String.toList_inj.mp heq) hne
  · exact absurd hgt hle

mutual
/-- Sorting the keys in Python builds the agent's tree. -/
theorem sortKeys_eq_stdMap : (v : Value) → portable v = true → sortKeys v = stdMap v
  | .null, _ | .bool _, _ | .int _, _ | .str _, _ => rfl
  | .arr items, h => by
    simp only [portable] at h
    rw [sortKeys, stdMap, sortKeysItems_eq_stdMapItems items h]
  | .obj members, h => by
    simp only [portable, Bool.and_eq_true, decide_eq_true_eq] at h
    have hnodup : ((stdMapMembers members).map (·.1)).Nodup := by
      rw [stdMapMembers_keys]
      exact h.1
    obtain ⟨hperm, hsorted⟩ := insertAll_spec hnodup
    rw [sortKeys, stdMap, sortKeysMembers_eq_stdMapMembers members h.2]
    exact congrArg Value.obj (eq_of_sorted ((List.mergeSort_perm _ keyLe).trans hperm.symm)
      (mergeSort_keyLt hnodup) hsorted)
theorem sortKeysItems_eq_stdMapItems : (items : List Value) → portableItems items = true →
    sortKeysItems items = stdMapItems items
  | [], _ => rfl
  | item :: rest, h => by
    simp only [portableItems, Bool.and_eq_true] at h
    rw [sortKeysItems, stdMapItems, sortKeys_eq_stdMap item h.1,
      sortKeysItems_eq_stdMapItems rest h.2]
theorem sortKeysMembers_eq_stdMapMembers : (members : List (String × Value)) →
    portableMembers members = true → sortKeysMembers members = stdMapMembers members
  | [], _ => rfl
  | (key, item) :: rest, h => by
    simp only [portableMembers, Bool.and_eq_true] at h
    rw [sortKeysMembers, stdMapMembers, sortKeys_eq_stdMap item h.1,
      sortKeysMembers_eq_stdMapMembers rest h.2]
end

/-- For every document both sides can hold and every bounds it fits: the agent's serializer writes
the canonical bytes, its parser reads them back as the same tree, and the digests agree. -/
theorem canonicalDocument_agrees (document : Value) (bounds : Limits)
    (hdocument : portable document = true) (hfits : fits (stdMap document) bounds = true) :
    serialize (stdMap document) bounds = .ok (canonicalDocument document) ∧
      parse (canonicalDocument document) bounds = .ok (stdMap document) ∧
      (serialize (stdMap document) bounds).map sha256 = .ok (digestDocument document) := by
  have hbytes : canonicalDocument document = render (stdMap document) := by
    rw [canonicalDocument, canonical_eq_render, sortKeys_eq_stdMap document hdocument]
  have hserialize : serialize (stdMap document) bounds = .ok (canonicalDocument document) := by
    rw [serialize_eq, if_pos hfits, hbytes]
  refine ⟨hserialize, ?_, ?_⟩
  · rw [hbytes]
    exact parse_render _ bounds (stdMap_wellFormed document hdocument) hfits
  · rw [hserialize]
    rfl

/-- A document with its keys out of order, a key beyond ASCII and a control character. -/
def sampleDocument : Value :=
  .obj [("ü", .arr [.null, .bool true, .int (-7)]), ("b", .str "\t\u0001\""), ("a", .obj [])]

theorem canonicalDocument_agrees_sample :
    parse (canonicalDocument sampleDocument) {} = .ok (stdMap sampleDocument) :=
  (canonicalDocument_agrees sampleDocument {} (by decide +kernel) (by decide +kernel)).2.1

/-! ## The canonical bytes tell documents apart -/

/-- Two documents that differ in the order of dictionary items at most. -/
inductive SameDocument : Value → Value → Prop
  | refl (v : Value) : SameDocument v v
  | symm {a b : Value} (h : SameDocument a b) : SameDocument b a
  | trans {a b c : Value} (h : SameDocument a b) (h' : SameDocument b c) : SameDocument a c
  | item (before after : List Value) {a b : Value} (h : SameDocument a b) :
      SameDocument (.arr (before ++ a :: after)) (.arr (before ++ b :: after))
  | member (before after : List (String × Value)) (key : String) {a b : Value}
      (h : SameDocument a b) :
      SameDocument (.obj (before ++ (key, a) :: after)) (.obj (before ++ (key, b) :: after))
  | reorder {members members' : List (String × Value)} (h : members.Perm members') :
      SameDocument (.obj members) (.obj members')

theorem portableItems_eq (items : List Value) : portableItems items = items.all portable := by
  induction items with
  | nil => rfl
  | cons item rest ih => rw [portableItems, List.all_cons, ih]

theorem portableMembers_eq (members : List (String × Value)) :
    portableMembers members = members.all fun m => portable m.2 := by
  induction members with
  | nil => rfl
  | cons m rest ih => rw [portableMembers, List.all_cons, ih]

theorem sortKeysItems_eq (items : List Value) : sortKeysItems items = items.map sortKeys := by
  induction items with
  | nil => rfl
  | cons item rest ih => rw [sortKeysItems, List.map_cons, ih]

theorem sortKeysMembers_eq (members : List (String × Value)) :
    sortKeysMembers members = members.map fun m => (m.1, sortKeys m.2) := by
  induction members with
  | nil => rfl
  | cons m rest ih => rw [sortKeysMembers, List.map_cons, ih]

/-- Sorting forgets the order of items that have different keys. -/
theorem SameDocument.sorted {a b : Value} (h : SameDocument a b) :
    portable a = portable b ∧ (portable a = true → sortKeys a = sortKeys b) := by
  induction h with
  | refl => exact ⟨rfl, fun _ => rfl⟩
  | symm _ ih => exact ⟨ih.1.symm, fun hb => (ih.2 (ih.1.trans hb)).symm⟩
  | trans _ _ ih ih' =>
    exact ⟨ih.1.trans ih'.1, fun ha => (ih.2 ha).trans (ih'.2 (ih.1.symm.trans ha))⟩
  | item before after _ ih =>
    simp only [portable, portableItems_eq, sortKeys, sortKeysItems_eq, List.map_append,
      List.map_cons, List.all_append, List.all_cons, Bool.and_eq_true]
    exact ⟨by rw [ih.1], fun ha => by rw [ih.2 ha.2.1]⟩
  | member before after key _ ih =>
    simp only [portable, portableMembers_eq, sortKeys, sortKeysMembers_eq, List.map_append,
      List.map_cons, List.all_append, List.all_cons, Bool.and_eq_true]
    exact ⟨by rw [ih.1], fun ha => by rw [ih.2 ha.2.2.1]⟩
  | @reorder members members' h =>
    simp only [portable, portableMembers_eq, sortKeys, sortKeysMembers_eq, Bool.and_eq_true,
      decide_eq_true_eq]
    refine ⟨?_, fun ha => congrArg Value.obj ?_⟩
    · rw [decide_eq_decide.mpr (h.map (·.1)).nodup_iff, h.all_eq]
    · -- both are the items in the strict order of their keys
      have hperm := h.map fun m : String × Value => (m.1, sortKeys m.2)
      have hnodup : ((members.map fun m => (m.1, sortKeys m.2)).map (·.1)).Nodup := by
        rw [List.map_map]
        exact ha.1
      exact eq_of_sorted ((List.mergeSort_perm _ keyLe).trans
        (hperm.trans (List.mergeSort_perm _ keyLe).symm)) (mergeSort_keyLt hnodup)
        (mergeSort_keyLt ((hperm.map (·.1)).nodup_iff.mp hnodup))

mutual
theorem sameDocument_sortKeys : (v : Value) → SameDocument v (sortKeys v)
  | .null | .bool _ | .int _ | .str _ => .refl _
  | .arr items => sameDocument_items [] items
  | .obj members =>
    (sameDocument_members [] members).trans (.reorder (List.mergeSort_perm _ keyLe).symm)
theorem sameDocument_items (before : List Value) : (items : List Value) →
    SameDocument (.arr (before ++ items)) (.arr (before ++ sortKeysItems items))
  | [] => .refl _
  | item :: rest => by
    have hitem := SameDocument.item before rest (sameDocument_sortKeys item)
    have hrest := sameDocument_items (before ++ [sortKeys item]) rest
    rw [List.append_assoc, List.append_assoc] at hrest
    exact hitem.trans hrest
theorem sameDocument_members (before : List (String × Value)) :
    (members : List (String × Value)) →
    SameDocument (.obj (before ++ members)) (.obj (before ++ sortKeysMembers members))
  | [] => .refl _
  | (key, item) :: rest => by
    have hitem := SameDocument.member before rest key (sameDocument_sortKeys item)
    have hrest := sameDocument_members (before ++ [(key, sortKeys item)]) rest
    rw [List.append_assoc, List.append_assoc] at hrest
    exact hitem.trans hrest
end

/-- Two documents have the same canonical bytes exactly when they differ in the order of dictionary
items at most. -/
theorem canonicalDocument_eq_iff {a b : Value} (ha : portable a = true) :
    canonicalDocument a = canonicalDocument b ↔ SameDocument a b := by
  rw [canonicalDocument, canonicalDocument, canonical_eq_render, canonical_eq_render]
  constructor
  · intro h
    -- the text tells sorted documents apart, and sorting only reorders
    have hsorted := sameDocument_sortKeys a
    rw [render_injective h] at hsorted
    exact hsorted.trans (sameDocument_sortKeys b).symm
  · intro h
    rw [h.sorted.2 ha]

theorem canonicalDocument_eq_sample : canonicalDocument sampleDocument = canonicalDocument (.obj
    [("a", .obj []), ("b", .str "\t\u0001\""), ("ü", .arr [.null, .bool true, .int (-7)])]) :=
  (canonicalDocument_eq_iff (by decide +kernel)).mpr (.reorder (List.reverse_perm _).symm)

end Ipms.Server
