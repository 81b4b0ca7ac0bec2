import Ipms.ManagementJson.ParseText

/-
  Ipms.ManagementJson.KeyOrder

  The order of keys.  The agent's maps compare keys byte by byte, Python compares
  them by code points.  UTF-8 keeps the order of code points, so both sides put
  the members of an object in the same places.
-/

namespace Ipms.ManagementJson

open Ipms.Lib

/-! ## UTF-8 keeps the order of code points -/

theorem ofNat_lt_ofNat {k l : Nat} (hl : l < 256) (h : k < l) : UInt8.ofNat k < UInt8.ofNat l := by
  rw [UInt8.lt_iff_toNat_lt, UInt8.toNat_ofNat', UInt8.toNat_ofNat', Nat.mod_eq_of_lt hl,
    Nat.mod_eq_of_lt (Nat.lt_trans h hl)]
  exact h

theorem byte_lt {k l : Nat} (hl : l < 256) {xs ys : Bytes} (h : k < l ∨ k = l ∧ xs < ys) :
    UInt8.ofNat k :: xs < UInt8.ofNat l :: ys := by
  rw [List.cons_lt_cons_iff]
  rcases h with h | ⟨rfl, h⟩
  · exact Or.inl (ofNat_lt_ofNat hl h)
  · exact Or.inr ⟨rfl, h⟩

/-- The bytes of a smaller character come first, whatever follows. -/
theorem encode_lt {c d : Char} (h : c < d) (xs ys : Bytes) :
    String.utf8EncodeChar c ++ xs < String.utf8EncodeChar d ++ ys := by
  have hlt : c.val.toNat < d.val.toNat := UInt32.lt_iff_toNat_lt.mp h
  have hc : c.val.toNat < 0x110000 := by
    rcases c.valid with hv | ⟨_, hv⟩
    · exact Nat.lt_trans hv (by decide)
    · exact hv
  have hd : d.val.toNat < 0x110000 := by
    rcases d.valid with hv | ⟨_, hv⟩
    · exact Nat.lt_trans hv (by decide)
    · exact hv
  simp only [String.utf8EncodeChar]
  generalize c.val.toNat = v at hlt hc
  generalize d.val.toNat = w at hlt hd
  -- by the widths of the two encodings: a wider one starts with a greater byte
  by_cases h₁ : w ≤ 0x7f
  · rw [if_pos h₁, if_pos (by omega : v ≤ 0x7f)]
    exact byte_lt (by omega) (Or.inl hlt)
  rw [if_neg h₁]
  by_cases h₂ : w ≤ 0x7ff
  · rw [if_pos h₂]
    by_cases g₁ : v ≤ 0x7f
    · rw [if_pos g₁]
      exact byte_lt (by omega) (Or.inl (by omega))
    · rw [if_neg g₁, if_pos (by omega : v ≤ 0x7ff)]
      refine byte_lt (by omega) ?_
      by_cases e : v / 64 % 0x20 = w / 64 % 0x20
      · exact Or.inr ⟨by omega, byte_lt (by omega) (Or.inl (by omega))⟩
      · exact Or.inl (by omega)
  rw [if_neg h₂]
  by_cases h₃ : w ≤ 0xffff
  · rw [if_pos h₃]
    by_cases g₁ : v ≤ 0x7f
    · rw [if_pos g₁]
      exact byte_lt (by omega) (Or.inl (by omega))
    rw [if_neg g₁]
    by_cases g₂ : v ≤ 0x7ff
    · rw [if_pos g₂]
      exact byte_lt (by omega) (Or.inl (by omega))
    · rw [if_neg g₂, if_pos (by omega : v ≤ 0xffff)]
      refine byte_lt (by omega) ?_
      by_cases e : v / 4096 % 0x10 = w / 4096 % 0x10
      · refine Or.inr ⟨by omega, byte_lt (by omega) ?_⟩
        by_cases e' : v / 64 % 0x40 = w / 64 % 0x40
        · exact Or.inr ⟨by omega, byte_lt (by omega) (Or.inl (by omega))⟩
        · exact Or.inl (by omega)
      · exact Or.inl (by omega)
  rw [if_neg h₃]
  by_cases g₁ : v ≤ 0x7f
  · rw [if_pos g₁]
    exact byte_lt (by omega) (Or.inl (by omega))
  rw [if_neg g₁]
  by_cases g₂ : v ≤ 0x7ff
  · rw [if_pos g₂]
    exact byte_lt (by omega) (Or.inl (by omega))
  rw [if_neg g₂]
  by_cases g₃ : v ≤ 0xffff
  · rw [if_pos g₃]
    exact byte_lt (by omega) (Or.inl (by omega))
  · rw [if_neg g₃]
    refine byte_lt (by omega) ?_
    by_cases e : v / 262144 % 8 = w / 262144 % 8
    · refine Or.inr ⟨by omega, byte_lt (by omega) ?_⟩
      by_cases e' : v / 4096 % 0x40 = w / 4096 % 0x40
      · refine Or.inr ⟨by omega, byte_lt (by omega) ?_⟩
        by_cases e'' : v / 64 % 0x40 = w / 64 % 0x40
        · exact Or.inr ⟨by omega, byte_lt (by omega) (Or.inl (by omega))⟩
        · exact Or.inl (by omega)
      · exact Or.inl (by omega)
    · exact Or.inl (by omega)

theorem encode_ne_nil (c : Char) : ∃ first tail, String.utf8EncodeChar c = first :: tail := by
  cases h : String.utf8EncodeChar c with
  | nil =>
    have hlen := String.length_utf8EncodeChar c
    have hpos := Char.utf8Size_pos c
    rw [h, List.length_nil] at hlen
    omega
  | cons first tail => exact ⟨first, tail, rfl⟩

theorem utf8_lt_of_lt : {cs ds : List Char} → cs < ds →
    cs.flatMap String.utf8EncodeChar < ds.flatMap String.utf8EncodeChar
  | [], [], h => absurd h (List.lt_irrefl _)
  | [], d :: ds, _ => by
    obtain ⟨first, tail, henc⟩ := encode_ne_nil d
    rw [List.flatMap_nil, List.flatMap_cons, henc, List.cons_append]
    exact List.nil_lt_cons ..
  | _ :: _, [], h => absurd h (List.not_lt_nil _)
  | c :: cs, d :: ds, h => by
    rw [List.flatMap_cons, List.flatMap_cons]
    rcases List.cons_lt_cons_iff.mp h with hlt | ⟨rfl, hrest⟩
    · exact encode_lt hlt _ _
    · exact List.append_left_lt (utf8_lt_of_lt hrest)

theorem utf8_injective {a b : String} (h : utf8 a = utf8 b) : a = b := by
  rcases Std.lt_trichotomy a.toList b.toList with hlt | heq | hlt
  · exact absurd (utf8_lt_of_lt hlt) (by unfold utf8 at h; rw [h]; exact List.lt_irrefl _)
  · exact String.toList_inj.mp heq
  · exact absurd (utf8_lt_of_lt hlt) (by unfold utf8 at h; rw [h]; exact List.lt_irrefl _)

/-! ## Maps from unordered members -/

/-- The order of a map's members. -/
abbrev KeyLt (m n : String × Value) : Prop := utf8 m.1 < utf8 n.1

/-- A map filled with members one after another. -/
def insertAll (members : List (String × Value)) : List (String × Value) :=
  members.foldl (fun map m => insertMember m.1 m.2 map) []

mutual
/-- The agent's tree for a document whose objects list their members in any order. -/
def stdMap : Value → Value
  | .arr items => .arr (stdMapItems items)
  | .obj members => .obj (insertAll (stdMapMembers members))
  | v => v
/-- `stdMap` of each item of an array. -/
def stdMapItems : List Value → List Value
  | [] => []
  | item :: rest => stdMap item :: stdMapItems rest
/-- `stdMap` of each member of an object. -/
def stdMapMembers : List (String × Value) → List (String × Value)
  | [] => []
  | (key, item) :: rest => (key, stdMap item) :: stdMapMembers rest
end

mutual
/-- A document both sides can hold: 64-bit integers, and no key twice in an object. -/
def portable : Value → Bool
  | .int n => int64 n
  | .arr items => portableItems items
  | .obj members => decide (members.map (·.1)).Nodup && portableMembers members
  | _ => true
/-- `portable` for each item of an array. -/
def portableItems : List Value → Bool
  | [] => true
  | item :: rest => portable item && portableItems rest
/-- `portable` for each member of an object. -/
def portableMembers : List (String × Value) → Bool
  | [] => true
  | (_, item) :: rest => portable item && portableMembers rest
end

theorem insertMember_perm (key : String) (item : Value) : (members : List (String × Value)) →
    (insertMember key item members).Perm ((key, item) :: members)
  | [] => List.Perm.refl _
  | (k, v) :: rest => by
    rw [insertMember]
    by_cases h : utf8 key < utf8 k
    · rw [if_pos h]
    · rw [if_neg h]
      exact ((insertMember_perm key item rest).cons (k, v)).trans (List.Perm.swap ..)

theorem insertMember_sorted {key : String} {item : Value} : {members : List (String × Value)} →
    members.Pairwise KeyLt → key ∉ members.map (·.1) →
    (insertMember key item members).Pairwise KeyLt
  | [], _, _ => List.pairwise_singleton ..
  | (k, v) :: rest, hsorted, hnew => by
    obtain ⟨hfirst, hrest⟩ := List.pairwise_cons.mp hsorted
    rw [insertMember]
    by_cases h : utf8 key < utf8 k
    · rw [if_pos h, List.pairwise_cons]
      refine ⟨?_, hsorted⟩
      intro m hm
      rcases List.mem_cons.mp hm with rfl | hm
      · exact h
      · exact List.lt_trans h (hfirst m hm)
    · rw [if_neg h, List.pairwise_cons]
      have hne : utf8 k ≠ utf8 key := fun heq =>
        hnew (List.mem_cons.mpr (Or.inl (utf8_injective heq.symm)))
      have hk : utf8 k < utf8 key := by
        rcases Std.lt_trichotomy (utf8 k) (utf8 key) with hlt | heq | hlt
        · exact hlt
        · exact absurd heq hne
        · exact absurd hlt h
      refine ⟨?_, insertMember_sorted hrest fun hmem => hnew (List.mem_cons_of_mem _ hmem)⟩
      intro m hm
      rcases List.mem_cons.mp ((insertMember_perm key item rest).mem_iff.mp hm) with rfl | hm
      · exact hk
      · exact hfirst m hm

theorem insertAll_spec {members : List (String × Value)} (hnodup : (members.map (·.1)).Nodup) :
    (insertAll members).Perm members ∧ (insertAll members).Pairwise KeyLt := by
  suffices h : ∀ (rest map : List (String × Value)), map.Pairwise KeyLt →
      ((map ++ rest).map (·.1)).Nodup →
      (rest.foldl (fun map m => insertMember m.1 m.2 map) map).Perm (map ++ rest) ∧
        (rest.foldl (fun map m => insertMember m.1 m.2 map) map).Pairwise KeyLt by
    exact h members [] List.Pairwise.nil hnodup
  intro rest
  induction rest with
  | nil => exact fun map hmap _ => ⟨by rw [List.append_nil]; exact List.Perm.refl _, hmap⟩
  | cons m rest ih =>
    intro map hmap hnodup
    have hperm : (insertMember m.1 m.2 map ++ rest).Perm (map ++ m :: rest) :=
      ((insertMember_perm m.1 m.2 map).append_right rest).trans List.perm_middle.symm
    have hnew : m.1 ∉ map.map (·.1) := by
      intro hmem
      rw [List.map_append, List.map_cons, List.nodup_append] at hnodup
      exact hnodup.2.2 _ hmem _ List.mem_cons_self rfl
    obtain ⟨hall, hsorted⟩ := ih (insertMember m.1 m.2 map) (insertMember_sorted hmap hnew)
      ((hperm.map (·.1)).nodup_iff.mpr hnodup)
    exact ⟨hall.trans hperm, hsorted⟩

theorem eq_of_sorted {xs ys : List (String × Value)} (h : xs.Perm ys) (hx : xs.Pairwise KeyLt)
    (hy : ys.Pairwise KeyLt) : xs = ys :=
  h.eq_of_pairwise (fun _ _ _ _ hab hba => absurd hba (List.lt_asymm hab)) hx hy

theorem stdMapMembers_keys : (members : List (String × Value)) →
    (stdMapMembers members).map (·.1) = members.map (·.1)
  | [] => rfl
  | (key, item) :: rest => by
    rw [stdMapMembers, List.map_cons, List.map_cons, stdMapMembers_keys rest]

theorem wellFormedMembers_iff : (members : List (String × Value)) →
    (wellFormedMembers members = true ↔ ∀ m ∈ members, wellFormed m.2 = true)
  | [] => by simp [wellFormedMembers]
  | (key, item) :: rest => by
    simp [wellFormedMembers, wellFormedMembers_iff rest]

mutual
/-- The agent's tree for a portable document is well formed. -/
theorem stdMap_wellFormed : (v : Value) → portable v = true → wellFormed (stdMap v) = true
  | .null, _ => rfl
  | .bool _, _ => rfl
  | .int _, h => h
  | .str _, _ => rfl
  | .arr items, h => by
    simp only [portable] at h
    exact stdMapItems_wellFormed items h
  | .obj members, h => by
    simp only [portable, Bool.and_eq_true, decide_eq_true_eq] at h
    have hnodup : ((stdMapMembers members).map (·.1)).Nodup := by
      rw [stdMapMembers_keys]
      exact h.1
    obtain ⟨hperm, hsorted⟩ := insertAll_spec hnodup
    have hitems := (wellFormedMembers_iff _).mp (stdMapMembers_wellFormed members h.2)
    simp only [stdMap, wellFormed, Bool.and_eq_true, decide_eq_true_eq]
    refine ⟨List.pairwise_map.mpr hsorted, (wellFormedMembers_iff _).mpr fun m hm => ?_⟩
    exact hitems m (hperm.mem_iff.mp hm)
theorem stdMapItems_wellFormed : (items : List Value) → portableItems items = true →
    wellFormedItems (stdMapItems items) = true
  | [], _ => rfl
  | item :: rest, h => by
    simp only [portableItems, Bool.and_eq_true] at h
    simp only [stdMapItems, wellFormedItems, stdMap_wellFormed item h.1,
      stdMapItems_wellFormed rest h.2, Bool.and_self]
theorem stdMapMembers_wellFormed : (members : List (String × Value)) →
    portableMembers members = true → wellFormedMembers (stdMapMembers members) = true
  | [], _ => rfl
  | (key, item) :: rest, h => by
    simp only [portableMembers, Bool.and_eq_true] at h
    simp only [stdMapMembers, wellFormedMembers, stdMap_wellFormed item h.1,
      stdMapMembers_wellFormed rest h.2, Bool.and_self]
end

end Ipms.ManagementJson
