import Mathlib.Data.List.Perm.Subperm
import Std.Data.ExtTreeMap.Lemmas
import Ipms.Lib.Throwing
import Ipms.Lib.Fallible

/-
  Ipms.Lib.Merge

  Maps that a loop merges into one, where equal entries are merged and two values
  of one key or too many entries fail.  The result is the union of the maps, so it
  depends on neither their order nor their repetition.
-/

namespace Ipms.Lib

variable {K V ε : Type} [Ord K] [Std.TransOrd K]

/-! ## Unions -/

/-- A map that holds what the maps of a list hold, and nothing else. -/
def IsUnion (maps : List (Std.ExtTreeMap K V)) (union : Std.ExtTreeMap K V) : Prop :=
  ∀ (k : K) (v : V), union[k]? = some v ↔ ∃ m ∈ maps, m[k]? = some v

/-- Two maps of a list have two values for one key. -/
def Disagree (maps : List (Std.ExtTreeMap K V)) : Prop :=
  ∃ m ∈ maps, ∃ m' ∈ maps, ∃ (k : K) (v w : V), m[k]? = some v ∧ m'[k]? = some w ∧ v ≠ w

variable {maps : List (Std.ExtTreeMap K V)}

/-- Maps that do not disagree have a union. -/
theorem exists_union (h : ¬Disagree maps) : ∃ union, IsUnion maps union := by
  induction maps with
  | nil => exact ⟨∅, fun k v => by simp⟩
  | cons m maps ih =>
    obtain ⟨rest, hrest⟩ := ih fun ⟨a, ha, b, hb, hab⟩ =>
      h ⟨a, List.mem_cons_of_mem m ha, b, List.mem_cons_of_mem m hb, hab⟩
    refine ⟨rest ∪ m, fun k v => ?_⟩
    rw [Std.ExtTreeMap.getElem?_union, List.exists_mem_cons_iff, ← hrest]
    cases hm : m[k]? with
    | none => simp
    | some w =>
      rw [Option.some_or]
      refine ⟨.inl, fun hv => hv.elim id fun hv => ?_⟩
      obtain ⟨b, hb, hbv⟩ := (hrest k v).mp hv
      by_contra hne
      exact h ⟨m, List.mem_cons_self, b, List.mem_cons_of_mem m hb, k, w, v, hm, hbv,
        fun hwv => hne (congrArg some hwv)⟩

/-- Maps that disagree have none. -/
theorem not_disagree_of_union {union : Std.ExtTreeMap K V} (h : IsUnion maps union) :
    ¬Disagree maps := by
  rintro ⟨m, hm, m', hm', k, v, w, hv, hw, hne⟩
  have hfirst := (h k v).mpr ⟨m, hm, hv⟩
  have hsecond := (h k w).mpr ⟨m', hm', hw⟩
  exact hne (Option.some.inj (hfirst.symm.trans hsecond))

/-! ## The loop -/

variable [DecidableEq V] {limit : Nat} {e : ε}

/-- One entry merged into a map. -/
def mergeEntry (limit : Nat) (e : ε) (complete : Std.ExtTreeMap K V) (entry : K × V) :
    Except ε (Std.ExtTreeMap K V) := do
  let existing := complete[entry.1]?
  let merged := complete.insertIfNew entry.1 entry.2
  throwIf (existing ≠ none ∧ existing ≠ some entry.2 ∨ merged.size > limit) e
  return merged

/-- The entries of a map merged into another. -/
def mergeMap (limit : Nat) (e : ε) (complete observed : Std.ExtTreeMap K V) :
    Except ε (Std.ExtTreeMap K V) := observed.toList.foldlM (mergeEntry limit e) complete

/-- Maps merged one after the other. -/
def mergeMaps (limit : Nat) (e : ε) (maps : List (Std.ExtTreeMap K V)) :
    Except ε (Std.ExtTreeMap K V) := maps.foldlM (mergeMap limit e) ∅

variable {t : Std.ExtTreeMap K V}

theorem mergeEntry_eq_ok {t' : Std.ExtTreeMap K V} {k : K} {v : V} :
    mergeEntry limit e t (k, v) = .ok t' ↔
      (∀ w, t[k]? = some w → w = v) ∧ t' = t.insertIfNew k v ∧ t'.size ≤ limit := by
  have hagree : ¬(t[k]? ≠ none ∧ t[k]? ≠ some v) ↔ ∀ w, t[k]? = some w → w = v := by
    cases t[k]? <;> simp
  unfold mergeEntry
  constructor
  · intro h
    obtain ⟨_, hchecks, h⟩ := bind_eq_ok.mp h
    cases h
    rw [throwIf_eq_ok, not_or, Nat.not_lt] at hchecks
    exact ⟨hagree.mp hchecks.1, rfl, hchecks.2⟩
  · rintro ⟨h, rfl, hsize⟩
    refine bind_eq_ok.mpr ⟨(), throwIf_eq_ok.mpr ?_, rfl⟩
    rw [not_or, Nat.not_lt]
    exact ⟨hagree.mpr h, hsize⟩

/-- Merging maps is merging all their entries. -/
theorem mergeMaps_eq (maps : List (Std.ExtTreeMap K V)) : mergeMaps limit e maps =
    (maps.flatMap Std.ExtTreeMap.toList).foldlM (mergeEntry limit e) ∅ := by
  unfold mergeMaps
  generalize (∅ : Std.ExtTreeMap K V) = t
  induction maps generalizing t with
  | nil => rfl
  | cons m maps ih =>
    rw [List.foldlM_cons, List.flatMap_cons, List.foldlM_append]
    exact congrArg _ (funext ih)

/-- A merge fails in one way. -/
theorem mergeMaps_error : OnlyFails (· = e) (mergeMaps limit e maps) := by
  rw [mergeMaps_eq]
  generalize maps.flatMap Std.ExtTreeMap.toList = entries
  generalize (∅ : Std.ExtTreeMap K V) = t
  induction entries generalizing t with
  | nil => exact OnlyFails.pure t
  | cons entry entries ih =>
    rw [List.foldlM_cons]
    have hentry : OnlyFails (· = e) (mergeEntry limit e t entry) :=
      (OnlyFails.throwIf (p := (· = e)) rfl).bind fun _ _ => OnlyFails.pure _
    exact hentry.bind fun t' _ => ih t'

/-! ## The result -/

variable [Std.LawfulEqOrd K]

omit [DecidableEq V] in
theorem getElem?_insertIfNew_iff {k a : K} {v w : V} (h : ∀ w, t[k]? = some w → w = v) :
    (t.insertIfNew k v)[a]? = some w ↔ t[a]? = some w ∨ a = k ∧ w = v := by
  rw [Std.ExtTreeMap.getElem?_insertIfNew]
  by_cases hnew : compare k a = .eq ∧ k ∉ t
  · obtain ⟨hsame, hk⟩ := hnew
    obtain rfl := Std.LawfulEqCmp.eq_of_compare hsame
    rw [if_pos ⟨hsame, hk⟩, Std.ExtTreeMap.getElem?_eq_none hk]
    simp [eq_comm]
  · rw [if_neg hnew]
    refine ⟨.inl, ?_⟩
    rintro (hw | ⟨rfl, rfl⟩)
    · exact hw
    · have hmem : a ∈ t := not_not.mp fun hmem =>
        hnew ⟨Std.ReflCmp.compare_self, hmem⟩
      rw [Std.ExtTreeMap.mem_iff_isSome_getElem?, Option.isSome_iff_exists] at hmem
      obtain ⟨w', hw'⟩ := hmem
      rw [hw', h w' hw']

omit [DecidableEq V] in
/-- A map that holds what another holds is no smaller. -/
theorem size_le_of_getElem? {t' : Std.ExtTreeMap K V}
    (h : ∀ (k : K) (v : V), t[k]? = some v → t'[k]? = some v) : t.size ≤ t'.size := by
  have hkeys : t.keys ⊆ t'.keys := by
    intro k hk
    rw [Std.ExtTreeMap.mem_keys, Std.ExtTreeMap.mem_iff_isSome_getElem?,
      Option.isSome_iff_exists] at hk ⊢
    exact hk.imp fun v hv => h k v hv
  have hle := (List.subperm_of_subset Std.ExtTreeMap.nodup_keys hkeys).length_le
  rwa [Std.ExtTreeMap.length_keys, Std.ExtTreeMap.length_keys] at hle

/-- The loop over entries ends with the entries it began with and those it has merged. -/
theorem foldlM_mergeEntry_eq_ok {entries : List (K × V)} :
    {t t' : Std.ExtTreeMap K V} → t.size ≤ limit →
      (entries.foldlM (mergeEntry limit e) t = .ok t' ↔
        (∀ (k : K) (v : V), t'[k]? = some v ↔ t[k]? = some v ∨ (k, v) ∈ entries) ∧
          t'.size ≤ limit) := by
  induction entries with
  | nil =>
    intro t t' hsize
    constructor
    · rintro ⟨⟩
      exact ⟨by simp, hsize⟩
    · rintro ⟨h, -⟩
      have hsame : t = t' := Std.ExtTreeMap.ext_getElem? fun k =>
        Option.ext fun v => by simpa using (h k v).symm
      rw [hsame]
      rfl
  | cons entry entries ih =>
    intro t t' hsize
    obtain ⟨k, v⟩ := entry
    rw [List.foldlM_cons, bind_eq_ok]
    constructor
    · rintro ⟨t₁, hentry, hrest⟩
      obtain ⟨hagree, rfl, hsize₁⟩ := mergeEntry_eq_ok.mp hentry
      obtain ⟨h, hsize'⟩ := (ih hsize₁).mp hrest
      refine ⟨fun a w => ?_, hsize'⟩
      rw [h, getElem?_insertIfNew_iff hagree, List.mem_cons, Prod.mk.injEq, or_assoc]
    · rintro ⟨h, hsize'⟩
      have hv := (h k v).mpr (.inr List.mem_cons_self)
      have hagree : ∀ w, t[k]? = some w → w = v := fun w hw =>
        Option.some.inj (((h k w).mpr (.inl hw)).symm.trans hv)
      have hpart : ∀ (a : K) (w : V), t'[a]? = some w ↔
          (t.insertIfNew k v)[a]? = some w ∨ (a, w) ∈ entries := by
        intro a w
        rw [h, getElem?_insertIfNew_iff hagree, List.mem_cons, Prod.mk.injEq, or_assoc]
      have hsize₁ : (t.insertIfNew k v).size ≤ limit :=
        Nat.le_trans (size_le_of_getElem? fun a w hw => (hpart a w).mpr (.inl hw)) hsize'
      exact ⟨_, mergeEntry_eq_ok.mpr ⟨hagree, rfl, hsize₁⟩, (ih hsize₁).mpr ⟨hpart, hsize'⟩⟩

/-- Maps are merged exactly into their union, where it is within the limit. -/
theorem mergeMaps_eq_ok {union : Std.ExtTreeMap K V} :
    mergeMaps limit e maps = .ok union ↔ IsUnion maps union ∧ union.size ≤ limit := by
  have hempty : (∅ : Std.ExtTreeMap K V).size ≤ limit := by
    rw [Std.ExtTreeMap.size_empty]
    exact Nat.zero_le limit
  rw [mergeMaps_eq, foldlM_mergeEntry_eq_ok hempty]
  simp [IsUnion, List.mem_flatMap, Std.ExtTreeMap.mem_toList_iff_getElem?_eq_some]

/-- Merging depends on neither the order nor the repetition of the maps. -/
theorem mergeMaps_congr {maps maps' : List (Std.ExtTreeMap K V compare)}
    (h : ∀ m, m ∈ maps ↔ m ∈ maps') :
    mergeMaps limit e maps = mergeMaps limit e maps' := by
  have hsame : ∀ union : Std.ExtTreeMap K V,
      mergeMaps limit e maps = .ok union ↔ mergeMaps limit e maps' = .ok union := by
    intro union
    rw [mergeMaps_eq_ok, mergeMaps_eq_ok]
    unfold IsUnion
    simp only [h]
  cases hfirst : mergeMaps limit e maps with
  | ok union => exact ((hsame union).mp hfirst).symm
  | error x =>
    cases hsecond : mergeMaps limit e maps' with
    | ok union => exact absurd (hfirst.symm.trans ((hsame union).mpr hsecond)) nofun
    | error y => rw [mergeMaps_error x hfirst, mergeMaps_error y hsecond]

end Ipms.Lib
