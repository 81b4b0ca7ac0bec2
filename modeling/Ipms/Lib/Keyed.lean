import Mathlib.Algebra.BigOperators.Group.List.Basic
import Ipms.Lib.Fallible
import Ipms.Lib.Lookup

/-
  Ipms.Lib.Keyed

  Dictionaries that a loop over a list fills: each element is merged with what
  stands under its key.  In the end what stands under a key is what the elements
  of that key alone fold to, and the loop fails when one of these folds does.
-/

namespace Ipms.Lib

variable {α β κ ε : Type} [DecidableEq κ]

/-! ## Insertion -/

/-- `dict[key] = item`: a key keeps its place. -/
def put (key : κ) (item : β) : List (κ × β) → List (κ × β)
  | [] => [(key, item)]
  | (k, b) :: rest => if k = key then (key, item) :: rest else (k, b) :: put key item rest

theorem lookup_put (key k : κ) (item : β) (entries : List (κ × β)) :
    (put key item entries).lookup k = if k = key then some item else entries.lookup k := by
  induction entries with
  | nil =>
    by_cases hk : k = key
    · subst hk
      rw [put, List.lookup_cons_self, if_pos rfl]
    · rw [put, List.lookup_cons, beq_false_of_ne hk, if_neg hk]
  | cons entry entries ih =>
    obtain ⟨k', b⟩ := entry
    rw [put]
    by_cases hk' : k' = key
    · subst hk'
      rw [if_pos rfl]
      by_cases hk : k = k'
      · subst hk
        rw [List.lookup_cons_self, if_pos rfl]
      · rw [List.lookup_cons, List.lookup_cons, beq_false_of_ne hk, if_neg hk]
    · rw [if_neg hk']
      by_cases hk : k = k'
      · subst hk
        rw [List.lookup_cons_self, List.lookup_cons_self, if_neg hk']
      · rw [List.lookup_cons, List.lookup_cons, beq_false_of_ne hk, ih]

variable {k : κ}

theorem mem_keys_put {key : κ} {item : β} {entries : List (κ × β)} :
    k ∈ (put key item entries).map (·.1) ↔ k = key ∨ k ∈ entries.map (·.1) := by
  rw [← key_mem_iff, ← key_mem_iff, lookup_put]
  by_cases hk : k = key <;> simp [hk]

theorem nodup_keys_put {key : κ} {item : β} {entries : List (κ × β)}
    (h : (entries.map (·.1)).Nodup) : ((put key item entries).map (·.1)).Nodup := by
  induction entries with
  | nil => exact List.nodup_singleton key
  | cons entry entries ih =>
    obtain ⟨k, b⟩ := entry
    rw [List.map_cons, List.nodup_cons] at h
    rw [put]
    by_cases hk : k = key
    · rw [if_pos hk, List.map_cons, List.nodup_cons, ← hk]
      exact h
    · rw [if_neg hk, List.map_cons, List.nodup_cons, mem_keys_put]
      refine ⟨?_, ih h.2⟩
      rintro (heq | hmem)
      · exact hk heq
      · exact h.1 hmem

/-! ## The loop -/

/-- The loop over a list, with the entries it has made so far. -/
def foldKeyed (key : α → κ) (merge : Option β → α → Except ε β) :
    List α → List (κ × β) → Except ε (List (κ × β))
  | [], entries => pure entries
  | a :: as, entries => do
    let b ← merge (entries.lookup (key a)) a
    foldKeyed key merge as (put (key a) b entries)

/-- The same loop over elements of one key. -/
def foldGroup (merge : Option β → α → Except ε β) : List α → Option β → Except ε (Option β)
  | [], b => pure b
  | a :: as, b => do
    let b' ← merge b a
    foldGroup merge as (some b')

/-- The elements of a key. -/
def group (key : α → κ) (as : List α) (k : κ) : List α := as.filter fun a => key a == k

variable {key : α → κ} {as : List α} {a : α}

theorem group_cons_self : group key (a :: as) (key a) = a :: group key as (key a) := by
  unfold group
  rw [List.filter_cons, beq_self_eq_true, if_pos rfl]

theorem group_cons_ne (h : key a ≠ k) : group key (a :: as) k = group key as k := by
  unfold group
  rw [List.filter_cons, beq_false_of_ne h, if_neg (by decide)]

theorem mem_group : a ∈ group key as k ↔ a ∈ as ∧ key a = k := by
  rw [group, List.mem_filter, beq_iff_eq]

/-- The loop succeeds when the fold over the elements of every key does. -/
theorem foldKeyed_isOk {key : α → κ} {merge : Option β → α → Except ε β} {as : List α} :
    {entries : List (κ × β)} → (∃ done, foldKeyed key merge as entries = .ok done) ↔
      ∀ k, ∃ b, foldGroup merge (group key as k) (entries.lookup k) = .ok b := by
  induction as with
  | nil =>
    intro entries
    exact ⟨fun _ k => ⟨_, rfl⟩, fun _ => ⟨entries, rfl⟩⟩
  | cons a as ih =>
    intro entries
    constructor
    · rintro ⟨done, h⟩ k
      obtain ⟨b, hb, hrest⟩ := bind_eq_ok.mp h
      have hgroups := ih.mp ⟨done, hrest⟩
      by_cases hk : key a = k
      · subst hk
        obtain ⟨c, hc⟩ := hgroups (key a)
        rw [lookup_put, if_pos rfl] at hc
        rw [group_cons_self]
        exact ⟨c, bind_eq_ok.mpr ⟨b, hb, hc⟩⟩
      · obtain ⟨c, hc⟩ := hgroups k
        rw [lookup_put, if_neg (Ne.symm hk)] at hc
        rw [group_cons_ne hk]
        exact ⟨c, hc⟩
    · intro h
      obtain ⟨c, hc⟩ := h (key a)
      rw [group_cons_self] at hc
      obtain ⟨b, hb, hrest⟩ := bind_eq_ok.mp hc
      have hgroups : ∀ k, ∃ c, foldGroup merge (group key as k)
          ((put (key a) b entries).lookup k) = .ok c := by
        intro k
        rw [lookup_put]
        by_cases hk : k = key a
        · subst hk
          rw [if_pos rfl]
          exact ⟨c, hrest⟩
        · rw [if_neg hk]
          obtain ⟨c', hc'⟩ := h k
          rw [group_cons_ne (Ne.symm hk)] at hc'
          exact ⟨c', hc'⟩
      obtain ⟨done, hdone⟩ := ih.mpr hgroups
      exact ⟨done, bind_eq_ok.mpr ⟨b, hb, hdone⟩⟩

/-- What stands under a key in the end is what the elements of the key fold to. -/
theorem foldGroup_of_foldKeyed {merge : Option β → α → Except ε β} :
    {entries done : List (κ × β)} → foldKeyed key merge as entries = .ok done → (k : κ) →
      foldGroup merge (group key as k) (entries.lookup k) = .ok (done.lookup k) := by
  induction as with
  | nil =>
    intro entries done h k
    cases h
    rfl
  | cons a as ih =>
    intro entries done h k
    obtain ⟨b, hb, hrest⟩ := bind_eq_ok.mp h
    have hgroup := ih hrest k
    rw [lookup_put] at hgroup
    by_cases hk : key a = k
    · subst hk
      rw [if_pos rfl] at hgroup
      rw [group_cons_self]
      exact bind_eq_ok.mpr ⟨b, hb, hgroup⟩
    · rw [if_neg (Ne.symm hk)] at hgroup
      rw [group_cons_ne hk]
      exact hgroup

/-- The keys in the end are those before and those of the elements, each once. -/
theorem keys_of_foldKeyed {merge : Option β → α → Except ε β} :
    {entries done : List (κ × β)} → foldKeyed key merge as entries = .ok done →
      (entries.map (·.1)).Nodup → (done.map (·.1)).Nodup ∧
        ∀ k, k ∈ done.map (·.1) ↔ k ∈ entries.map (·.1) ∨ ∃ a ∈ as, key a = k := by
  induction as with
  | nil =>
    intro entries done h hnodup
    cases h
    exact ⟨hnodup, fun k => ⟨.inl, fun hk => hk.resolve_right (by simp)⟩⟩
  | cons a as ih =>
    intro entries done h hnodup
    obtain ⟨b, -, hrest⟩ := bind_eq_ok.mp h
    obtain ⟨hdone, hkeys⟩ := ih hrest (nodup_keys_put hnodup)
    refine ⟨hdone, fun k => ?_⟩
    rw [hkeys, mem_keys_put]
    constructor
    · rintro ((rfl | hk) | ⟨a', ha', rfl⟩)
      · exact .inr ⟨a, List.mem_cons_self, rfl⟩
      · exact .inl hk
      · exact .inr ⟨a', List.mem_cons_of_mem a ha', rfl⟩
    · rintro (hk | ⟨a', ha', rfl⟩)
      · exact .inl (.inr hk)
      · rcases List.mem_cons.mp ha' with rfl | ha'
        · exact .inl (.inl rfl)
        · exact .inr ⟨a', ha', rfl⟩

theorem sum_indicator {ks : List κ} (hnodup : ks.Nodup) (hk : k ∈ ks) :
    (ks.map fun k' => if k = k' then 1 else 0).sum = 1 := by
  induction ks with
  | nil => cases hk
  | cons k' ks ih =>
    rw [List.nodup_cons] at hnodup
    rw [List.map_cons, List.sum_cons]
    by_cases heq : k = k'
    · subst heq
      have hzero : (ks.map fun k' => if k = k' then 1 else 0).sum = 0 := by
        rw [List.sum_eq_zero]
        intro n hn
        obtain ⟨k', hk', rfl⟩ := List.mem_map.mp hn
        refine if_neg ?_
        rintro rfl
        exact hnodup.1 hk'
      rw [if_pos rfl, hzero]
    · rw [if_neg heq, ih hnodup.2 ((List.mem_cons.mp hk).resolve_left heq)]

/-- The elements of some keys are all the elements there are, when every key is among them. -/
theorem sum_length_group {ks : List κ} (hnodup : ks.Nodup) (hkeys : ∀ a ∈ as, key a ∈ ks) :
    (ks.map fun k => (group key as k).length).sum = as.length := by
  induction as with
  | nil => simp [group]
  | cons a as ih =>
    have hcons : ∀ k, (group key (a :: as) k).length =
        (if key a = k then 1 else 0) + (group key as k).length := by
      intro k
      by_cases hk : key a = k
      · subst hk
        rw [group_cons_self, List.length_cons, if_pos rfl, Nat.add_comm]
      · rw [group_cons_ne hk, if_neg hk, Nat.zero_add]
    simp only [hcons, List.sum_map_add]
    rw [sum_indicator hnodup (hkeys a List.mem_cons_self),
      ih fun a' ha' => hkeys a' (List.mem_cons_of_mem a ha'), List.length_cons, Nat.add_comm]

end Ipms.Lib
