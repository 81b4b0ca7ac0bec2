import Mathlib

/-
  Ipms.Lib.Lookup

  Lists of pairs with distinct keys as finite maps: a pair stands in the list
  exactly when its key is looked up to its value, and the keys of a list that all
  lie among some names are no more than the names.
-/

namespace Ipms.Lib

variable {α β : Type*}

variable {pairs : List (α × β)}

section

variable [DecidableEq α]

variable {key : α}

/-- A key and its value stand in a list of pairs with distinct keys exactly when looking the key
    up finds the value. -/
theorem lookup_eq_some_iff (hnodup : (pairs.map (·.1)).Nodup) {b : β} :
    pairs.lookup key = some b ↔ (key, b) ∈ pairs := by
  induction pairs with
  | nil => exact ⟨fun h => (nomatch h), fun h => absurd h List.not_mem_nil⟩
  | cons pair pairs ih =>
    obtain ⟨k, c⟩ := pair
    rw [List.map_cons, List.nodup_cons] at hnodup
    by_cases hkey : key = k
    · subst hkey
      rw [List.lookup_cons_self]
      constructor
      · intro h
        cases h
        exact List.mem_cons_self
      · intro h
        rcases List.mem_cons.mp h with heq | hrest
        · rw [Prod.mk.injEq] at heq
          rw [heq.2]
        · exact absurd (List.mem_map_of_mem (f := (·.1)) hrest) hnodup.1
    · rw [List.lookup_cons, beq_false_of_ne hkey, ih hnodup.2, List.mem_cons]
      constructor
      · exact Or.inr
      · intro h
        rcases h with heq | hrest
        · exact absurd (congrArg (·.1) heq) hkey
        · exact hrest

/-- A value that is looked up stands in the list under its key. -/
theorem mem_of_lookup {b : β} (h : pairs.lookup key = some b) : (key, b) ∈ pairs := by
  obtain ⟨before, after, hpairs, -⟩ := List.lookup_eq_some_iff.mp h
  rw [hpairs]
  exact List.mem_append_right _ List.mem_cons_self

/-- A key that can be looked up is one of the keys. -/
theorem key_mem_iff : (pairs.lookup key).isSome = true ↔ key ∈ pairs.map (·.1) := by
  rw [List.lookup_isSome_iff]
  constructor
  · rintro ⟨pair, hpair, hkey⟩
    rw [eq_of_beq hkey]
    exact List.mem_map_of_mem hpair
  · intro h
    obtain ⟨pair, hpair, rfl⟩ := List.mem_map.mp h
    exact ⟨pair, hpair, beq_self_eq_true _⟩

/-- Looking up distinct keys does not depend on their order. -/
theorem lookup_perm {pairs' : List (α × β)} (h : pairs.Perm pairs')
    (hnodup : (pairs.map (·.1)).Nodup) (key : α) : pairs.lookup key = pairs'.lookup key := by
  have hnodup' : (pairs'.map (·.1)).Nodup := (h.map (·.1)).nodup_iff.mp hnodup
  cases hlookup : pairs.lookup key with
  | some value =>
    exact ((lookup_eq_some_iff hnodup').mpr (h.mem_iff.mp (mem_of_lookup hlookup))).symm
  | none =>
    rw [eq_comm, List.lookup_eq_none_iff]
    intro p hp
    exact List.lookup_eq_none_iff.mp hlookup p (h.mem_iff.mpr hp)

end

/-- Distinct keys among some names are no more than the names. -/
theorem length_le_of_keys {names : List α} (hnodup : (pairs.map (·.1)).Nodup)
    (h : ∀ m ∈ pairs, m.1 ∈ names) : pairs.length ≤ names.length := by
  have hsub : pairs.map (·.1) ⊆ names := by
    intro key hkey
    obtain ⟨m, hm, rfl⟩ := List.mem_map.mp hkey
    exact h m hm
  have hle := (List.subperm_of_subset hnodup hsub).length_le
  rwa [List.length_map] at hle

/-- Distinct names that are all keys are no more than the pairs. -/
theorem length_le_of_names {names : List α} (hnodup : names.Nodup)
    (h : ∀ name ∈ names, name ∈ pairs.map (·.1)) : names.length ≤ pairs.length := by
  have hle := (List.subperm_of_subset hnodup h).length_le
  rwa [List.length_map] at hle

end Ipms.Lib
