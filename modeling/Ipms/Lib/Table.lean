import Mathlib

/-
  Ipms.Lib.Table

  Tables of rows with a unique key.  A row is found, saved, inserted or deleted
  by its key, and `Evolves` relates two states of a table in which rows are
  never deleted: every row took steps, and every new row was created.
-/

namespace Ipms.Lib

/-! ## Choosing a row -/

/-- A fold that keeps its candidate or takes the next element ends at an element. -/
theorem foldl_choice {α : Type} {f : Option α → α → Option α}
    (hf : ∀ best a, f best a = best ∨ f best a = some a) (as : List α) (best : Option α) :
    as.foldl f best = best ∨ ∃ a ∈ as, as.foldl f best = some a := by
  induction as generalizing best with
  | nil => exact .inl rfl
  | cons a as ih =>
    rw [List.foldl_cons]
    rcases ih (f best a) with hkept | ⟨b, hb, hchosen⟩
    · rcases hf best a with hbest | hnew
      · exact .inl (hkept.trans hbest)
      · exact .inr ⟨a, List.mem_cons_self, hkept.trans hnew⟩
    · exact .inr ⟨b, List.mem_cons_of_mem a hb, hchosen⟩

/-- The element such a fold chooses is one of the list. -/
theorem mem_of_foldl_choice {α : Type} {f : Option α → α → Option α} {as : List α} {a : α}
    (h : as.foldl f none = some a) (hf : ∀ best a, f best a = best ∨ f best a = some a) :
    a ∈ as := by
  rcases foldl_choice hf as none with hnone | ⟨b, hb, hchosen⟩
  · rw [hnone] at h
    cases h
  · rw [hchosen] at h
    cases h
    exact hb

/-! ## Tables -/

/-- Rows with pairwise different keys. -/
structure Table (α κ : Type) (key : α → κ) where
  rows : List α
  nodup : (rows.map key).Nodup

namespace Table

variable {α κ : Type} {key : α → κ}

/-- The table without rows. -/
def empty : Table α κ key := ⟨[], List.nodup_nil⟩

/-- Rows are the same under one key. -/
theorem row_unique {t : Table α κ key} {a b : α} (ha : a ∈ t.rows) (hb : b ∈ t.rows)
    (h : key a = key b) : a = b :=
  List.inj_on_of_nodup_map t.nodup ha hb h

variable [DecidableEq κ]

/-- The row under a key. -/
def get? (t : Table α κ key) (k : κ) : Option α := t.rows.find? fun a => key a == k

theorem get?_eq_some {t : Table α κ key} {k : κ} {a : α} :
    t.get? k = some a ↔ a ∈ t.rows ∧ key a = k := by
  constructor
  · intro h
    have hk := List.find?_some h
    exact ⟨List.mem_of_find?_eq_some h, by simpa using hk⟩
  · rintro ⟨ha, rfl⟩
    cases hf : t.get? (key a) with
    | none =>
      have hne := List.find?_eq_none.mp hf a ha
      simp at hne
    | some b =>
      have hb : b ∈ t.rows := List.mem_of_find?_eq_some hf
      have hk : key b = key a := by simpa using List.find?_some hf
      rw [row_unique hb ha hk]

theorem get?_eq_none {t : Table α κ key} {k : κ} :
    t.get? k = none ↔ ∀ a ∈ t.rows, key a ≠ k := by
  simp [get?, List.find?_eq_none]

theorem get?_mem {t : Table α κ key} {k : κ} {a : α} (h : t.get? k = some a) : a ∈ t.rows :=
  (get?_eq_some.mp h).1

theorem get?_key {t : Table α κ key} {k : κ} {a : α} (h : t.get? k = some a) : key a = k :=
  (get?_eq_some.mp h).2

theorem get?_of_mem {t : Table α κ key} {a : α} (h : a ∈ t.rows) : t.get? (key a) = some a :=
  get?_eq_some.mpr ⟨h, rfl⟩

/-- Replacing a row keeps the keys. -/
theorem map_key_replace (rows : List α) (a : α) :
    (rows.map fun b => if key b = key a then a else b).map key = rows.map key := by
  rw [List.map_map]
  apply List.map_congr_left
  intro b _
  by_cases hb : key b = key a <;> simp [hb]

/-- Save a row over the one under its key. -/
def save (t : Table α κ key) (a : α) : Table α κ key :=
  ⟨t.rows.map fun b => if key b = key a then a else b, by rw [map_key_replace]; exact t.nodup⟩

/-- Change every row, none under another key. -/
def mapRows (t : Table α κ key) (f : α → α) (hf : ∀ a, key (f a) = key a) : Table α κ key :=
  ⟨t.rows.map f, by
    have hkeys : (t.rows.map f).map key = t.rows.map key := by
      rw [List.map_map]
      exact List.map_congr_left fun a _ => hf a
    rw [hkeys]
    exact t.nodup⟩

/-- A table with one row. -/
def single (a : α) : Table α κ key := ⟨[a], List.nodup_singleton _⟩

/-- Insert a row under a key that is free. -/
def insert (t : Table α κ key) (a : α) : Option (Table α κ key) :=
  if h : t.get? (key a) = none then
    some ⟨a :: t.rows, by
      rw [List.map_cons, List.nodup_cons]
      refine ⟨?_, t.nodup⟩
      rw [List.mem_map]
      rintro ⟨b, hb, hk⟩
      exact get?_eq_none.mp h b hb hk⟩
  else none

/-- Delete the row under a key. -/
def delete (t : Table α κ key) (k : κ) : Table α κ key :=
  ⟨t.rows.filter fun a => key a ≠ k, List.Nodup.sublist (List.filter_sublist.map key) t.nodup⟩

theorem mem_save {t : Table α κ key} {a b : α} :
    b ∈ (t.save a).rows ↔ b ∈ t.rows ∧ key b ≠ key a ∨ b = a ∧ ∃ c ∈ t.rows, key c = key a := by
  simp only [save, List.mem_map]
  constructor
  · rintro ⟨c, hc, rfl⟩
    by_cases hk : key c = key a
    · rw [if_pos hk]
      exact .inr ⟨rfl, c, hc, hk⟩
    · rw [if_neg hk]
      exact .inl ⟨hc, hk⟩
  · rintro (⟨hb, hk⟩ | ⟨rfl, c, hc, hk⟩)
    · exact ⟨b, hb, if_neg hk⟩
    · exact ⟨c, hc, if_pos hk⟩

/-- The saved row is found under its key if there was one. -/
theorem get?_save_self {t : Table α κ key} {a old : α} (h : t.get? (key a) = some old) :
    (t.save a).get? (key a) = some a :=
  get?_eq_some.mpr ⟨mem_save.mpr (.inr ⟨rfl, old, get?_mem h, get?_key h⟩), rfl⟩

/-- Saving leaves the rows under other keys alone. -/
theorem get?_save_ne {t : Table α κ key} {a : α} {k : κ} (h : k ≠ key a) :
    (t.save a).get? k = t.get? k := by
  apply Option.ext
  intro b
  rw [get?_eq_some, get?_eq_some, mem_save]
  constructor
  · rintro ⟨⟨hb, -⟩ | ⟨rfl, -⟩, hk⟩
    · exact ⟨hb, hk⟩
    · exact absurd hk.symm h
  · rintro ⟨hb, rfl⟩
    exact ⟨.inl ⟨hb, h⟩, rfl⟩

/-- Saving a row as it is changes nothing. -/
theorem save_of_get? {t : Table α κ key} {a : α} (h : t.get? (key a) = some a) : t.save a = t := by
  have hrows : (t.rows.map fun b => if key b = key a then a else b) = t.rows := by
    conv_rhs => rw [← List.map_id t.rows]
    apply List.map_congr_left
    intro b hb
    rw [id_eq]
    by_cases hk : key b = key a
    · rw [if_pos hk, row_unique (get?_mem h) hb hk.symm]
    · rw [if_neg hk]
  simp only [save, hrows]

theorem get?_mapRows {t : Table α κ key} {f : α → α} (hf : ∀ a, key (f a) = key a) (k : κ) :
    (t.mapRows f hf).get? k = (t.get? k).map f := by
  apply Option.ext
  intro b
  rw [get?_eq_some, Option.map_eq_some_iff]
  simp only [mapRows, List.mem_map]
  constructor
  · rintro ⟨⟨a, ha, rfl⟩, hk⟩
    exact ⟨a, get?_eq_some.mpr ⟨ha, (hf a).symm.trans hk⟩, rfl⟩
  · rintro ⟨a, ha, rfl⟩
    exact ⟨⟨a, get?_mem ha, rfl⟩, (hf a).trans (get?_key ha)⟩

theorem insert_eq_some {t t' : Table α κ key} {a : α} (h : t.insert a = some t') :
    t.get? (key a) = none ∧ t'.rows = a :: t.rows := by
  unfold insert at h
  split at h
  · next hnone =>
      cases h
      exact ⟨hnone, rfl⟩
  · cases h

theorem get?_insert {t t' : Table α κ key} {a : α} (h : t.insert a = some t') (k : κ) :
    t'.get? k = if k = key a then some a else t.get? k := by
  obtain ⟨-, hrows⟩ := insert_eq_some h
  by_cases hk : k = key a
  · rw [if_pos hk]
    subst hk
    exact get?_eq_some.mpr ⟨by rw [hrows]; exact List.mem_cons_self, rfl⟩
  · rw [if_neg hk]
    apply Option.ext
    intro b
    rw [get?_eq_some, get?_eq_some, hrows, List.mem_cons]
    constructor
    · rintro ⟨rfl | hb, rfl⟩
      · exact absurd rfl hk
      · exact ⟨hb, rfl⟩
    · rintro ⟨hb, hk'⟩
      exact ⟨.inr hb, hk'⟩

/-! ## Evolution -/

/-- Every row of `t` took steps `S` to its row in `t'`, and every row of `t'` under a new key
was created by `C` and then took steps. -/
structure Evolves (S : α → α → Prop) (C : α → Prop) (t t' : Table α κ key) : Prop where
  kept : ∀ k a, t.get? k = some a → ∃ b, t'.get? k = some b ∧ Relation.ReflTransGen S a b
  made : ∀ k b, t.get? k = none → t'.get? k = some b → ∃ a, C a ∧ Relation.ReflTransGen S a b

namespace Evolves

variable {S S' : α → α → Prop} {C C' : α → Prop} {t t' t'' : Table α κ key}

theorem refl (t : Table α κ key) : Evolves S C t t where
  kept _ a h := ⟨a, h, .refl⟩
  made k b h h' := by rw [h] at h'; cases h'

theorem trans (h : Evolves S C t t') (h' : Evolves S C t' t'') : Evolves S C t t'' where
  kept k a ha := by
    obtain ⟨b, hb, hab⟩ := h.kept k a ha
    obtain ⟨c, hc, hbc⟩ := h'.kept k b hb
    exact ⟨c, hc, hab.trans hbc⟩
  made k c hnone hc := by
    cases hb : t'.get? k with
    | none => exact h'.made k c hb hc
    | some b =>
      obtain ⟨a, ha, hab⟩ := h.made k b hnone hb
      obtain ⟨c', hc', hbc⟩ := h'.kept k b hb
      rw [hc] at hc'
      cases hc'
      exact ⟨a, ha, hab.trans hbc⟩

/-- Saving a row that took a step. -/
theorem save {a o : α} (hold : t.get? (key a) = some o) (hstep : S o a) :
    Evolves S C t (t.save a) where
  kept k b hb := by
    by_cases hk : k = key a
    · subst hk
      rw [hold] at hb
      cases hb
      exact ⟨a, get?_save_self hold, .single hstep⟩
    · exact ⟨b, by rw [get?_save_ne hk]; exact hb, .refl⟩
  made k b hnone hb := by
    by_cases hk : k = key a
    · subst hk
      rw [hold] at hnone
      cases hnone
    · rw [get?_save_ne hk, hnone] at hb
      cases hb

/-- Changing every row by a step. -/
theorem mapRows {f : α → α} (hf : ∀ a, key (f a) = key a) (hstep : ∀ a, S a (f a)) :
    Evolves S C t (t.mapRows f hf) where
  kept k a ha := ⟨f a, by rw [get?_mapRows, ha]; rfl, .single (hstep a)⟩
  made k b hnone hb := by
    rw [get?_mapRows, hnone] at hb
    cases hb

/-- Inserting a row that is created. -/
theorem insert {a : α} (h : t.insert a = some t') (hC : C a) : Evolves S C t t' where
  kept k b hb := by
    refine ⟨b, ?_, .refl⟩
    rw [get?_insert h, if_neg, hb]
    rintro rfl
    rw [(insert_eq_some h).1] at hb
    cases hb
  made k b hnone hb := by
    rw [get?_insert h] at hb
    by_cases hk : k = key a
    · rw [if_pos hk] at hb
      cases hb
      exact ⟨a, hC, .refl⟩
    · rw [if_neg hk, hnone] at hb
      cases hb

/-- What new rows have and steps keep every row has. -/
theorem forall_rows {P : α → Prop} (h : Evolves S C t t') (hS : ∀ a b, S a b → P a → P b)
    (hC : ∀ a, C a → P a) (ht : ∀ a ∈ t.rows, P a) : ∀ b ∈ t'.rows, P b := by
  have hsteps : ∀ a b, Relation.ReflTransGen S a b → P a → P b := by
    intro a b hab ha
    induction hab with
    | refl => exact ha
    | tail _ hstep ih => exact hS _ _ hstep ih
  intro b hb
  have hget := get?_of_mem hb
  cases ha : t.get? (key b) with
  | none =>
    obtain ⟨a, hnew, hab⟩ := h.made _ b ha hget
    exact hsteps a b hab (hC a hnew)
  | some a =>
    obtain ⟨b', hb', hab⟩ := h.kept _ a ha
    obtain rfl : b = b' := Option.some.inj (hget.symm.trans hb')
    exact hsteps a b hab (ht a (get?_mem ha))

end Evolves

end Table

end Ipms.Lib
