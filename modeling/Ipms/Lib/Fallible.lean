import Mathlib.Data.List.Forall2
import Ipms.Lib.Throwing

/-
  Ipms.Lib.Fallible

  Sequences of checks in `Except`: a sequence succeeds exactly when every check
  in it does, and fails with an error of one of them.
-/

namespace Ipms.Lib

variable {ε α β : Type}

variable {f : α → Except ε β}

/-- A sequence of checks succeeds when every part does. -/
theorem bind_eq_ok {x : Except ε α} {b : β} : (x >>= f) = .ok b ↔ ∃ a, x = .ok a ∧ f a = .ok b := by
  cases x with
  | error e | ok a => simp [bind, Except.bind]

@[simp] theorem throwIf_eq_ok {c : Prop} [Decidable c] {e : ε} {u : Unit} :
    (throwIf c e : Except ε Unit) = .ok u ↔ ¬c := by
  unfold throwIf
  by_cases hc : c
  · simp [hc, throw, throwThe, MonadExceptOf.throw]
  · simp [hc, pure, Except.pure]

theorem ok_bind {a : α} : ((.ok a : Except ε α) >>= f) = f a := rfl

/-- A check decides whether what follows it is reached. -/
theorem throwIf_bind {c : Prop} [Decidable c] {e : ε} {f : Unit → Except ε α} :
    (throwIf c e >>= f) = if c then .error e else f () := by
  unfold throwIf
  by_cases hc : c
  · simp only [hc, if_true]
    rfl
  · simp only [hc, if_false]
    rfl

theorem pure_eq_ok {a b : α} : (pure a : Except ε α) = .ok b ↔ a = b := by
  simp [pure, Except.pure]

variable {xs : List α}

/-- A check of every member of a list succeeds when it does for each. -/
theorem forM_eq_ok {f : α → Except ε Unit} : xs.forM f = .ok () ↔ ∀ x ∈ xs, f x = .ok () := by
  induction xs with
  | nil => simp [pure_eq_ok]
  | cons x xs ih =>
    show (f x >>= fun _ => xs.forM f) = .ok () ↔ _
    rw [bind_eq_ok]
    constructor
    · rintro ⟨⟨⟩, hx, hxs⟩ y hy
      rcases List.mem_cons.mp hy with rfl | hy
      · exact hx
      · exact ih.mp hxs y hy
    · intro h
      exact ⟨(), h x List.mem_cons_self, ih.mpr fun y hy => h y (List.mem_cons_of_mem x hy)⟩

/-- A list is computed member by member. -/
theorem mapM_eq_ok {ys : List β} :
    xs.mapM f = .ok ys ↔ List.Forall₂ (fun x y => f x = .ok y) xs ys := by
  induction xs generalizing ys with
  | nil => cases ys <;> simp [pure_eq_ok]
  | cons x xs ih =>
    rw [List.mapM_cons, bind_eq_ok]
    constructor
    · rintro ⟨y, hy, h⟩
      obtain ⟨rest, hrest, h⟩ := bind_eq_ok.mp h
      cases pure_eq_ok.mp h
      exact .cons hy (ih.mp hrest)
    · intro h
      cases h with
      | cons hy hrest =>
        exact ⟨_, hy, bind_eq_ok.mpr ⟨_, ih.mpr hrest, rfl⟩⟩

/-- An optional list is computed member by member. -/
theorem mapM_eq_some_iff {f : α → Option β} {as : List α} {bs : List β} :
    as.mapM f = some bs ↔ List.Forall₂ (fun a b => f a = some b) as bs := by
  induction as generalizing bs with
  | nil =>
    rw [List.mapM_nil]
    constructor
    · intro h
      cases h
      exact .nil
    · intro h
      cases h
      rfl
  | cons a as ih =>
    rw [List.mapM_cons]
    constructor
    · intro h
      obtain ⟨b, hb, h⟩ := Option.bind_eq_some_iff.mp h
      obtain ⟨rest, hrest, h⟩ := Option.bind_eq_some_iff.mp h
      cases h
      exact .cons hb (ih.mp hrest)
    · intro h
      cases h with
      | cons hb hrest =>
        rw [hb, ih.mpr hrest]
        rfl

/-- A list can be computed when every member can. -/
theorem mapM_isOk : (∃ ys, xs.mapM f = .ok ys) ↔ ∀ x ∈ xs, ∃ y, f x = .ok y := by
  induction xs with
  | nil => exact ⟨fun _ => nofun, fun _ => ⟨[], rfl⟩⟩
  | cons x xs ih =>
    constructor
    · rintro ⟨ys, h⟩ z hz
      rw [List.mapM_cons] at h
      obtain ⟨y, hy, h⟩ := bind_eq_ok.mp h
      obtain ⟨rest, hrest, -⟩ := bind_eq_ok.mp h
      rcases List.mem_cons.mp hz with rfl | hz
      · exact ⟨y, hy⟩
      · exact ih.mp ⟨rest, hrest⟩ z hz
    · intro h
      obtain ⟨y, hy⟩ := h x List.mem_cons_self
      obtain ⟨rest, hrest⟩ := ih.mpr fun z hz => h z (List.mem_cons_of_mem x hz)
      refine ⟨y :: rest, ?_⟩
      rw [List.mapM_cons]
      exact bind_eq_ok.mpr ⟨y, hy, bind_eq_ok.mpr ⟨rest, hrest, rfl⟩⟩

/-- Two computations one behind the other succeed on a list when they do on every member. -/
theorem mapM_mapM_isOk {γ : Type} {f : α → Option β} {g : β → Except ε γ} {as : List α} :
    (∃ bs cs, as.mapM f = some bs ∧ bs.mapM g = .ok cs) ↔
      ∀ a ∈ as, ∃ b, f a = some b ∧ ∃ c, g b = .ok c := by
  induction as with
  | nil => exact ⟨fun _ => nofun, fun _ => ⟨[], [], rfl, rfl⟩⟩
  | cons a as ih =>
    constructor
    · rintro ⟨bs, cs, hbs, hcs⟩ a' ha'
      cases mapM_eq_some_iff.mp hbs with
      | cons hb hrest =>
        obtain ⟨c, hc⟩ := mapM_isOk.mp ⟨cs, hcs⟩ _ List.mem_cons_self
        have htail := mapM_isOk.mp ⟨cs, hcs⟩
        obtain ⟨ds, hds⟩ := mapM_isOk.mpr fun b hb => htail b (List.mem_cons_of_mem _ hb)
        rcases List.mem_cons.mp ha' with rfl | ha'
        · exact ⟨_, hb, c, hc⟩
        · exact ih.mp ⟨_, ds, mapM_eq_some_iff.mpr hrest, hds⟩ a' ha'
    · intro h
      obtain ⟨b, hb, c, hc⟩ := h a List.mem_cons_self
      obtain ⟨bs, cs, hbs, hcs⟩ := ih.mpr fun a' ha' => h a' (List.mem_cons_of_mem a ha')
      refine ⟨b :: bs, c :: cs, mapM_eq_some_iff.mpr (.cons hb (mapM_eq_some_iff.mp hbs)), ?_⟩
      exact mapM_eq_ok.mpr (.cons hc (mapM_eq_ok.mp hcs))

/-! ## Refusals -/

/-- A computation fails with errors of a class only. -/
def OnlyFails (p : ε → Prop) (x : Except ε α) : Prop := ∀ e, x = .error e → p e

section
variable {p : ε → Prop}

theorem OnlyFails.pure (a : α) : OnlyFails p (pure a : Except ε α) := nofun

theorem OnlyFails.throw {e : ε} (he : p e) : OnlyFails p (throw e : Except ε α) := by
  intro _ h
  cases h
  exact he

theorem OnlyFails.throwIf {c : Prop} [Decidable c] {e : ε} (he : p e) :
    OnlyFails p (throwIf c e : Except ε Unit) := by
  intro e' h
  unfold Lib.throwIf at h
  split at h
  · cases h
    exact he
  · cases h

theorem OnlyFails.bind {x : Except ε α} {f : α → Except ε β} (hx : OnlyFails p x)
    (hf : ∀ a, x = .ok a → OnlyFails p (f a)) : OnlyFails p (x >>= f) := by
  intro e h
  cases hcase : x with
  | error e' =>
    rw [hcase] at h
    cases h
    exact hx e hcase
  | ok a =>
    rw [hcase] at h
    exact hf a hcase e h

theorem OnlyFails.forM {f : α → Except ε Unit} (h : ∀ x ∈ xs, OnlyFails p (f x)) :
    OnlyFails p (xs.forM f) := by
  induction xs with
  | nil => exact .pure _
  | cons x xs ih =>
    refine .bind (h x List.mem_cons_self) fun _ _ => ?_
    exact ih fun z hz => h z (List.mem_cons_of_mem x hz)

theorem OnlyFails.mapM (h : ∀ x ∈ xs, OnlyFails p (f x)) : OnlyFails p (xs.mapM f) := by
  induction xs with
  | nil => exact .pure _
  | cons x xs ih =>
    rw [List.mapM_cons]
    refine .bind (h x List.mem_cons_self) fun y _ => ?_
    exact .bind (ih fun z hz => h z (List.mem_cons_of_mem x hz)) fun ys _ => .pure _

end

end Ipms.Lib
