import Mathlib

/-
  Ipms.Lib.Run

  Runs of a labelled transition relation, and the two inductions the
  developments above use: an invariant holds of every state of a run, and an
  event that spends a permission nobody gives back happens at most once.
-/

namespace Ipms.Lib

variable {σ ℓ : Type} {step : σ → ℓ → σ → Prop}

/-- A run from one state to another along a list of labels. -/
inductive Run (step : σ → ℓ → σ → Prop) : σ → List ℓ → σ → Prop where
  | nil (s : σ) : Run step s [] s
  | cons {s t u : σ} {l : ℓ} {ls : List ℓ} : step s l t → Run step t ls u → Run step s (l :: ls) u

namespace Run

variable {s t : σ} {l : ℓ}

theorem single (h : step s l t) : Run step s [l] t := .cons h (.nil t)

variable {ls : List ℓ} {u : σ}

theorem append {ks : List ℓ} (h : Run step s ls t) (h' : Run step t ks u) :
    Run step s (ls ++ ks) u := by
  induction h with
  | nil => exact h'
  | cons hstep _ ih => exact .cons hstep (ih h')

/-- A run along a first label takes a step with it. -/
theorem uncons (h : Run step s (l :: ls) u) : ∃ t, step s l t ∧ Run step t ls u := by
  cases h with
  | cons hstep hrest => exact ⟨_, hstep, hrest⟩

/-- A run along two lists of labels goes through a state between them. -/
theorem split {ks : List ℓ} (h : Run step s (ls ++ ks) u) :
    ∃ t, Run step s ls t ∧ Run step t ks u := by
  induction ls generalizing s with
  | nil => exact ⟨s, .nil s, h⟩
  | cons l ls ih =>
    obtain ⟨v, hstep, hrest⟩ := uncons h
    obtain ⟨t, hls, hks⟩ := ih hrest
    exact ⟨t, .cons hstep hls, hks⟩

/-- What one step preserves a whole run preserves. -/
theorem preserves {I : σ → Prop} (hI : ∀ s l t, step s l t → I s → I t) {s t : σ} {ls : List ℓ}
    (h : Run step s ls t) (hs : I s) : I t := by
  induction h with
  | nil => exact hs
  | cons hstep _ ih => exact ih (hI _ _ _ hstep hs)

/-- What one step preserves under a condition on its label a run whose labels meet the
condition preserves. -/
theorem preserves_of {I : σ → Prop} {c : ℓ → Prop} (hI : ∀ s l t, step s l t → c l → I s → I t)
    {s t : σ} {ls : List ℓ} (h : Run step s ls t) (hc : ∀ l ∈ ls, c l) (hs : I s) : I t := by
  induction h with
  | nil => exact hs
  | cons hstep _ ih =>
    exact ih (fun l hl => hc l (List.mem_cons_of_mem _ hl))
      (hI _ _ _ hstep (hc _ List.mem_cons_self) hs)

/-- An event that leaves a mark no step removes, and that no marked state allows, happens at
most once in a run. -/
theorem countP_le_one {I m : σ → Prop} {p : ℓ → Bool}
    (hI : ∀ s l t, step s l t → I s → I t)
    (hkeep : ∀ s l t, step s l t → I s → m s → m t)
    (hset : ∀ s l t, step s l t → I s → p l = true → m t)
    (honce : ∀ s l t, step s l t → I s → m s → p l = false)
    {s t : σ} {ls : List ℓ} (h : Run step s ls t) (hs : I s) : ls.countP p ≤ 1 := by
  have hzero : ∀ {s t : σ} {ls : List ℓ}, Run step s ls t → I s → m s → ls.countP p = 0 := by
    intro s t ls h
    induction h with
    | nil => intro _ _; rfl
    | cons hstep _ ih =>
      intro hs hm
      rw [List.countP_cons_of_neg (by rw [honce _ _ _ hstep hs hm]; decide)]
      exact ih (hI _ _ _ hstep hs) (hkeep _ _ _ hstep hs hm)
  induction h with
  | nil => exact Nat.zero_le _
  | @cons s t u l ls hstep hrest ih =>
    cases hp : p l with
    | true =>
      have hrest := hzero hrest (hI _ _ _ hstep hs) (hset _ _ _ hstep hs hp)
      rw [List.countP_cons_of_pos hp]
      omega
    | false =>
      rw [List.countP_cons_of_neg (by rw [hp]; decide)]
      exact ih (hI _ _ _ hstep hs)

/-! ## Along a run -/

/-- A run goes through a state. -/
def Visits (step : σ → ℓ → σ → Prop) (s : σ) (ls : List ℓ) (t u : σ) : Prop :=
  ∃ before after, ls = before ++ after ∧ Run step s before u ∧ Run step u after t

/-- A run takes a step with a label from a state. -/
def Takes (step : σ → ℓ → σ → Prop) (s : σ) (ls : List ℓ) (t u : σ) (l : ℓ) : Prop :=
  ∃ before v after, ls = before ++ l :: after ∧ Run step s before u ∧ step u l v ∧
    Run step v after t

theorem Takes.tail {s' : σ} {k : ℓ} (hstep : step s k s') (h : Takes step s' ls t u l) :
    Takes step s (k :: ls) t u l := by
  obtain ⟨before, v, after, rfl, hu, hv, ht⟩ := h
  exact ⟨k :: before, v, after, rfl, .cons hstep hu, hv, ht⟩

/-- A run along a first label takes its first step or a later one. -/
theorem Takes.uncons {k : ℓ} (h : Takes step s (k :: ls) t u l) :
    u = s ∧ l = k ∨ ∃ s', step s k s' ∧ Takes step s' ls t u l := by
  obtain ⟨before, v, after, hls, hu, hv, ht⟩ := h
  cases before with
  | nil =>
    cases hu
    exact .inl ⟨rfl, (List.cons.inj hls).1.symm⟩
  | cons m before =>
    obtain ⟨rfl, hrest⟩ := List.cons.inj hls
    obtain ⟨s', hstep, hu⟩ := Run.uncons hu
    exact .inr ⟨s', hstep, before, v, after, hrest, hu, hv, ht⟩

/-- What the steps of a run preserve, each under its own condition, holds of every state the run
goes through. -/
theorem visits_of_takes {I : σ → Prop} {s t u : σ} {ls : List ℓ}
    (hI : ∀ u l v, Takes step s ls t u l → step u l v → I u → I v) (hs : I s)
    (hu : Visits step s ls t u) : I u := by
  obtain ⟨before, after, rfl, hbefore, hafter⟩ := hu
  induction hbefore with
  | nil => exact hs
  | @cons s s' u l before hstep hrest ih =>
    have hfirst : I s' :=
      hI s l s' ⟨[], s', before ++ after, rfl, .nil s, hstep, hrest.append hafter⟩ hstep hs
    exact ih hfirst (fun u' l' v' htakes => hI u' l' v' (htakes.tail hstep)) hafter

/-- A property that one step keeps exactly where a condition holds is kept along a run exactly
where every step of it meets the condition. -/
theorem forall_visits_iff {I P : σ → Prop} {C : σ → ℓ → Prop} {s t : σ} {ls : List ℓ}
    (hI : ∀ u l v, step u l v → I u → I v)
    (hP : ∀ u l v, Takes step s ls t u l → step u l v → I u → P u → (P v ↔ C u l))
    (h : Run step s ls t) (hs : I s) (hsP : P s) :
    (∀ u, Visits step s ls t u → P u) ↔ ∀ u l, Takes step s ls t u l → C u l := by
  constructor
  · rintro hall u l ⟨before, v, after, rfl, hu, hv, ht⟩
    have hPu : P u := hall u ⟨before, l :: after, rfl, hu, .cons hv ht⟩
    have hPv : P v := hall v ⟨before ++ [l], after, by simp, hu.append (.single hv), ht⟩
    exact (hP u l v ⟨before, v, after, rfl, hu, hv, ht⟩ hv (hu.preserves hI hs) hPu).mp hPv
  · intro hall u hu
    have hboth : I u ∧ P u := visits_of_takes (I := fun u => I u ∧ P u)
      (fun u l v htakes hv hu => ⟨hI u l v hv hu.1,
        (hP u l v htakes hv hu.1 hu.2).mpr (hall u l htakes)⟩) ⟨hs, hsP⟩ hu
    exact hboth.2

end Run

end Ipms.Lib
