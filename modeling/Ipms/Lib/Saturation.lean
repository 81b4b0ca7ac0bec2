import Mathlib

/-
  Ipms.Lib.Saturation

  Closing a finite set under a relation by sweeping it until nothing is added,
  and walking a partial function until it stops or comes back to a place it has
  seen.  The loops take fuel, and the fuel that is enough is known from the
  finitely many places there are.
-/

namespace Ipms.Lib

open Relation

variable {α : Type*}

/-! ## Lines of places -/

/-- The line of places from a cursor ends after that many of them. -/
inductive EndsIn (next : α → Option (Option α)) : Nat → Option α → Prop
  | last : EndsIn next 0 none
  | step {n : Nat} {place : α} {following : Option α} :
      next place = some following → EndsIn next n following → EndsIn next (n + 1) (some place)

/-- The line of places from a cursor ends. -/
def Ends (next : α → Option (Option α)) (cursor : Option α) : Prop :=
  ∃ n, EndsIn next n cursor

/-- A line has one length. -/
theorem EndsIn.unique {next : α → Option (Option α)} {n m : Nat} {cursor : Option α}
    (hn : EndsIn next n cursor) (hm : EndsIn next m cursor) : n = m := by
  induction hn generalizing m with
  | last =>
    cases hm
    rfl
  | step hnext _ ih =>
    cases hm with
    | step hnext' hrest =>
      rw [hnext] at hnext'
      cases hnext'
      rw [ih hrest]

/-! ## Sweeps -/

/-- A sweep of a set under the steps of `edge`: it keeps the set, adds only what
    is reached from it, and adds every successor of what it was given. -/
structure IsSweep (edge : α → α → Prop) (sweep : Finset α → Finset α) : Prop where
  keeps : ∀ s, s ⊆ sweep s
  reached : ∀ s, ∀ x ∈ sweep s, ∃ y ∈ s, ReflTransGen edge y x
  adds : ∀ s, ∀ y ∈ s, ∀ x, edge y x → x ∈ sweep s

/-- Every successor there is lies in `places`. -/
def Within (edge : α → α → Prop) (places : Finset α) : Prop :=
  ∀ y x, edge y x → x ∈ places

/-- What is reached from a set. -/
def Reached (edge : α → α → Prop) (s : Finset α) (x : α) : Prop :=
  ∃ y ∈ s, ReflTransGen edge y x

variable {places : Finset α} {edge : α → α → Prop}

/-- What is reached and not in the set already lies in `places`. -/
theorem mem_places_of_reached (hwithin : Within edge places) {y x : α} (h : ReflTransGen edge y x) :
    x = y ∨ x ∈ places := by
  cases h with
  | refl => exact Or.inl rfl
  | tail _ hlast => exact Or.inr (hwithin _ _ hlast)

variable {s : Finset α}

section Sweep

variable {edge : α → α → Prop} {sweep : Finset α → Finset α} (hsweep : IsSweep edge sweep)
include hsweep

/-- A sweep neither adds to nor takes from what is reached. -/
theorem IsSweep.reached_iff (s : Finset α) (x : α) :
    Reached edge (sweep s) x ↔ Reached edge s x := by
  constructor
  · intro ⟨y, hy, hpath⟩
    obtain ⟨z, hz, hstart⟩ := hsweep.reached s y hy
    exact ⟨z, hz, hstart.trans hpath⟩
  · intro ⟨y, hy, hpath⟩
    exact ⟨y, hsweep.keeps s hy, hpath⟩

/-- A set the sweep leaves alone holds all that is reached from it. -/
theorem IsSweep.mem_iff_of_fixed (hfixed : sweep s = s) (x : α) : x ∈ s ↔ Reached edge s x := by
  constructor
  · intro hx
    exact ⟨x, hx, ReflTransGen.refl⟩
  · intro ⟨y, hy, hpath⟩
    induction hpath with
    | refl => exact hy
    | tail _ hlast ih =>
      rw [← hfixed]
      exact hsweep.adds s _ ih _ hlast

/-- A sweep that does not grow the set leaves it alone. -/
theorem IsSweep.fixed_of_card (h : (sweep s).card = s.card) : sweep s = s :=
  (Finset.eq_of_subset_of_card_le (hsweep.keeps s) (Nat.le_of_eq h)).symm

variable [DecidableEq α]

/-- A sweep stays among the set and the places. -/
theorem IsSweep.subset_places (hwithin : Within edge places) (s : Finset α) :
    sweep s ⊆ s ∪ places := by
  intro x hx
  obtain ⟨y, hy, hpath⟩ := hsweep.reached s x hx
  rcases mem_places_of_reached hwithin hpath with heq | hplace
  · rw [heq]
    exact Finset.mem_union_left _ hy
  · exact Finset.mem_union_right _ hplace

/-- A sweep that changes the set leaves fewer places outside it. -/
theorem IsSweep.card_missing_lt (hwithin : Within edge places) (hchanged : sweep s ≠ s) :
    (places \ sweep s).card < (places \ s).card := by
  apply Finset.card_lt_card
  refine ⟨Finset.sdiff_subset_sdiff (Finset.Subset.refl _) (hsweep.keeps s), fun hback => ?_⟩
  apply hchanged
  apply Finset.Subset.antisymm _ (hsweep.keeps s)
  intro x hx
  by_contra hnot
  have hplace : x ∈ places :=
    (Finset.mem_union.mp (hsweep.subset_places hwithin s hx)).resolve_left hnot
  exact (Finset.mem_sdiff.mp (hback (Finset.mem_sdiff.mpr ⟨hplace, hnot⟩))).2 hx

/-- A set that holds every place is left alone. -/
theorem IsSweep.fixed_of_no_missing (hwithin : Within edge places) (h : (places \ s).card = 0) :
    sweep s = s := by
  apply Finset.Subset.antisymm _ (hsweep.keeps s)
  intro x hx
  rcases Finset.mem_union.mp (hsweep.subset_places hwithin s hx) with hin | hplace
  · exact hin
  · exact Finset.sdiff_eq_empty_iff_subset.mp (Finset.card_eq_zero.mp h) hplace

end Sweep

variable [DecidableEq α]

/-- Sweeps until `done` says that the sweep at hand adds nothing; `none` when the
    fuel is spent before that. -/
def saturate (sweep : Finset α → Finset α) (done : Finset α → Bool) : Nat → Finset α → Option (Finset α)
  | 0, _ => none
  | fuel + 1, s => if done s then some (sweep s) else saturate sweep done fuel (sweep s)

variable {fuel : Nat}

/-- More fuel than places outside the set is enough, and what comes out is what
    is reached from the set. -/
theorem saturate_eq_some {sweep : Finset α → Finset α} {done : Finset α → Bool}
    (hsweep : IsSweep edge sweep) (hwithin : Within edge places)
    (hdone : ∀ s, done s = true ↔ sweep s = s) (hfuel : (places \ s).card < fuel) :
    ∃ t, saturate sweep done fuel s = some t ∧ ∀ x, x ∈ t ↔ Reached edge s x := by
  induction fuel generalizing s with
  | zero => exact absurd hfuel (Nat.not_lt_zero _)
  | succ fuel ih =>
    by_cases hfixed : done s = true
    · have heq : sweep s = s := (hdone s).mp hfixed
      refine ⟨s, by rw [saturate, if_pos hfixed, heq], fun x => ?_⟩
      exact hsweep.mem_iff_of_fixed heq x
    · have hchanged : sweep s ≠ s := fun heq => hfixed ((hdone s).mpr heq)
      have hless := hsweep.card_missing_lt hwithin hchanged
      obtain ⟨t, hrun, hmem⟩ := ih (s := sweep s) (by omega)
      refine ⟨t, by rw [saturate, if_neg hfixed, hrun], fun x => ?_⟩
      rw [hmem, hsweep.reached_iff]

/-- At most that many sweeps, and none after one that did not grow the set. -/
def sweepUpTo (sweep : Finset α → Finset α) : Nat → Finset α → Finset α
  | 0, s => s
  | bound + 1, s => if (sweep s).card = s.card then sweep s else sweepUpTo sweep bound (sweep s)

/-- As many sweeps as places outside the set give all that is reached from it. -/
theorem mem_sweepUpTo {sweep : Finset α → Finset α} (hsweep : IsSweep edge sweep)
    (hwithin : Within edge places) {bound : Nat} (hbound : (places \ s).card ≤ bound) (x : α) :
    x ∈ sweepUpTo sweep bound s ↔ Reached edge s x := by
  induction bound generalizing s with
  | zero =>
    exact hsweep.mem_iff_of_fixed (hsweep.fixed_of_no_missing hwithin (Nat.le_zero.mp hbound)) x
  | succ bound ih =>
    rw [sweepUpTo]
    split
    · rename_i hcard
      have heq := hsweep.fixed_of_card hcard
      rw [heq]
      exact hsweep.mem_iff_of_fixed heq x
    · rename_i hcard
      have hchanged : sweep s ≠ s := fun heq => hcard (by rw [heq])
      have hless := hsweep.card_missing_lt hwithin hchanged
      rw [ih (by omega), hsweep.reached_iff]

/-! ## The two ways to sweep a list of edges -/

/-- All edges against the set as it was. -/
def sweepAtOnce (edges : List (α × α)) (s : Finset α) : Finset α :=
  s ∪ ((edges.filter fun e => e.1 ∈ s).map (·.2)).toFinset

/-- One edge after the other, each against the set as it has become. -/
def sweepInOrder (edges : List (α × α)) (s : Finset α) : Finset α :=
  edges.foldl (fun s e => if e.1 ∈ s then insert e.2 s else s) s

/-- The steps a list of edges allows. -/
def Edge (edges : List (α × α)) (y x : α) : Prop := (y, x) ∈ edges

theorem edge_within (edges : List (α × α)) : Within (Edge edges) (edges.map (·.2)).toFinset := by
  intro y x h
  rw [List.mem_toFinset]
  exact List.mem_map.mpr ⟨(y, x), h, rfl⟩

theorem mem_sweepAtOnce {edges : List (α × α)} {x : α} :
    x ∈ sweepAtOnce edges s ↔ x ∈ s ∨ ∃ y ∈ s, (y, x) ∈ edges := by
  simp only [sweepAtOnce, Finset.mem_union, List.mem_toFinset, List.mem_map, List.mem_filter,
    decide_eq_true_eq]
  constructor
  · rintro (h | ⟨⟨y, z⟩, ⟨hedge, hy⟩, rfl⟩)
    · exact Or.inl h
    · exact Or.inr ⟨y, hy, hedge⟩
  · rintro (h | ⟨y, hy, hedge⟩)
    · exact Or.inl h
    · exact Or.inr ⟨(y, x), ⟨hedge, hy⟩, rfl⟩

/-- Sweeping all edges at once is a sweep. -/
theorem sweepAtOnce_isSweep (edges : List (α × α)) : IsSweep (Edge edges) (sweepAtOnce edges) where
  keeps _ _ hx := mem_sweepAtOnce.mpr (Or.inl hx)
  reached s x hx := by
    rcases mem_sweepAtOnce.mp hx with hin | ⟨y, hy, hedge⟩
    · exact ⟨x, hin, ReflTransGen.refl⟩
    · exact ⟨y, hy, ReflTransGen.single hedge⟩
  adds s y hy x hedge := mem_sweepAtOnce.mpr (Or.inr ⟨y, hy, hedge⟩)

theorem sweepInOrder_keeps (edges : List (α × α)) (s : Finset α) : s ⊆ sweepInOrder edges s := by
  induction edges generalizing s with
  | nil => exact Finset.Subset.refl s
  | cons e edges ih =>
    rw [sweepInOrder, List.foldl_cons]
    split
    · exact (Finset.subset_insert _ _).trans (ih _)
    · exact ih _

/-- Sweeping the edges one after the other is a sweep, whatever their order. -/
theorem sweepInOrder_isSweep (edges : List (α × α)) :
    IsSweep (Edge edges) (sweepInOrder edges) where
  keeps := sweepInOrder_keeps edges
  reached := by
    -- the induction is on a part of the edges, whose steps are among those of all
    suffices h : ∀ part : List (α × α), (∀ e ∈ part, e ∈ edges) → ∀ s : Finset α,
        ∀ x ∈ sweepInOrder part s, Reached (Edge edges) s x by
      exact fun s => h edges (fun _ he => he) s
    intro part hpart
    induction part with
    | nil =>
      intro s x hx
      exact ⟨x, hx, ReflTransGen.refl⟩
    | cons e part ih =>
      intro s x hx
      rw [sweepInOrder, List.foldl_cons] at hx
      have hrest := ih fun f hf => hpart f (List.mem_cons_of_mem _ hf)
      split at hx
      · rename_i hpremise
        obtain ⟨y, hy, hpath⟩ := hrest _ x hx
        rcases Finset.mem_insert.mp hy with rfl | hin
        · have hedge : Edge edges e.1 e.2 := hpart e List.mem_cons_self
          exact ⟨e.1, hpremise, ReflTransGen.head hedge hpath⟩
        · exact ⟨y, hin, hpath⟩
      · exact hrest s x hx
  adds := by
    induction edges with
    | nil => intro s y _ x hedge; exact absurd hedge List.not_mem_nil
    | cons e edges ih =>
      intro s y hy x hedge
      rw [sweepInOrder, List.foldl_cons]
      rcases List.mem_cons.mp hedge with heq | hlater
      · have hpremise : e.1 ∈ s := by
          rw [← heq]
          exact hy
        rw [if_pos hpremise]
        apply sweepInOrder_keeps edges
        rw [← heq]
        exact Finset.mem_insert_self _ _
      · split
        · exact ih _ y (Finset.mem_insert_of_mem hy) x hlater
        · exact ih _ y hy x hlater

/-! ## Walking a partial function -/

/-- How a walk ends: at a place with no next one, or at a place that is missing
    or was seen before. -/
inductive Walk where
  | stops | strays
  deriving DecidableEq

/-- Follows `next` from a place.  `next` answers `none` for a place that is
    missing and `some none` for the last one.  `none` when the fuel is spent. -/
def walk (next : α → Option (Option α)) : Nat → Finset α → Option α → Option Walk
  | 0, _, _ => none
  | _ + 1, _, none => some .stops
  | fuel + 1, seen, some place =>
    match next place with
    | none => some .strays
    | some following =>
      if place ∈ seen then some .strays else walk next fuel (insert place seen) following

section Places

variable {next : α → Option (Option α)} {places : Finset α}
  (hplaces : ∀ place, (next place).isSome = true → place ∈ places)
include hplaces

/-- A walk that takes a step has fewer places left to see. -/
theorem card_unseen_insert {seen : Finset α} {place : α} (hnext : (next place).isSome = true)
    (hunseen : place ∉ seen) :
    (places \ insert place seen).card + 1 = (places \ seen).card := by
  have hin : place ∈ places \ seen := Finset.mem_sdiff.mpr ⟨hplaces place hnext, hunseen⟩
  have hpos := Finset.card_pos.mpr ⟨place, hin⟩
  rw [Finset.sdiff_insert, Finset.card_erase_of_mem hin]
  omega

/-- Fuel for each unseen place and one more is enough, and a walk stops exactly
    where the line of places ends. -/
theorem walk_eq_some {seen : Finset α} {cursor : Option α} (hfuel : (places \ seen).card < fuel)
    (hseen : ∀ n, EndsIn next n cursor → ∀ p ∈ seen, ∃ m, n < m ∧ EndsIn next m (some p)) :
    ∃ w, walk next fuel seen cursor = some w ∧ (w = .stops ↔ Ends next cursor) := by
  induction fuel generalizing seen cursor with
  | zero => exact absurd hfuel (Nat.not_lt_zero _)
  | succ fuel ih =>
    cases cursor with
    | none => exact ⟨.stops, rfl, fun _ => ⟨0, .last⟩, fun _ => rfl⟩
    | some place =>
      rw [walk]
      cases hnext : next place with
      | none =>
        refine ⟨.strays, rfl, fun h => Walk.noConfusion h, ?_⟩
        rintro ⟨_, hline⟩
        cases hline with
        | step hsome _ => rw [hnext] at hsome; cases hsome
      | some following =>
        by_cases hin : place ∈ seen
        · refine ⟨.strays, by simp only [if_pos hin], fun h => Walk.noConfusion h, ?_⟩
          rintro ⟨n, hline⟩
          -- a place seen before would be farther from the end than itself
          obtain ⟨m, hless, hagain⟩ := hseen n hline place hin
          have heq := hline.unique hagain
          omega
        · have hcard := card_unseen_insert hplaces (by rw [hnext]; rfl) hin
          have hless : (places \ insert place seen).card < fuel := by omega
          -- the place just seen is one farther from the end than what follows it
          have hfarther : ∀ n, EndsIn next n following → ∀ p ∈ insert place seen,
              ∃ m, n < m ∧ EndsIn next m (some p) := by
            intro n hline p hp
            have hlonger : EndsIn next (n + 1) (some place) := .step hnext hline
            rcases Finset.mem_insert.mp hp with rfl | hold
            · exact ⟨n + 1, Nat.lt_succ_self n, hlonger⟩
            · obtain ⟨m, hlt, hm⟩ := hseen (n + 1) hlonger p hold
              exact ⟨m, by omega, hm⟩
          obtain ⟨w, hrun, hw⟩ := ih hless hfarther
          refine ⟨w, by simp only [if_neg hin, hrun], hw.trans ?_⟩
          constructor
          · rintro ⟨n, hline⟩
            exact ⟨n + 1, .step hnext hline⟩
          · rintro ⟨_, hline⟩
            cases hline with
            | step hsome hrest =>
              rw [hnext] at hsome
              cases hsome
              exact ⟨_, hrest⟩

end Places

/-- Whether the walk from every place of a list stops; `none` when one runs out
    of fuel. -/
def forest (next : α → Option (Option α)) (fuel : Nat) (starts : List α) : Option Bool :=
  (starts.mapM fun place => walk next fuel ∅ (some place)).map fun ends => ends.all (· == .stops)

/-- With more fuel than places the walks all end, and all stop exactly when every
    line ends. -/
theorem forest_eq_some {next : α → Option (Option α)}
    (hplaces : ∀ place, (next place).isSome = true → place ∈ places) (hfuel : places.card < fuel)
    (starts : List α) : ∃ b, forest next fuel starts = some b ∧
      (b = true ↔ ∀ place ∈ starts, Ends next (some place)) := by
  induction starts with
  | nil => exact ⟨true, rfl, fun _ _ h => absurd h List.not_mem_nil, fun _ => rfl⟩
  | cons place starts ih =>
    obtain ⟨b, hrest, hb⟩ := ih
    have hunseen : (places \ ∅).card < fuel := by
      rw [Finset.sdiff_empty]
      exact hfuel
    obtain ⟨w, hwalk, hw⟩ := walk_eq_some hplaces hunseen
      (fun n (_ : EndsIn next n (some place)) p hp => absurd hp (Finset.notMem_empty p))
    obtain ⟨ends, hends, hall⟩ := Option.map_eq_some_iff.mp hrest
    refine ⟨(w == .stops) && b, ?_, ?_⟩
    · rw [forest, List.mapM_cons, hwalk, hends]
      show some ((w :: ends).all (· == .stops)) = _
      rw [List.all_cons, hall]
    · rw [Bool.and_eq_true, beq_iff_eq, hw, hb, List.forall_mem_cons]

end Ipms.Lib
