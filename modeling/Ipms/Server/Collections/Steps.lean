import Ipms.Server.Collections.Rollouts

/-
  Ipms.Server.Collections.Steps

  What one event does to the items of a rollout.  The status of an item agrees
  with its jobs, the items of a domain succeed in their order, and only the first
  pending item of a domain is ever dispatched.
-/

namespace Ipms.Server.Collections

open Ipms.Server.Gpo
open List (Forall₂ mem_cons mem_cons_of_mem mem_cons_self mem_filter mem_map pairwise_append pairwise_cons pairwise_map)

variable {services : Services} {items items' : List Item} {i j : Item}

/-! ## Items and their jobs -/

/-- The status of an item agrees with its jobs. -/
def Item.Consistent (i : Item) : Prop :=
  match i.status with
  | .pending | .blocked => i.preflightJob = none ∧ i.writeJob = none
  | .succeeded => ∃ w, i.writeJob = some w ∧ w.status = .linked
  | .failed =>
    i.preflightJob = none ∧ i.writeJob = none ∨
    (∃ w, i.writeJob = some w ∧ (w.status = .failed ∨ w.status = .expired ∨ w.status = .deleted)) ∨
    i.writeJob = none ∧ ∃ p, i.preflightJob = some p ∧
      (p.status = .failed ∨ p.status = .expired ∨ p.status = .inspected)
  | _ => True

/-- An item of a status that is meant to be the last. -/
def ItemStatus.final : ItemStatus → Bool
  | failed | blocked | succeeded => true
  | _ => false

/-- An item that failed when its change was to be created, and whose inspection still stands. -/
def Item.Stranded (i : Item) : Prop :=
  i.status = .failed ∧ i.writeJob = none ∧ ∃ p, i.preflightJob = some p ∧ p.status = .inspected

/-- What a final item keeps. -/
structure Keeps (i j : Item) : Prop where
  sequence : j.sequence = i.sequence
  domainId : j.domainId = i.domainId
  final : i.status.final = true → j.status = i.status ∧ (i.writeJob = none → j.writeJob = none)

theorem Keeps.refl (i : Item) : Keeps i i := ⟨rfl, rfl, fun _ => ⟨rfl, id⟩⟩

variable {k : Item}

theorem Keeps.trans (h : Keeps i j) (h' : Keeps j k) : Keeps i k := by
  refine ⟨h'.sequence.trans h.sequence, h'.domainId.trans h.domainId, fun hfinal => ?_⟩
  obtain ⟨hstatus, hwrite⟩ := h.final hfinal
  obtain ⟨hstatus', hwrite'⟩ := h'.final (by rw [hstatus]; exact hfinal)
  exact ⟨hstatus'.trans hstatus, fun hnone => hwrite' (hwrite hnone)⟩

/-- What a dispatch does to an item: only one that is pending changes, and one that gets its preflight
is preparing. -/
structure Stays (i j : Item) : Prop where
  sequence : j.sequence = i.sequence
  domainId : j.domainId = i.domainId
  kept : i.status ≠ .pending → j = i
  preflight : j.preflightJob = i.preflightJob ∨ j.status = .preparing
  write : j.writeJob = i.writeJob

theorem Stays.refl (i : Item) : Stays i i := ⟨rfl, rfl, fun _ => rfl, .inl rfl, rfl⟩

theorem Stays.trans (h : Stays i j) (h' : Stays j k) : Stays i k := by
  refine ⟨h'.sequence.trans h.sequence, h'.domainId.trans h.domainId, fun hne => ?_, ?_,
    h'.write.trans h.write⟩
  · obtain rfl := h.kept hne
    exact h'.kept hne
  · rcases h.preflight with hsame | hpreparing
    · exact h'.preflight.imp_left fun h => h.trans hsame
    · rw [h'.kept (by rw [hpreparing]; exact nofun)]
      exact .inr hpreparing

theorem Stays.keeps (h : Stays i j) : Keeps i j := by
  refine ⟨h.sequence, h.domainId, fun hfinal => ?_⟩
  have hne : i.status ≠ .pending := by
    intro hpending
    rw [hpending] at hfinal
    cases hfinal
  rw [h.kept hne]
  exact ⟨rfl, id⟩

/-- What the loop over the items does to one of them, whatever its services answer. -/
structure Moves (i j : Item) : Prop where
  sequence : j.sequence = i.sequence
  domainId : j.domainId = i.domainId
  consistent : j.Consistent
  waiting : i.status = .pending ∨ i.status = .blocked → j = i
  succeeded : i.status = .succeeded → j.status = .succeeded
  unblocked : j.status = .blocked → i.status = .blocked

/-- A change of jobs that leaves the status of every job that has ended. -/
def Steady (f : GpoImportJob → GpoImportJob) : Prop :=
  ∀ job, job.status.terminal = true → (f job).status = job.status

theorem steady_id : Steady id := fun _ _ => rfl

theorem steady_apply (e : JobEvent) : Steady fun job => e.apply job :=
  fun _ h => JobEvent.apply_terminal h e

theorem steady_expire (tenant : String) (now : Time) : Steady fun job =>
    if expiring tenant now job then job.endUnlessClaimed .expired "gpo_job_expired" now else job := by
  intro job h
  have hactive : job.status.active = false := by
    rw [JobStatus.terminal_eq, Bool.not_eq_true'] at h
    exact h
  simp [expiring, hactive]

/-- An item whose jobs change. -/
def Item.mapJobs (i : Item) (f g : GpoImportJob → GpoImportJob) : Item :=
  { i with preflightJob := i.preflightJob.map f, writeJob := i.writeJob.map g }

variable {f g : GpoImportJob → GpoImportJob}

theorem Item.mapJobs_consistent (h : i.Consistent) (hf : Steady f) (hg : Steady g) :
    (i.mapJobs f g).Consistent := by
  unfold Item.Consistent at h ⊢
  unfold Item.mapJobs
  dsimp only
  split at h
  · rw [h.1, h.2]
    exact ⟨rfl, rfl⟩
  · rw [h.1, h.2]
    exact ⟨rfl, rfl⟩
  · obtain ⟨w, hw, hstatus⟩ := h
    rw [hw]
    exact ⟨g w, rfl, hg w (by rw [hstatus]; rfl) |>.trans hstatus⟩
  · rcases h with ⟨hp, hw⟩ | ⟨w, hw, hstatus⟩ | ⟨hw, p, hp, hstatus⟩
    · rw [hp, hw]
      exact .inl ⟨rfl, rfl⟩
    · rw [hw]
      have hsame : (g w).status = w.status := hg w (by rcases hstatus with h | h | h <;> rw [h] <;> rfl)
      exact .inr (.inl ⟨g w, rfl, by rw [hsame]; exact hstatus⟩)
    · rw [hp, hw]
      have hsame : (f p).status = p.status := hf p (by rcases hstatus with h | h | h <;> rw [h] <;> rfl)
      exact .inr (.inr ⟨rfl, f p, rfl, by rw [hsame]; exact hstatus⟩)
  · trivial

theorem Item.mapJobs_keeps (i : Item) (f g : GpoImportJob → GpoImportJob) : Keeps i (i.mapJobs f g) := by
  refine ⟨rfl, rfl, fun _ => ⟨rfl, fun hnone => ?_⟩⟩
  show i.writeJob.map g = none
  rw [hnone]
  rfl

/-! ## The loop over the items -/

theorem Item.Consistent.not_waiting (h : i.Consistent)
    (hjob : i.preflightJob ≠ none ∨ i.writeJob ≠ none) :
    i.status ≠ .pending ∧ i.status ≠ .blocked := by
  unfold Item.Consistent at h
  constructor
  · intro hstatus
    rw [hstatus] at h
    exact hjob.elim (fun hno => hno h.1) fun hno => hno h.2
  · intro hstatus
    rw [hstatus] at h
    exact hjob.elim (fun hno => hno h.1) fun hno => hno h.2

theorem Item.moves_of_job (h : i.Consistent) (hjob : i.preflightJob ≠ none ∨ i.writeJob ≠ none)
    (hsequence : j.sequence = i.sequence) (hdomain : j.domainId = i.domainId) (hj : j.Consistent)
    (hsucceeded : i.status = .succeeded → j.status = .succeeded) (hblocked : j.status ≠ .blocked) :
    Moves i j := by
  obtain ⟨hpending, hnot⟩ := h.not_waiting hjob
  exact ⟨hsequence, hdomain, hj, fun hw => (hw.elim hpending hnot).elim, hsucceeded,
    fun hb => absurd hb hblocked⟩

theorem Item.followWrite_moves {w : GpoImportJob} (hwrite : i.writeJob = some w) (h : i.Consistent)
    (now : Time) : Moves i (i.followWrite w now) := by
  have hjob : i.preflightJob ≠ none ∨ i.writeJob ≠ none := .inr (by rw [hwrite]; exact nofun)
  have hlinked : i.status = .succeeded → w.status = .linked := by
    intro hstatus
    unfold Item.Consistent at h
    rw [hstatus] at h
    obtain ⟨w', hw', hlinked⟩ := h
    rw [hwrite] at hw'
    exact Option.some.inj hw' ▸ hlinked
  have hother : w.status ≠ .linked → ∀ {t : ItemStatus}, i.status = .succeeded → t = .succeeded :=
    fun hne _ hs => absurd (hlinked hs) hne
  unfold Item.followWrite
  split
  · rename_i hstatus
    exact i.moves_of_job h hjob rfl rfl ⟨w, hwrite, hstatus⟩ (fun _ => rfl) nofun
  · rename_i hstatus
    exact i.moves_of_job h hjob rfl rfl trivial (hother (by rw [hstatus]; exact nofun)) nofun
  · rename_i hstatus
    exact i.moves_of_job h hjob rfl rfl (.inr (.inl ⟨w, hwrite, .inl hstatus⟩))
      (hother (by rw [hstatus]; exact nofun)) nofun
  · rename_i hstatus
    exact i.moves_of_job h hjob rfl rfl (.inr (.inl ⟨w, hwrite, .inr (.inl hstatus)⟩))
      (hother (by rw [hstatus]; exact nofun)) nofun
  · rename_i hstatus
    exact i.moves_of_job h hjob rfl rfl (.inr (.inl ⟨w, hwrite, .inr (.inr hstatus)⟩))
      (hother (by rw [hstatus]; exact nofun)) nofun
  · rename_i hstatus
    exact i.moves_of_job h hjob rfl rfl trivial (hother (by rw [hstatus]; exact nofun)) nofun
  · rename_i hstatus
    exact i.moves_of_job h hjob rfl rfl trivial (hother (by rw [hstatus]; exact nofun)) nofun
  · rename_i hstatus
    exact i.moves_of_job h hjob rfl rfl trivial (hother (by rw [hstatus]; exact nofun)) nofun
  · exact i.moves_of_job h hjob rfl rfl h id (h.not_waiting hjob).2

/-- The loop over the items moves each of them. -/
theorem Item.refresh_moves (h : i.Consistent) (hj : i.refresh services = .ok j) : Moves i j := by
  unfold Item.refresh at hj
  split at hj
  · rename_i w hwrite
    cases hj
    exact i.followWrite_moves hwrite h services.now
  · cases hj
    exact ⟨rfl, rfl, h, fun _ => rfl, id, id⟩
  · rename_i p hwrite hpreflight
    have hjob : i.preflightJob ≠ none ∨ i.writeJob ≠ none := .inl (by rw [hpreflight]; exact nofun)
    have hnone : i.status ≠ .succeeded := by
      intro hstatus
      unfold Item.Consistent at h
      rw [hstatus] at h
      obtain ⟨w, hw, _⟩ := h
      rw [hwrite] at hw
      cases hw
    split at hj
    · rename_i hinspected
      split at hj
      · rename_i write _
        cases hj
        by_cases hwaits : write.status = .awaitingApproval
        · rw [if_pos hwaits]
          exact i.moves_of_job h hjob rfl rfl trivial (fun hs => absurd hs hnone) nofun
        · rw [if_neg hwaits]
          exact i.moves_of_job h hjob rfl rfl trivial (fun hs => absurd hs hnone) nofun
      · rename_i e _
        split at hj
        · cases hj
          exact i.moves_of_job h hjob rfl rfl
            (.inr (.inr ⟨hwrite, p, hpreflight, .inr (.inr hinspected)⟩)) (fun hs => absurd hs hnone) nofun
        · cases hj
    · cases hj
      exact i.moves_of_job h hjob rfl rfl trivial (fun hs => absurd hs hnone) nofun
    · rename_i hstatus
      cases hj
      exact i.moves_of_job h hjob rfl rfl
        (.inr (.inr ⟨hwrite, p, hpreflight, .inl hstatus⟩)) (fun hs => absurd hs hnone) nofun
    · rename_i hstatus
      cases hj
      exact i.moves_of_job h hjob rfl rfl
        (.inr (.inr ⟨hwrite, p, hpreflight, .inr (.inl hstatus)⟩)) (fun hs => absurd hs hnone) nofun
    · cases hj
      exact i.moves_of_job h hjob rfl rfl h id (h.not_waiting hjob).2

/-- The loop keeps a final item, unless it is stranded and its change is created after all. -/
theorem Item.refresh_keeps (h : i.Consistent) (hj : i.refresh services = .ok j)
    (hstranded : i.Stranded → ∀ w, services.createChange i ≠ .ok w) : Keeps i j := by
  have hmoves := i.refresh_moves h hj
  refine ⟨hmoves.sequence, hmoves.domainId, fun hfinal => ?_⟩
  cases hstatus : i.status with
  | blocked =>
    rw [hmoves.waiting (.inr hstatus)]
    exact ⟨hstatus, id⟩
  | succeeded =>
    refine ⟨hmoves.succeeded hstatus, fun hnone => ?_⟩
    unfold Item.Consistent at h
    rw [hstatus] at h
    obtain ⟨w, hw, _⟩ := h
    rw [hnone] at hw
    cases hw
  | failed =>
    unfold Item.Consistent at h
    rw [hstatus] at h
    unfold Item.refresh at hj
    rcases h with ⟨hp, hw⟩ | ⟨w, hw, hfailed⟩ | ⟨hw, p, hp, hfailed⟩
    · rw [hp, hw] at hj
      cases hj
      exact ⟨hstatus, id⟩
    · rw [hw] at hj
      cases hj
      unfold Item.followWrite
      rcases hfailed with h | h | h <;> rw [h] <;> exact ⟨rfl, id⟩
    · rw [hp, hw] at hj
      dsimp only at hj
      rcases hfailed with hf | hf | hf
      · rw [hf] at hj
        cases hj
        exact ⟨rfl, id⟩
      · rw [hf] at hj
        cases hj
        exact ⟨rfl, id⟩
      · rw [hf] at hj
        dsimp only at hj
        have hno := hstranded ⟨hstatus, hw, p, hp, hf⟩
        cases hchange : services.createChange i with
        | ok write => exact absurd hchange (hno write)
        | error e =>
          rw [hchange] at hj
          dsimp only at hj
          split at hj
          · cases hj
            exact ⟨rfl, id⟩
          · cases hj
  | _ =>
    rw [hstatus] at hfinal
    cases hfinal

/-! ## The dispatch -/

theorem Item.dispatch_cases (h : i.Consistent) (hpending : i.status = .pending)
    (hj : i.dispatch services = .ok j) : Stays i j ∧ j.Consistent ∧
      (j.status = .preparing ∨ j.status = .failed) := by
  have hnone : i.preflightJob = none ∧ i.writeJob = none := by
    unfold Item.Consistent at h
    rw [hpending] at h
    exact h
  have hkept {k : Item} : i.status ≠ .pending → k = i := fun hne => absurd hpending hne
  unfold Item.dispatch at hj
  split at hj
  · cases hj
    exact ⟨⟨rfl, rfl, hkept, .inl rfl, rfl⟩, .inl hnone, .inr rfl⟩
  · split at hj
    · cases hj
      exact ⟨⟨rfl, rfl, hkept, .inl rfl, rfl⟩, .inl hnone, .inr rfl⟩
    · split at hj
      · cases hj
        exact ⟨⟨rfl, rfl, hkept, .inr rfl, rfl⟩, trivial, .inl rfl⟩
      · split at hj
        · cases hj
          exact ⟨⟨rfl, rfl, hkept, .inl rfl, rfl⟩, .inl hnone, .inr rfl⟩
        · cases hj

/-- The items are in the order of their sequence. -/
def Sorted (items : List Item) : Prop := items.Pairwise fun a b => a.sequence < b.sequence

/-- Nothing is left to dispatch in a domain: an item is active, or none is pending. -/
def Idle (items : List Item) (domainId : String) : Prop :=
  (∃ a ∈ items, a.domainId = domainId ∧ a.status.active = true) ∨
    ∀ a ∈ items, a.domainId = domainId → a.status ≠ .pending

/-- What a dispatch of a domain does to the items. -/
inductive Dispatched (services : Services) (domainId : String) (items : List Item) :
    List Item → Prop where
  | idle : Idle items domainId → Dispatched services domainId items items
  | blocks : Dispatched services domainId items (blockPending items domainId services.now)
  | turn {before after : List Item} {i j : Item} :
      items = before ++ i :: after → i.domainId = domainId → i.status = .pending →
      (∀ a ∈ before, a.domainId = domainId → a.status = .succeeded) →
      (∀ a ∈ items, a.domainId = domainId → a.status.active = false) →
      i.dispatch services = .ok j → Dispatched services domainId items (before ++ j :: after)

theorem find_pending {domainId : String}
    (h : (items.filter fun a => a.domainId = domainId).find? (fun a => a.status = .pending) = some i) :
    ∃ before after, items = before ++ i :: after ∧ i.domainId = domainId ∧ i.status = .pending ∧
      ∀ a ∈ before, a.domainId = domainId → a.status ≠ .pending := by
  rw [List.find?_filter] at h
  obtain ⟨hi, before, after, rfl, hbefore⟩ := List.find?_eq_some_iff_append.mp h
  simp only [decide_eq_true_eq] at hi
  refine ⟨before, after, rfl, hi.1, hi.2, fun a ha hdomain hstatus => ?_⟩
  have hno := hbefore a ha
  simp [hdomain, hstatus] at hno

theorem updateItem_middle {before after : List Item} (hsorted : Sorted (before ++ i :: after)) :
    updateItem (before ++ i :: after) i.sequence (fun _ => j) = before ++ j :: after := by
  obtain ⟨_, hrest, hbefore⟩ := pairwise_append.mp hsorted
  have hsame (l : List Item) (hl : ∀ a ∈ l, a.sequence ≠ i.sequence) :
      (l.map fun a => if a.sequence = i.sequence then j else a) = l := by
    rw [List.map_congr_left (fun a ha => if_neg (hl a ha)), List.map_id']
  unfold updateItem
  rw [List.map_append, List.map_cons, if_pos rfl, hsame before, hsame after]
  · exact fun a ha => Nat.ne_of_gt ((pairwise_cons.mp hrest).1 a ha)
  · exact fun a ha => Nat.ne_of_lt (hbefore a ha i mem_cons_self)

variable {domainId : String}

theorem dispatchDomain_cases (hsorted : Sorted items)
    (h : dispatchDomain services items domainId = .ok items') :
    Dispatched services domainId items items' := by
  unfold dispatchDomain at h
  dsimp only at h
  split at h
  · rename_i hactive
    cases h
    obtain ⟨a, ha, hstatus⟩ := List.any_eq_true.mp hactive
    obtain ⟨ha, hdomain⟩ := mem_filter.mp ha
    exact .idle (.inl ⟨a, ha, of_decide_eq_true hdomain, hstatus⟩)
  · rename_i hactive
    have hquiet : ∀ a ∈ items, a.domainId = domainId → a.status.active = false := by
      intro a ha hdomain
      rw [Bool.not_eq_true, List.any_eq_false] at hactive
      exact Bool.eq_false_iff.mpr (hactive a (mem_filter.mpr ⟨ha, decide_eq_true hdomain⟩))
    split at h
    · rename_i hnone
      cases h
      refine .idle (.inr fun a ha hdomain hpending => ?_)
      rw [List.find?_eq_none] at hnone
      exact hnone a (mem_filter.mpr ⟨ha, decide_eq_true hdomain⟩) (decide_eq_true hpending)
    · rename_i i hfind
      obtain ⟨before, after, rfl, hdomain, hpending, hbefore⟩ := find_pending hfind
      have hearlier : ∀ a ∈ before, a.sequence < i.sequence := fun a ha =>
        (pairwise_append.mp hsorted).2.2 a ha i mem_cons_self
      split at h
      · cases h
        exact .blocks
      · rename_i hstops
        rw [Bool.not_eq_true, List.any_eq_false] at hstops
        -- nothing before is active, pending or stopped, so all of it has succeeded
        have hsucceeded : ∀ a ∈ before, a.domainId = domainId → a.status = .succeeded := by
          intro a ha hsame
          have hmem : a ∈ before ++ i :: after := List.mem_append_left _ ha
          have hpreceding : a ∈ ((before ++ i :: after).filter fun a => a.domainId = domainId).filter
              fun a => a.sequence < i.sequence :=
            mem_filter.mpr ⟨mem_filter.mpr ⟨hmem, decide_eq_true hsame⟩,
              decide_eq_true (hearlier a ha)⟩
          have hno := hstops a hpreceding
          have hwait := hbefore a ha hsame
          have hidle := hquiet a hmem hsame
          revert hno hwait hidle
          cases a.status <;> simp [ItemStatus.stops, ItemStatus.active]
        split at h
        · rename_i hother
          obtain ⟨a, ha, hne⟩ := List.any_eq_true.mp hother
          obtain ⟨ha, hlt⟩ := mem_filter.mp ha
          obtain ⟨ha, hsame⟩ := mem_filter.mp ha
          -- an item before `i` in sequence stands before it in the list
          refine absurd ?_ (of_decide_eq_true hne)
          rcases List.mem_append.mp ha with hin | hin
          · exact hsucceeded a hin (of_decide_eq_true hsame)
          · have hlt' := of_decide_eq_true hlt
            rcases mem_cons.mp hin with rfl | hin
            · exact absurd hlt' (Nat.lt_irrefl _)
            · have hle := (pairwise_cons.mp (pairwise_append.mp hsorted).2.1).1 a hin
              omega
        · split at h
          · rename_i j hj
            cases h
            rw [updateItem_middle hsorted]
            exact .turn rfl hdomain hpending hsucceeded hquiet hj
          · cases h

/-! ## What every state has -/

/-- Where an item of the same domain follows: it waits until the first has succeeded, and is blocked
once that is blocked. -/
def Follows (a b : Item) : Prop :=
  a.domainId = b.domainId → a.status = .succeeded ∨ b.status = .blocked ∨
    b.status = .pending ∧ a.status ≠ .blocked

/-- What the items of a rollout are at every moment. -/
structure Sound (items : List Item) : Prop where
  sorted : Sorted items
  consistent : ∀ i ∈ items, i.Consistent
  follows : items.Pairwise Follows

variable {S : Item → Item → Prop}

theorem forall₂_exists (h : Forall₂ S items items') (hi : i ∈ items) : ∃ j ∈ items', S i j := by
  induction h with
  | nil => cases hi
  | cons hhead _ ih =>
    rcases mem_cons.mp hi with rfl | hi
    · exact ⟨_, mem_cons_self, hhead⟩
    · obtain ⟨j, hj, hS⟩ := ih hi
      exact ⟨j, mem_cons_of_mem _ hj, hS⟩

theorem exists_of_forall₂ (h : Forall₂ S items items') (hj : j ∈ items') : ∃ i ∈ items, S i j := by
  induction h with
  | nil => cases hj
  | cons hhead _ ih =>
    rcases mem_cons.mp hj with rfl | hj
    · exact ⟨_, mem_cons_self, hhead⟩
    · obtain ⟨i, hi, hS⟩ := ih hj
      exact ⟨i, mem_cons_of_mem _ hi, hS⟩

variable {R : Item → Item → Prop} {l : List Item}

theorem forall₂_comp {T : Item → Item → Prop} (hstep : ∀ {i j k}, R i j → S j k → T i k)
    (h : Forall₂ R items items') (h' : Forall₂ S items' l) : Forall₂ T items l := by
  induction h generalizing l with
  | nil =>
    cases h'
    exact .nil
  | cons hhead _ ih =>
    cases h' with
    | cons hhead' htail' => exact .cons (hstep hhead hhead') (ih htail')

theorem pairwise_of_forall₂ {R' : Item → Item → Prop}
    (hstep : ∀ {a b a' b'}, R a b → S a a' → S b b' → R' a' b') (hR : items.Pairwise R)
    (hS : Forall₂ S items items') : items'.Pairwise R' := by
  induction hS with
  | nil => exact .nil
  | @cons a a' l l' ha hl ih =>
    obtain ⟨hhead, htail⟩ := pairwise_cons.mp hR
    refine pairwise_cons.mpr ⟨fun b' hb' => ?_, ih htail⟩
    obtain ⟨b, hb, hbb'⟩ := exists_of_forall₂ hl hb'
    exact hstep (hhead b hb) ha hbb'

theorem Moves.follows {a b a' b' : Item} (h : Follows a b) (ha : Moves a a') (hb : Moves b b') :
    Follows a' b' := by
  intro hdomain
  rw [ha.domainId, hb.domainId] at hdomain
  rcases h hdomain with hs | hblocked | ⟨hpending, hne⟩
  · exact .inl (ha.succeeded hs)
  · rw [hb.waiting (.inr hblocked)]
    exact .inr (.inl hblocked)
  · rw [hb.waiting (.inl hpending)]
    exact .inr (.inr ⟨hpending, fun hb' => hne (ha.unblocked hb')⟩)

theorem Sound.moves (h : Sound items) (hmoves : Forall₂ Moves items items') : Sound items' where
  sorted := pairwise_of_forall₂ (fun hlt ha hb => by rw [ha.sequence, hb.sequence]; exact hlt)
    h.sorted hmoves
  consistent := fun j hj => by
    obtain ⟨i, _, hij⟩ := exists_of_forall₂ hmoves hj
    exact hij.consistent
  follows := pairwise_of_forall₂ (@Moves.follows) h.follows hmoves

theorem Sound.mapJobs (h : Sound items) {f g : Item → GpoImportJob → GpoImportJob}
    (hf : ∀ i, Steady (f i)) (hg : ∀ i, Steady (g i)) :
    Sound (items.map fun i => i.mapJobs (f i) (g i)) where
  sorted := pairwise_map.mpr h.sorted
  consistent := fun j hj => by
    obtain ⟨i, hi, rfl⟩ := mem_map.mp hj
    exact Item.mapJobs_consistent (h.consistent i hi) (hf i) (hg i)
  follows := pairwise_map.mpr h.follows

theorem blockPending_stays (items : List Item) (domainId : String) (now : Time) :
    Forall₂ Stays items (blockPending items domainId now) := by
  unfold blockPending
  rw [List.forall₂_map_right_iff]
  refine List.forall₂_same.mpr fun i _ => ?_
  by_cases hi : i.domainId = domainId ∧ i.status = .pending
  · rw [if_pos hi]
    exact ⟨rfl, rfl, fun hne => absurd hi.2 hne, .inl rfl, rfl⟩
  · rw [if_neg hi]
    exact .refl i

/-- Blocking what is pending in a domain. -/
theorem Sound.blockPending (h : Sound items) (domainId : String) (now : Time) :
    Sound (blockPending items domainId now) := by
  have hsame (i : Item) : (if i.domainId = domainId ∧ i.status = .pending then
      { i with status := .blocked, errorCode := "previous_policy_failed", completedAt := some now }
      else i).sequence = i.sequence ∧ (if i.domainId = domainId ∧ i.status = .pending then
      { i with status := .blocked, errorCode := "previous_policy_failed", completedAt := some now }
      else i).domainId = i.domainId := by
    split <;> exact ⟨rfl, rfl⟩
  unfold Collections.blockPending
  refine ⟨pairwise_map.mpr (h.sorted.imp fun {a b} hlt => ?_), fun j hj => ?_,
    pairwise_map.mpr (h.follows.imp fun {a b} hab => ?_)⟩
  · rw [(hsame a).1, (hsame b).1]
    exact hlt
  · obtain ⟨i, hi, rfl⟩ := mem_map.mp hj
    have hconsistent := h.consistent i hi
    split
    · rename_i hpending
      unfold Item.Consistent at hconsistent
      rw [hpending.2] at hconsistent
      exact hconsistent
    · exact hconsistent
  · intro hdomain
    rw [(hsame a).2, (hsame b).2] at hdomain
    rcases hab hdomain with hs | hblocked | ⟨hpending, hne⟩
    · rw [if_neg (fun hp => by rw [hs] at hp; cases hp.2)]
      exact .inl hs
    · rw [if_neg (fun hp => by rw [hblocked] at hp; cases hp.2) (c := b.domainId = domainId ∧ _)]
      exact .inr (.inl hblocked)
    · by_cases hb : b.domainId = domainId
      · rw [if_pos ⟨hb, hpending⟩ (c := b.domainId = domainId ∧ _)]
        exact .inr (.inl rfl)
      · rw [if_neg (fun hp => hb (hdomain ▸ hp.1)) (c := a.domainId = domainId ∧ _),
          if_neg (fun hp => hb hp.1)]
        exact .inr (.inr ⟨hpending, hne⟩)

/-- The turn of an item. -/
theorem Sound.turn {before after : List Item} (h : Sound (before ++ i :: after))
    (hpending : i.status = .pending)
    (hbefore : ∀ a ∈ before, a.domainId = i.domainId → a.status = .succeeded)
    (hj : i.dispatch services = .ok j) : Sound (before ++ j :: after) := by
  obtain ⟨hstays, hconsistent, hstatus⟩ :=
    i.dispatch_cases (h.consistent i (List.mem_append_right _ mem_cons_self)) hpending hj
  have hsequence := hstays.sequence
  have hdomain := hstays.domainId
  refine ⟨?_, fun k hk => ?_, ?_⟩
  · obtain ⟨hleft, hrest, hacross⟩ := pairwise_append.mp h.sorted
    obtain ⟨hhead, htail⟩ := pairwise_cons.mp hrest
    refine pairwise_append.mpr ⟨hleft, pairwise_cons.mpr ⟨fun b hb => ?_, htail⟩,
      fun a ha b hb => ?_⟩
    · rw [hsequence]
      exact hhead b hb
    · rcases mem_cons.mp hb with rfl | hb
      · rw [hsequence]
        exact hacross a ha i mem_cons_self
      · exact hacross a ha b (mem_cons_of_mem _ hb)
  · rcases List.mem_append.mp hk with hk | hk
    · exact h.consistent k (List.mem_append_left _ hk)
    · rcases mem_cons.mp hk with rfl | hk
      · exact hconsistent
      · exact h.consistent k (List.mem_append_right _ (mem_cons_of_mem _ hk))
  · obtain ⟨hleft, hrest, hacross⟩ := pairwise_append.mp h.follows
    obtain ⟨hhead, htail⟩ := pairwise_cons.mp hrest
    refine pairwise_append.mpr ⟨hleft, pairwise_cons.mpr ⟨fun b hb hsame => ?_, htail⟩,
      fun a ha b hb => ?_⟩
    · rcases hhead b hb (hdomain ▸ hsame) with hs | hblocked | ⟨hwaits, _⟩
      · rw [hpending] at hs
        cases hs
      · exact .inr (.inl hblocked)
      · refine .inr (.inr ⟨hwaits, ?_⟩)
        rcases hstatus with hs | hs <;> rw [hs] <;> exact nofun
    · rcases mem_cons.mp hb with rfl | hb
      · exact fun hsame => .inl (hbefore a ha (hsame.trans hdomain))
      · exact hacross a ha b (mem_cons_of_mem _ hb)

theorem stays_refl (items : List Item) : Forall₂ Stays items items :=
  List.forall₂_same.mpr fun a _ => .refl a

theorem stays_trans (h : Forall₂ Stays items items') (h' : Forall₂ Stays items' l) :
    Forall₂ Stays items l :=
  forall₂_comp (fun hij hjk => hij.trans hjk) h h'

theorem Dispatched.sound (h : Sound items) (hd : Dispatched services domainId items items') :
    Sound items' ∧ Forall₂ Stays items items' := by
  cases hd with
  | idle _ => exact ⟨h, stays_refl items⟩
  | blocks => exact ⟨h.blockPending domainId services.now, blockPending_stays _ _ _⟩
  | @turn before after i j hitems hdomain hpending hbefore hquiet hj =>
    subst hitems hdomain
    have hstays := (i.dispatch_cases
      (h.consistent i (List.mem_append_right _ mem_cons_self)) hpending hj).1
    exact ⟨h.turn hpending hbefore hj,
      List.rel_append (stays_refl before) (.cons hstays (stays_refl after))⟩

theorem dispatchDomains_sound (domains : List String) (h : Sound items)
    (hd : dispatchDomains services items domains = .ok items') :
    Sound items' ∧ Forall₂ Stays items items' := by
  induction domains generalizing items with
  | nil =>
    cases hd
    exact ⟨h, stays_refl _⟩
  | cons domainId rest ih =>
    unfold dispatchDomains at hd
    split at hd
    · rename_i next hnext
      obtain ⟨hnext, hstays⟩ := (dispatchDomain_cases h.sorted hnext).sound h
      obtain ⟨hsound, hstays'⟩ := ih hnext hd
      exact ⟨hsound, stays_trans hstays hstays'⟩
    · cases hd

theorem refreshItems_forall₂ {R : Item → Item → Prop} {items items' : List Item}
    (hstep : ∀ i ∈ items, ∀ j, i.refresh services = .ok j → R i j)
    (h : refreshItems services items = .ok items') : Forall₂ R items items' := by
  induction items generalizing items' with
  | nil =>
    cases h
    exact .nil
  | cons i rest ih =>
    unfold refreshItems at h
    split at h
    · cases h
    · rename_i j hj
      split at h
      · cases h
      · rename_i rest' hrest
        cases h
        exact .cons (hstep i mem_cons_self j hj)
          (ih (fun k hk => hstep k (mem_cons_of_mem _ hk)) hrest)

/-! ## Refreshes -/

variable {d d' : Deployment}

theorem refreshDeployment_cases (h : refreshDeployment services d = .ok d') :
    ∃ moved, refreshItems services (d.items.map fun i => i.expireJobs d.tenant services.now) = .ok moved ∧
      dispatchDomains services moved (moved.map Item.domainId) = .ok d'.items ∧
      d'.tenant = d.tenant := by
  unfold refreshDeployment at h
  split at h
  · cases h
  · rename_i moved hmoved
    split at h
    · cases h
    · rename_i items hitems
      cases h
      exact ⟨moved, hmoved, hitems, rfl⟩

theorem Sound.expireJobs (h : Sound items) (tenant : String) (now : Time) :
    Sound (items.map fun i => i.expireJobs tenant now) :=
  h.mapJobs (fun _ => steady_expire tenant now) fun _ => steady_expire tenant now

theorem refreshDeployment_sound (h : Sound d.items) (hr : refreshDeployment services d = .ok d') :
    Sound d'.items := by
  obtain ⟨moved, hmoved, hitems, _⟩ := refreshDeployment_cases hr
  have hexpired := h.expireJobs d.tenant services.now
  have hsound := hexpired.moves
    (refreshItems_forall₂ (fun i hi j hj => i.refresh_moves (hexpired.consistent i hi) hj) hmoved)
  exact (dispatchDomains_sound _ hsound hitems).1

theorem updateItem_sound (h : Sound items) (sequence : Nat) (hf : Steady f) (hg : Steady g) :
    Sound (updateItem items sequence fun i => i.mapJobs f g) := by
  have hmap : (updateItem items sequence fun i => i.mapJobs f g) = items.map fun i =>
      i.mapJobs (if i.sequence = sequence then f else id) (if i.sequence = sequence then g else id) := by
    unfold updateItem
    refine List.map_congr_left fun i _ => ?_
    split
    · rfl
    · unfold Item.mapJobs
      rw [Option.map_id_fun]
      rfl
  rw [hmap]
  refine h.mapJobs (fun i => ?_) fun i => ?_
  · split
    · exact hf
    · exact steady_id
  · split
    · exact hg
    · exact steady_id

theorem step_sound (h : Sound d.items) (event : Event) : Sound (step d event).items := by
  cases event with
  | preflight sequence e =>
    have hsound := updateItem_sound h sequence (steady_apply e) steady_id
    unfold Item.mapJobs at hsound
    simpa only [step, Option.map_id_fun, id] using hsound
  | write sequence e =>
    have hsound := updateItem_sound h sequence steady_id (steady_apply e)
    unfold Item.mapJobs at hsound
    simpa only [step, Option.map_id_fun, id] using hsound
  | refresh services =>
    unfold step
    dsimp only
    split
    · rename_i hr
      exact refreshDeployment_sound h hr
    · exact h

theorem newItems_sound (bindings : List Binding) (entries : List Bool) :
    Sound (newItems bindings entries) := by
  have hnew : ∀ i ∈ newItems bindings entries, i.status = .pending ∧ i.Consistent := by
    intro i hi
    obtain ⟨n, hn, rfl⟩ := List.mem_mapIdx.mp hi
    exact ⟨rfl, rfl, rfl⟩
  refine ⟨?_, fun i hi => (hnew i hi).2, ?_⟩
  · unfold newItems Sorted
    rw [List.pairwise_iff_getElem]
    intro m n hm hn hlt
    rw [List.getElem_mapIdx, List.getElem_mapIdx]
    exact Nat.succ_lt_succ hlt
  · refine List.pairwise_of_forall_mem_list fun a ha b hb => fun _ => .inr (.inr ⟨(hnew b hb).1, ?_⟩)
    rw [(hnew a ha).1]
    exact nofun

theorem run_sound (tenant : String) (bindings : List Binding) (entries : List Bool)
    (events : List Event) : Sound (run (newDeployment tenant bindings entries) events).items := by
  have hrun : ∀ d : Deployment, Sound d.items → Sound (run d events).items := by
    induction events with
    | nil => exact fun _ h => h
    | cons event rest ih => exact fun d h => ih (step d event) (step_sound h event)
  exact hrun _ (newItems_sound bindings entries)

end Ipms.Server.Collections
