import Ipms.Agent.Hgs.Uncertainty

/-
  Ipms.Agent.Hgs.Restart

  Which journals an execution passes to `save`: those a restart reads back.
  An execution stores the first observation before it validates it, so an
  invalid one reaches the journal of the failure that follows.
-/

namespace Ipms.Agent.Hgs

open Ipms.Lib Ipms.ManagementJson Prog Exec

theorem Journal.closed_fresh {assignment : Job} (ha : assignment.valid = true) :
    ({ assignment } : Journal).Closed :=
  Journal.closed_iff.mpr ⟨ha, .inl rfl, fun _ hr => (nomatch hr), .inl rfl, fun hs => nomatch hs⟩

section
variable {W : Type} (h : Host W)

/-- Every journal a run passed to `save` is read back. -/
def SavesClosed (p : Except Exn (Option Receipt) × Run W) : Prop := ∀ k ∈ p.2.saved, k.Closed

/-- The parts of the journal in memory are those of a journal that is read back, and every
journal passed to `save` is. -/
structure Restartable (s : Run W) : Prop where
  assignment : s.journal.assignment.valid = true
  before : s.journal.before = [] ∨ validObservation s.journal.before = true
  outcome : ∀ r, s.journal.outcome = some r → r.valid = true
  observed : s.journal.state = .prepared ∨ s.journal.before ≠ [] ∨ s.journal.state = .terminal
  saved : ∀ k ∈ s.saved, k.Closed

theorem Restartable.start {j : Journal} (hj : j.Closed) (w : W) : Restartable (Run.start j w) := by
  have hsound := Journal.closed_iff.mp hj
  exact ⟨hsound.assignment, hsound.before, hsound.outcome, hsound.observed,
    fun k hk => absurd hk List.not_mem_nil⟩

variable {s : Run W}

theorem Restartable.closed (hs : Restartable s)
    (hsettled : s.journal.state = .terminal → s.journal.outcome ≠ none) : s.journal.Closed :=
  Journal.closed_iff.mpr ⟨hs.assignment, hs.before, hs.outcome, hs.observed, hsettled⟩

theorem Restartable.world {s : Run W} (hs : Restartable s) (w : W) :
    Restartable { s with world := w } :=
  ⟨hs.assignment, hs.before, hs.outcome, hs.observed, hs.saved⟩

/-! ## Finishing -/

theorem restartable_call {α : Type} (f : Call W α) : Keeps Restartable (call f) :=
  fun _ hs => wp_call_of f (fun _ w => hs.world w) (fun _ w => hs.world w)

theorem wp_save_restartable (hs : Restartable s)
    (hsettled : s.journal.state = .terminal → s.journal.outcome ≠ none) :
    wp (save h) (fun _ t => Restartable t ∧ t.journal = s.journal)
      (fun _ => Restartable) s := by
  have hsaved : ∀ k ∈ s.saved ++ [s.journal], k.Closed := by
    intro k hk
    rcases List.mem_append.mp hk with hk | hk
    · exact hs.saved k hk
    · rw [List.mem_singleton.mp hk]
      exact hs.closed hsettled
  unfold save
  simp only [wp_bind, wp_modify, wp_get]
  exact wp_call_of _
    (fun _ w => ⟨⟨hs.assignment, hs.before, hs.outcome, hs.observed, hsaved⟩, rfl⟩)
    (fun _ w => ⟨hs.assignment, hs.before, hs.outcome, hs.observed, hsaved⟩)

theorem wp_saveOutcome {r : Receipt} (hs : Restartable s) (hr : r.valid = true) : wp (do
        update fun j => { j with outcome := some r }
        save h
        pure (some r) : Exec W (Option Receipt))
      (fun _ => Restartable) (fun _ => Restartable) s := by
  rw [wp_bind, wp_update, wp_bind]
  refine wp_mono (wp_save_restartable h ⟨hs.assignment, hs.before, fun r' hr' => ?_,
    hs.observed, hs.saved⟩ fun _ hnone => nomatch hnone) (fun _ _ ht => ht.1) (fun _ _ ht => ht)
  cases hr'
  exact hr

theorem restartable_finish (status : Status) (code : String) (observed : Object) :
    Keeps Restartable (finish h status code observed) := by
  intro s hs
  unfold finish
  rw [wp_bind, wp_update, wp_bind, wp_ofExcept]
  have hterminal : Restartable { s with journal := { s.journal with state := .terminal } } :=
    ⟨hs.assignment, hs.before, hs.outcome, .inr (.inr rfl), hs.saved⟩
  refine ⟨fun r hr => wp_saveOutcome h hterminal ?_, fun _ _ => hterminal⟩
  obtain ⟨rfl, hvalid⟩ := result_eq_ok.mp hr
  exact hvalid

theorem restartable_settleEarly (status : Status) (code : String) (observed : Object) :
    Keeps Restartable (settleEarly h status code observed) :=
  Keeps.bind (restartable_finish h _ _ _) fun _ => keeps_pure _

theorem restartable_journal : Keeps Restartable (journal : Exec W Journal) :=
  Keeps.bind keeps_get fun _ => keeps_pure _

theorem restartable_now : Keeps Restartable (now h) :=
  Keeps.bind keeps_get fun _ => keeps_pure _

theorem restartable_giveUp : Keeps Restartable (giveUp h) := by
  refine Keeps.bind restartable_journal fun j => ?_
  exact Keeps.ite (restartable_finish h _ _ _) (restartable_finish h _ _ _)

theorem restartable_keepWaiting (after : Object) : Keeps Restartable (keepWaiting h after) := by
  intro s hs
  unfold keepWaiting
  rw [wp_bind, wp_ofExcept]
  refine ⟨fun r hr => wp_saveOutcome h hs ?_, fun _ _ => hs⟩
  obtain ⟨rfl, hvalid⟩ := result_eq_ok.mp hr
  exact hvalid

theorem restartable_finishObserved (assignment : Job) (after : Object) :
    Keeps Restartable (finishObserved h assignment after) := by
  refine Keeps.ite (restartable_finish h _ _ _) ?_
  exact Keeps.bind (keeps_ofExcept _) fun _ => restartable_finish h _ _ _

theorem restartable_reexamine : Keeps Restartable (reexamine h) := by
  refine Keeps.bind restartable_journal fun j => ?_
  refine Keeps.bind (restartable_call _) fun after => ?_
  refine Keeps.bind (keeps_ofExcept _) fun _ => ?_
  refine Keeps.bind (keeps_ofExcept _) fun _ => ?_
  refine Keeps.ite (restartable_finishObserved h _ _) ?_
  refine Keeps.bind (restartable_now h) fun _ => ?_
  refine Keeps.bind (keeps_ofExcept _) fun _ => ?_
  exact Keeps.ite (restartable_keepWaiting h _) (restartable_finish h _ _ _)

theorem restartable_recover : Keeps Restartable (recover h) := by
  refine Keeps.bind restartable_journal fun j => ?_
  split
  · exact keeps_pure _
  · exact Keeps.bind (restartable_now h) fun _ => restartable_finish h _ _ _
  · exact restartable_finish h _ _ _
  · exact Keeps.tryCatch (restartable_reexamine h) fun _ => restartable_finish h _ _ _
  · exact Keeps.tryCatch (restartable_reexamine h) fun _ => restartable_finish h _ _ _

/-! ## Executing -/

/-- The journal holds a valid observation. -/
def Observing (before : Object) (s : Run W) : Prop :=
  Restartable s ∧ s.journal.before = before ∧ validObservation before = true

variable {before : Object}

theorem observing_call {α : Type} (f : Call W α) :
    Keeps (Observing before) (call f) := fun _ hs =>
  wp_call_of f (fun _ w => ⟨hs.1.world w, hs.2⟩) (fun _ w => ⟨hs.1.world w, hs.2⟩)

theorem observing_now : Keeps (Observing before) (now h) :=
  Keeps.bind keeps_get fun _ => keeps_pure _

theorem observing_stillGranted (assignment : Job) :
    Keeps (Observing before) (stillGranted h assignment) := by
  refine Keeps.bind (observing_call _) fun _ => ?_
  refine Keeps.ite (keeps_pure _) ?_
  exact Keeps.bind (observing_now h) fun _ => keeps_pure _

theorem observing_claimGranted (assignment : Job) :
    Keeps (Observing before) (claimGranted h assignment) := by
  refine Keeps.bind (observing_call _) fun _ => ?_
  exact Keeps.ite (keeps_pure _) (observing_stillGranted h assignment)

theorem wp_savePhase {phase : Phase} (hs : Observing before s) (hphase : phase ≠ .terminal) :
    wp (save h) (fun _ => Observing before) (fun _ => Restartable)
      { s with journal := { s.journal with state := phase } } := by
  have hne : s.journal.before ≠ [] := hs.2.1 ▸ validObservation_ne_nil hs.2.2
  refine wp_mono (wp_save_restartable h ⟨hs.1.assignment, hs.1.before, hs.1.outcome,
    .inr (.inl hne), hs.1.saved⟩ fun hterminal => absurd hterminal hphase) (fun _ t ht => ?_)
    (fun _ _ ht => ht)
  exact ⟨ht.1, ht.2 ▸ hs.2.1, hs.2.2⟩

theorem restartable_beginWrite (assignment : Job) (before : Object) :
    Keeps Restartable (beginWrite h assignment before) := by
  refine Keeps.ite ?_ (Keeps.ite ?_ (Keeps.ite ?_ (keeps_pure _)))
  · refine Keeps.bind (restartable_call _) fun _ => ?_
    refine Keeps.bind (keeps_ofExcept _) fun _ => ?_
    exact Keeps.ite (restartable_settleEarly h _ _ _) (restartable_settleEarly h _ _ _)
  · refine Keeps.bind (keeps_ofExcept _) fun _ => ?_
    exact Keeps.ite (restartable_settleEarly h _ _ _) (keeps_pure _)
  · refine Keeps.bind (keeps_ofExcept _) fun _ => ?_
    exact Keeps.ite (restartable_settleEarly h _ _ _) (keeps_pure _)

/-- The first observation is empty or valid. -/
def FirstObservationStorable (assignment : Job) (w : W) : Prop :=
  ∀ o w', h.inspect assignment w = (.ok o, w') → o = [] ∨ validObservation o = true

theorem wp_approach_restartable (hs : Restartable s) (hprepared : s.journal.state = .prepared)
    (hfirst : FirstObservationStorable h s.journal.assignment s.world) :
    wp (approach h) (fun _ => Restartable) (fun _ => Restartable) s := by
  unfold approach
  rw [wp_bind, wp_journal, wp_bind]
  refine wp_call_answer _ (fun before w hinspect => ?_) (fun _ w _ => hs.world w)
  rw [wp_bind, wp_update, wp_bind, wp_ofExcept]
  have hstored : Restartable { s with world := w, journal := { s.journal with before } } :=
    ⟨hs.assignment, hfirst before w hinspect, hs.outcome, .inl hprepared, hs.saved⟩
  refine ⟨fun observed hobserved => ?_, fun _ _ => hstored⟩
  have hv : validObservation before = true := by
    unfold validObservation
    rw [hobserved]
    rfl
  have ho : Observing before { s with world := w, journal := { s.journal with before } } :=
    ⟨hstored, rfl, hv⟩
  rw [wp_bind, wp_ofExcept]
  refine ⟨fun met _ => ?_, fun _ _ => hstored⟩
  rw [wp_ite]
  refine ⟨fun _ => restartable_settleEarly h _ _ _ _ hstored, fun _ => ?_⟩
  rw [wp_bind]
  refine wp_mono (observing_call _ _ ho) (fun _ t ht => ?_) (fun _ _ ht => ht.1)
  rw [wp_ite]
  refine ⟨fun _ => restartable_settleEarly h _ _ _ _ ht.1, fun _ => ?_⟩
  rw [wp_bind, wp_update, wp_bind]
  refine wp_mono (wp_savePhase h ht (by decide)) (fun _ u hu => ?_) (fun _ _ hu => hu)
  rw [wp_bind]
  refine wp_mono (observing_claimGranted h _ _ hu) (fun _ u' hu' => ?_) (fun _ _ hu' => hu'.1)
  rw [wp_ite]
  refine ⟨fun _ => restartable_settleEarly h _ _ _ _ hu'.1, fun _ => ?_⟩
  rw [wp_bind, wp_update, wp_bind]
  refine wp_mono (wp_savePhase h hu' (by decide)) (fun _ v hv' => ?_) (fun _ _ hv' => hv')
  rw [wp_bind]
  refine wp_mono (observing_stillGranted h _ _ hv') (fun _ v' hv'' => ?_)
    (fun _ _ hv'' => hv''.1)
  rw [wp_ite]
  exact ⟨fun _ => restartable_settleEarly h _ _ _ _ hv''.1,
    fun _ => restartable_beginWrite h _ _ _ hv''.1⟩

theorem restartable_examine (assignment : Job) (before : Object) :
    Keeps Restartable (examine h assignment before) := by
  refine Keeps.bind (restartable_call _) fun _ => ?_
  exact Keeps.bind (keeps_ofExcept _) fun _ => restartable_finish h _ _ _

theorem wp_beginReboot_restartable (hs : Observing before s) :
    wp (beginReboot h before) (fun _ => Restartable) (fun _ => Restartable) s := by
  have hne : s.journal.before ≠ [] := hs.2.1 ▸ validObservation_ne_nil hs.2.2
  have hwaiting : Restartable { s with journal := { s.journal with state := .rebootWait } } :=
    ⟨hs.1.assignment, hs.1.before, hs.1.outcome, .inr (.inl hne), hs.1.saved⟩
  unfold beginReboot
  rw [wp_bind, wp_update, wp_bind, wp_ofExcept]
  refine ⟨fun r hr => wp_saveOutcome h hwaiting ?_, fun _ _ => hwaiting⟩
  obtain ⟨rfl, hvalid⟩ := result_eq_ok.mp hr
  exact hvalid

theorem wp_write_restartable {assignment : Job} (hs : Observing before s) :
    wp (write h assignment before) (fun _ => Restartable) (fun _ => Restartable) s := by
  have hwritten : ∀ w : W, Observing before (s.written w) := fun w =>
    ⟨⟨hs.1.assignment, hs.1.before, hs.1.outcome, hs.1.observed, hs.1.saved⟩, hs.2⟩
  unfold write apply
  rw [wp_bind, wp_bind, wp_modify]
  refine wp_call_of _ (fun _ w => ?_) (fun _ w => (hwritten w).1)
  rw [wp_ite]
  exact ⟨fun _ => wp_beginReboot_restartable h (hwritten w),
    fun _ => restartable_examine h _ _ _ (hwritten w).1⟩

theorem wp_attempt_restartable (hu : Unapplied s) (hs : Restartable s)
    (hprepared : s.journal.state = .prepared)
    (hfirst : FirstObservationStorable h s.journal.assignment s.world) :
    wp (attempt h) (fun _ => Restartable) (fun _ => Restartable) s := by
  unfold attempt
  rw [wp_bind]
  refine wp_mono (wp_and (wp_approach h hu) (wp_approach_restartable h hs hprepared hfirst))
    (fun a t ht => ?_) (fun _ _ ht => ht.2)
  cases a with
  | settled outcome => exact ht.2
  | ready before =>
    dsimp only
    have hat := ht.1.2 before rfl
    rw [wp_bind, wp_journal]
    exact wp_write_restartable h ⟨ht.2, hat.journal.2, hat.valid⟩

/-! ## What is saved -/

/-- An invalid first observation is saved with the failure it causes. -/
theorem attempt_saves_invalid {o : Object} {w : W} (hprepared : s.journal.state = .prepared)
    (hinspect : h.inspect s.journal.assignment s.world = (.ok o, w)) (hne : o ≠ [])
    (hinvalid : validObservation o = false) :
    ∃ k ∈ (exec (tryCatch (attempt h) fun _ => giveUp h) s).2.saved, ¬k.Closed := by
  obtain ⟨e, herror⟩ : ∃ e, validateObservation o = .error e := by
    unfold validObservation at hinvalid
    cases hrun : validateObservation o with
    | ok observed =>
      rw [hrun] at hinvalid
      cases hinvalid
    | error e => exact ⟨e, rfl⟩
  have hrun : exec (tryCatch (attempt h) fun _ => giveUp h) s =
      exec (finish h .failed "hgs_provider_failed")
        { s with world := w, journal := { s.journal with before := o } } := by
    have happroach : (approach h).exec s =
        (.error e, { s with world := w, journal := { s.journal with before := o } }) := by
      unfold approach
      rw [exec_bind, exec_journal]
      dsimp only
      rw [exec_bind, exec_call_ok hinspect]
      dsimp only
      rw [exec_bind, exec_update]
      dsimp only
      rw [exec_bind, exec_ofExcept, herror]
    unfold attempt
    rw [exec_tryCatch, exec_bind, happroach]
    dsimp only
    unfold giveUp
    rw [exec_bind, exec_journal]
    simp [hprepared]
  have hr : result .failed "hgs_provider_failed" [] = .ok providerFailure :=
    result_eq_ok.mpr ⟨rfl, by decide⟩
  have hopen : ¬Journal.Closed
      (({ s.journal with before := o } : Journal).finished providerFailure) := by
    intro hclosed
    rcases (Journal.closed_iff.mp hclosed).before with hempty | hvalid
    · exact hne hempty
    · exact absurd (hinvalid.symm.trans hvalid) (by decide)
  refine ⟨({ s.journal with before := o } : Journal).finished providerFailure, ?_, hopen⟩
  rw [hrun]
  rcases hsave : h.save (({ s.journal with before := o } : Journal).finished providerFailure) w
    with ⟨e' | u, w'⟩
  · rw [exec_finish_unsaved h hr hsave]
    exact List.mem_append_right _ (List.mem_singleton.mpr rfl)
  · rw [exec_finish_saved h hr hsave]
    exact List.mem_append_right _ (List.mem_singleton.mpr rfl)

/-- From a journal that is read back, recovering saves only journals that are read back, and
executing does exactly when a fresh, unexpired step is not given a first observation that is
neither empty nor valid. -/
theorem savesClosed_iff {j : Journal} (hj : j.Closed) (w : W) :
    SavesClosed ((recover h).exec (Run.start j w)) ∧
      (SavesClosed ((execute h).exec (Run.start j w)) ↔
        (j.state = .prepared → unexpired j.assignment (h.now w) = true →
          FirstObservationStorable h j.assignment w)) := by
  have hstart : Restartable (Run.start j w) := Restartable.start hj w
  have hrecover : SavesClosed ((recover h).exec (Run.start j w)) :=
    ((restartable_recover h).after hstart (Prod.eta _).symm).saved
  refine ⟨hrecover, ?_⟩
  rw [exec_execute, show (Run.start j w).journal = j from rfl]
  cases hstate : j.state with
  | terminal => exact iff_of_true hstart.saved fun hp => nomatch hp
  | prepared =>
    rw [show (Run.start j w).world = w from rfl]
    cases hlive : unexpired j.assignment (h.now w) with
    | true =>
      dsimp only
      rw [if_pos rfl]
      constructor
      · rintro hclosed - - o w' hinspect
        by_contra hno
        rw [not_or, Bool.not_eq_true] at hno
        obtain ⟨k, hk, hopen⟩ :=
          attempt_saves_invalid h (s := Run.start j w) hstate hinspect hno.1 hno.2
        exact hopen (hclosed k hk)
      · intro hfirst
        have hwp : wp (tryCatch (attempt h) fun _ => giveUp h) (fun _ => Restartable)
            (fun _ => Restartable) (Run.start j w) := by
          rw [wp_tryCatch]
          exact wp_mono
            (wp_attempt_restartable h (s := Run.start j w) rfl hstart hstate (hfirst rfl rfl))
            (fun _ _ ht => ht) (fun _ t ht => restartable_giveUp h t ht)
        exact (wp_iff_after.mp hwp).saved
    | false =>
      dsimp only
      rw [if_neg (by decide)]
      refine iff_of_true ?_ fun _ hl => nomatch hl
      exact ((restartable_finish h _ _ _).after hstart (Prod.eta _).symm).saved
  | claiming | intent | rebootWait => exact iff_of_true hrecover fun hp => nomatch hp

end

/-- A sample reboot saves only journals that are read back, although one of its saves throws. -/
theorem savesClosed_sample :
    SavesClosed ((execute thirdSaveThrows).exec (Run.start { assignment := sampleJob .reboot } 0)) := by
  refine (savesClosed_iff thirdSaveThrows (Journal.closed_fresh (by decide)) 0).2.mpr ?_
  intro _ _ o w' hinspect
  cases hinspect
  exact .inr (by decide)

/-- A host that observes an object that is no observation. -/
def unknownObservation : Host Nat :=
  { thirdSaveThrows with inspect := fun _ n => (.ok [("state", .null)], n) }

/-- The unknown observation is saved in a journal that is not read back. -/
theorem unknownObservation_saved : (sampleJob .installRole).valid = true ∧
    ¬SavesClosed ((execute unknownObservation).exec
      (Run.start { assignment := sampleJob .installRole } 0)) := by
  refine ⟨by decide, fun hclosed => ?_⟩
  rw [exec_execute] at hclosed
  obtain ⟨k, hk, hopen⟩ := attempt_saves_invalid unknownObservation
    (s := Run.start { assignment := sampleJob .installRole } 0) rfl rfl (List.cons_ne_nil _ _)
    (by decide)
  exact hopen (hclosed k hk)

end Ipms.Agent.Hgs
