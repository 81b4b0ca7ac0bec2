import Ipms.Lib.Fallible
import Ipms.Agent.Hgs.Execute

/-
  Ipms.Agent.Hgs.Uncertainty

  What an execution records and returns once the provider's write was invoked.
  The catch block decides from the phase of the journal, and a save that throws
  after the phase left the recorded intent makes it report a failure.
-/

namespace Ipms.Agent.Hgs

open Ipms.Lib Ipms.ManagementJson Prog Exec

/-! ## What may be reported after a write -/

/-- An outcome that does not deny the write: a success with its postcondition, a reboot that
is still to come, or a reconciliation. -/
def Undenied (k : Journal) (r : Receipt) : Prop :=
  r.status = .succeeded ∧ postcondition k.assignment k.before r.observation = .ok true ∨
    r.status = .rebootRequired ∨ r.status = .reconciliationRequired

variable {r : Receipt}

theorem Undenied.not_failed {k : Journal} (hr : Undenied k r) : r.status ≠ .failed := by
  rcases hr with ⟨hs, _⟩ | hs | hs <;> rw [hs] <;> decide

section
variable {W : Type} (h : Host W)

/-- Every journal recorded since the write has an outcome that does not deny it. -/
def RecordsUndenied (s : Run W) : Prop :=
  ∀ k ∈ s.recorded, ∃ r, k.outcome = some r ∧ Undenied k r

/-- A run neither records nor returns an outcome that denies the write. -/
def ReportsUndenied (p : Except Exn (Option Receipt) × Run W) : Prop :=
  RecordsUndenied p.2 ∧ ∀ o, p.1 = .ok o → ∃ r, o = some r ∧ Undenied p.2.journal r

/-- A run that invoked the write does not deny it. -/
def KeepsWrite (p : Except Exn (Option Receipt) × Run W) : Prop :=
  p.2.applied = true → ReportsUndenied p

/-- A journal with its outcome. -/
def Journal.finished (j : Journal) (r : Receipt) : Journal :=
  { j with state := .terminal, outcome := some r }

variable {s : Run W} {status : Status} {code : String} {observed : Object} {w : W}

theorem exec_finish_saved (hr : result status code observed = .ok r)
    (hsave : h.save (s.journal.finished r) s.world = (.ok (), w)) :
    exec (finish h status code observed) s = (.ok (some r), { s with
      journal := s.journal.finished r
      world := w
      saved := s.saved ++ [s.journal.finished r]
      recorded := s.recorded ++ [s.journal.finished r] }) := by
  unfold finish
  have hrun := exec_save_ok (s := { s with journal := s.journal.finished r }) hsave
  simp only [Journal.finished] at hrun ⊢
  simp only [exec_bind, exec_update, exec_ofExcept, hr]
  rw [hrun]
  rfl

variable {e : Exn}

theorem exec_finish_unsaved (hr : result status code observed = .ok r)
    (hsave : h.save (s.journal.finished r) s.world = (.error e, w)) :
    exec (finish h status code observed) s = (.error e, { s with
      journal := s.journal.finished r
      world := w
      saved := s.saved ++ [s.journal.finished r] }) := by
  unfold finish
  have hrun := exec_save_error (s := { s with journal := s.journal.finished r }) hsave
  simp only [Journal.finished] at hrun ⊢
  simp only [exec_bind, exec_update, exec_ofExcept, hr]
  rw [hrun]

theorem exec_finish_invalid (hr : result status code observed = .error e) :
    exec (finish h status code observed) s =
      (.error e, { s with journal := { s.journal with state := .terminal } }) := by
  unfold finish
  simp only [exec_bind, exec_update, exec_ofExcept, hr]

/-! ## Coming to the write -/

/-- The write was not invoked so far. -/
def Unapplied (s : Run W) : Prop := s.applied = false

theorem unapplied_call {α : Type} (f : Call W α) : Keeps Unapplied (call f) := by
  intro s hs
  exact wp_call_of f (fun _ _ => hs) (fun _ _ => hs)

theorem unapplied_save : Keeps Unapplied (save h) := by
  refine Keeps.bind (keeps_modify fun _ hs => hs) fun _ => ?_
  refine Keeps.bind keeps_get fun _ => ?_
  exact Keeps.bind (unapplied_call _) fun _ => keeps_modify fun _ hs => hs

theorem unapplied_update (f : Journal → Journal) :
    Keeps Unapplied (update f : Exec W Unit) := keeps_modify fun _ hs => hs

theorem unapplied_now : Keeps Unapplied (now h) :=
  Keeps.bind keeps_get fun _ => keeps_pure _

theorem unapplied_finish (status : Status) (code : String) (observed : Object) :
    Keeps Unapplied (finish h status code observed) := by
  refine Keeps.bind (unapplied_update _) fun _ => ?_
  refine Keeps.bind (keeps_ofExcept _) fun _ => ?_
  refine Keeps.bind (unapplied_update _) fun _ => ?_
  exact Keeps.bind (unapplied_save h) fun _ => keeps_pure _

theorem unapplied_giveUp : Keeps Unapplied (giveUp h) := by
  refine Keeps.bind (Keeps.bind keeps_get fun _ => keeps_pure _) fun j => ?_
  exact Keeps.ite (unapplied_finish h _ _ _) (unapplied_finish h _ _ _)

theorem unapplied_keepWaiting (after : Object) : Keeps Unapplied (keepWaiting h after) := by
  refine Keeps.bind (keeps_ofExcept _) fun _ => ?_
  refine Keeps.bind (unapplied_update _) fun _ => ?_
  exact Keeps.bind (unapplied_save h) fun _ => keeps_pure _

theorem unapplied_finishObserved (assignment : Job) (after : Object) :
    Keeps Unapplied (finishObserved h assignment after) := by
  refine Keeps.ite (unapplied_finish h _ _ _) ?_
  exact Keeps.bind (keeps_ofExcept _) fun _ => unapplied_finish h _ _ _

theorem unapplied_reexamine : Keeps Unapplied (reexamine h) := by
  refine Keeps.bind (Keeps.bind keeps_get fun _ => keeps_pure _) fun j => ?_
  refine Keeps.bind (unapplied_call _) fun after => ?_
  refine Keeps.bind (keeps_ofExcept _) fun _ => ?_
  refine Keeps.bind (keeps_ofExcept _) fun _ => ?_
  refine Keeps.ite (unapplied_finishObserved h _ _) ?_
  refine Keeps.bind (unapplied_now h) fun _ => ?_
  refine Keeps.bind (keeps_ofExcept _) fun _ => ?_
  exact Keeps.ite (unapplied_keepWaiting h _) (unapplied_finish h _ _ _)

theorem unapplied_recover : Keeps Unapplied (recover h) := by
  refine Keeps.bind (Keeps.bind keeps_get fun _ => keeps_pure _) fun j => ?_
  split
  · exact keeps_pure _
  · exact Keeps.bind (unapplied_now h) fun _ => unapplied_finish h _ _ _
  · exact unapplied_finish h _ _ _
  · exact Keeps.tryCatch (unapplied_reexamine h) fun _ => unapplied_finish h _ _ _
  · exact Keeps.tryCatch (unapplied_reexamine h) fun _ => unapplied_finish h _ _ _

/-- What an execution has established when it comes to the write. -/
structure AtWrite (assignment : Job) (before : Object) (s : Run W) : Prop where
  unapplied : Unapplied s
  journal : s.journal.assignment = assignment ∧ s.journal.before = before
  state : s.journal.state = .intent
  writes : assignment.operation.readOnly = false
  valid : validObservation before = true

/-- What an approach leaves: no write yet, and at the write all that is established for it. -/
def Approached (assignment : Job) (a : Approach) (s : Run W) : Prop :=
  Unapplied s ∧ ∀ before, a = .ready before → AtWrite assignment before s

variable {assignment : Job}

theorem wp_settleEarly (hs : Unapplied s) :
    wp (settleEarly h status code observed) (Approached assignment) (fun _ => Unapplied) s := by
  unfold settleEarly
  rw [wp_bind]
  refine wp_mono (unapplied_finish h _ _ _ s hs) (fun a s' hs' => ?_) (fun _ _ hs' => hs')
  exact ⟨hs', fun before hb => nomatch hb⟩

variable {before : Object}

/-- The part of the approach behind the recorded intent. -/
theorem wp_beginWrite (hs : Unapplied s) (ha : s.journal.assignment = assignment)
    (hstate : s.journal.state = .intent) (hb : s.journal.before = before)
    (hv : validObservation before = true) :
    wp (beginWrite h assignment before) (Approached assignment) (fun _ => Unapplied) s := by
  have hready : assignment.operation.readOnly = false →
      wp (pure (.ready before) : Exec W Approach) (Approached assignment)
        (fun _ => Unapplied) s := by
    intro hwrites
    refine ⟨hs, fun before' hb' => ?_⟩
    cases hb'
    exact ⟨hs, ⟨ha, hb⟩, hstate, hwrites, hv⟩
  unfold beginWrite
  dsimp only
  rw [wp_ite]
  refine ⟨fun _ => ?_, fun hwrites => ?_⟩
  · rw [wp_bind]
    refine wp_call_of _ (fun after w => ?_) (fun _ _ => hs)
    rw [wp_bind, wp_ofExcept]
    refine ⟨fun met _ => ?_, fun _ _ => hs⟩
    rw [wp_ite]
    exact ⟨fun _ => wp_settleEarly h hs, fun _ => wp_settleEarly h hs⟩
  · have hwrites := (Bool.not_eq_true _).mp hwrites
    rw [wp_ite]
    refine ⟨fun _ => ?_, fun _ => ?_⟩
    · rw [wp_bind, wp_ofExcept]
      refine ⟨fun pending _ => ?_, fun _ _ => hs⟩
      rw [wp_ite]
      exact ⟨fun _ => wp_settleEarly h hs, fun _ => hready hwrites⟩
    · rw [wp_ite]
      refine ⟨fun _ => ?_, fun _ => hready hwrites⟩
      rw [wp_bind, wp_ofExcept]
      refine ⟨fun done _ => ?_, fun _ _ => hs⟩
      rw [wp_ite]
      exact ⟨fun _ => wp_settleEarly h hs, fun _ => hready hwrites⟩

/-- No write so far, and this journal in memory. -/
def Holding (j : Journal) (s : Run W) : Prop := Unapplied s ∧ s.journal = j

variable {j : Journal}

theorem holding_call {α : Type} (f : Call W α) : Keeps (Holding j) (call f) := by
  intro s hs
  exact wp_call_of f (fun _ _ => hs) (fun _ _ => hs)

theorem holding_save : Keeps (Holding j) (save h) := by
  refine Keeps.bind (keeps_modify fun _ hs => hs) fun _ => ?_
  refine Keeps.bind keeps_get fun _ => ?_
  exact Keeps.bind (holding_call _) fun _ => keeps_modify fun _ hs => hs

theorem holding_now : Keeps (Holding j) (now h) :=
  Keeps.bind keeps_get fun _ => keeps_pure _

theorem holding_stillGranted (assignment : Job) :
    Keeps (Holding j) (stillGranted h assignment) := by
  refine Keeps.bind (holding_call _) fun _ => ?_
  refine Keeps.ite (keeps_pure _) ?_
  exact Keeps.bind (holding_now h) fun _ => keeps_pure _

theorem holding_claimGranted (assignment : Job) :
    Keeps (Holding j) (claimGranted h assignment) := by
  refine Keeps.bind (holding_call _) fun _ => ?_
  exact Keeps.ite (keeps_pure _) (holding_stillGranted h assignment)

theorem wp_recordPhase {granted : Exec W Bool} {Q : Bool → Run W → Prop} (hs : Holding j s)
    (hgranted : Keeps (Holding j) granted) (hQ : ∀ b t, Holding j t → Q b t) :
    wp (save h >>= fun _ => granted) Q (fun _ => Unapplied) s := by
  rw [wp_bind]
  refine wp_mono (holding_save h s hs) (fun _ t ht => ?_) (fun _ _ ht => ht.1)
  exact wp_mono (hgranted t ht) (fun b u hu => hQ b u hu) (fun _ _ hu => hu.1)

theorem wp_approach (hs : Unapplied s) :
    wp (approach h) (Approached s.journal.assignment) (fun _ => Unapplied) s := by
  unfold approach
  rw [wp_bind, wp_journal, wp_bind]
  refine wp_call_of _ (fun before w => ?_) (fun _ _ => hs)
  rw [wp_bind, wp_update, wp_bind, wp_ofExcept]
  refine ⟨fun observed hobserved => ?_, fun _ _ => hs⟩
  have hv : validObservation before = true := by
    unfold validObservation
    rw [hobserved]
    rfl
  rw [wp_bind, wp_ofExcept]
  refine ⟨fun met _ => ?_, fun _ _ => hs⟩
  rw [wp_ite]
  refine ⟨fun _ => wp_settleEarly h hs, fun _ => ?_⟩
  rw [wp_bind]
  refine wp_call_of _ (fun authorized w => ?_) (fun _ _ => hs)
  rw [wp_ite]
  refine ⟨fun _ => wp_settleEarly h hs, fun _ => ?_⟩
  rw [wp_bind, wp_update, ← bind_assoc, wp_bind]
  refine wp_recordPhase h ⟨hs, rfl⟩ (holding_claimGranted h _) fun granted t ht => ?_
  rw [wp_ite]
  refine ⟨fun _ => wp_settleEarly h ht.1, fun _ => ?_⟩
  rw [wp_bind, wp_update, ← bind_assoc, wp_bind]
  refine wp_recordPhase h ⟨ht.1, rfl⟩ (holding_stillGranted h _) fun granted u hu => ?_
  rw [wp_ite]
  refine ⟨fun _ => wp_settleEarly h hu.1, fun _ => ?_⟩
  refine wp_beginWrite h hu.1 ?_ ?_ ?_ hv
  · rw [hu.2, ht.2]
  · rw [hu.2]
  · rw [hu.2, ht.2]

/-! ## The write and what follows it -/

/-- The receipt of a provider that failed. -/
def providerFailure : Receipt := ⟨.failed, "hgs_provider_failed", []⟩

/-- The failure of a journal is saved in this world. -/
def RecordsFailure (j : Journal) (w : W) : Prop :=
  ∃ w', h.save (j.finished providerFailure) w = (.ok (), w')

/-- The journal that waits for the reboot of a step. -/
def Journal.rebooting (j : Journal) : Journal :=
  { j with state := .rebootWait, outcome := some ⟨.rebootRequired, "hgs_reboot_required", j.before⟩ }

theorem result_of_valid (hr : r.valid = true) :
    result r.status r.resultCode r.observation = .ok r := result_eq_ok.mpr ⟨rfl, hr⟩

theorem validObservation_ne_nil {o : Object} (ho : validObservation o = true) : o ≠ [] := by
  rintro rfl
  exact absurd ho (by decide)

theorem result_of_invalid {o : Object} (hne : o ≠ []) (ho : validObservation o = false) :
    result status code o = .error contractInvalid := by
  unfold result
  refine if_neg ?_
  simp [Receipt.valid, ho, hne]

theorem receipt_valid_of_observation {status : Status} {code : String} {o : Object}
    (hcode : code ∈ resultCodes) (ho : validObservation o = true) :
    (⟨status, code, o⟩ : Receipt).valid = true := by
  have hne := validObservation_ne_nil ho
  simp [Receipt.valid, hcode, ho, hne]

/-- A success of a write has its postcondition, and a reboot is pending where one is required. -/
theorem writeVerdict_eq_ok {after : Object}
    (hv : writeVerdict assignment before after = .ok (status, code)) : code ∈ resultCodes ∧
      (status = .rebootRequired ∧ (stagesReboot assignment.operation = true ∨
          postcondition assignment before after = .ok true ∧
            flag after "reboot_pending" = .ok true) ∨
        status = .reconciliationRequired ∨
        status = .succeeded ∧ postcondition assignment before after = .ok true) := by
  unfold writeVerdict at hv
  rw [bind_eq_ok] at hv
  obtain ⟨staged, hstaged, hv⟩ := hv
  cases staged with
  | true =>
    cases hv
    refine ⟨by decide, .inl ⟨rfl, .inl ?_⟩⟩
    by_contra hno
    unfold stagedReboot at hstaged
    rw [if_neg hno] at hstaged
    cases hstaged
  | false =>
    simp only [Bool.false_eq_true, if_false] at hv
    rw [bind_eq_ok] at hv
    obtain ⟨met, hmet, hv⟩ := hv
    cases met with
    | false =>
      cases hv
      exact ⟨by decide, .inr (.inl rfl)⟩
    | true =>
      simp only [Bool.not_true, Bool.false_eq_true, if_false] at hv
      rw [bind_eq_ok] at hv
      obtain ⟨pending, hpending, hv⟩ := hv
      cases pending with
      | true =>
        cases hv
        exact ⟨by decide, .inl ⟨rfl, .inr ⟨hmet, hpending⟩⟩⟩
      | false =>
        cases hv
        exact ⟨by decide, .inr (.inr ⟨rfl, hmet⟩)⟩

theorem writeVerdict_invalid {assignment : Job} {before after : Object} {v : Status × String}
    (hv : writeVerdict assignment before after = .ok v) (hinvalid : validObservation after = false) :
    stagesReboot assignment.operation = true ∧ flag after "reboot_pending" = .ok true := by
  unfold writeVerdict stagedReboot at hv
  rw [bind_eq_ok] at hv
  obtain ⟨staged, hstaged, hv⟩ := hv
  cases staged with
  | true =>
    by_cases hop : stagesReboot assignment.operation = true
    · rw [if_pos hop] at hstaged
      exact ⟨hop, hstaged⟩
    · rw [if_neg hop] at hstaged
      cases hstaged
  | false =>
    simp only [Bool.false_eq_true, if_false] at hv
    rw [bind_eq_ok] at hv
    obtain ⟨met, hmet, _⟩ := hv
    unfold postcondition at hmet
    rw [bind_eq_ok] at hmet
    obtain ⟨o, ho, _⟩ := hmet
    unfold validObservation at hinvalid
    rw [ho] at hinvalid
    cases hinvalid

/-- The state behind a write that was invoked. -/
def Run.written (s : Run W) (w : W) : Run W :=
  { s with world := w, applied := true, recorded := [] }

theorem exec_apply_ok (happly : h.apply assignment s.world = (.ok (), w)) :
    exec (apply h assignment) s = (.ok (), s.written w) := by
  unfold apply
  rw [exec_bind, exec_modify]
  exact exec_call_ok (s := { s with applied := true, recorded := [] }) happly

theorem exec_apply_error (happly : h.apply assignment s.world = (.error e, w)) :
    exec (apply h assignment) s = (.error e, s.written w) := by
  unfold apply
  rw [exec_bind, exec_modify]
  exact exec_call_error (s := { s with applied := true, recorded := [] }) happly

theorem keepsWrite_finish (hrecorded : s.recorded = []) (hr : result status code observed = .ok r)
    (hu : Undenied (s.journal.finished r) r) :
    KeepsWrite (exec (finish h status code observed) s) := by
  intro _
  rcases hsave : h.save (s.journal.finished r) s.world with ⟨_ | _, w⟩
  · rw [exec_finish_unsaved h hr hsave]
    refine ⟨fun k hk => ?_, fun o ho => nomatch ho⟩
    rw [show ({ s with journal := _, world := w, saved := _ } : Run W).recorded = s.recorded from rfl,
      hrecorded] at hk
    exact absurd hk List.not_mem_nil
  · rw [exec_finish_saved h hr hsave]
    refine ⟨fun k hk => ?_, fun o ho => ?_⟩
    · simp only [hrecorded, List.nil_append, List.mem_singleton] at hk
      rw [hk]
      exact ⟨r, rfl, hu⟩
    · cases ho
      exact ⟨r, rfl, hu⟩

theorem keepsWrite_giveUp_intent (hrecorded : s.recorded = []) (hstate : s.journal.state = .intent)
    (hwrites : s.journal.assignment.operation.readOnly = false) :
    KeepsWrite (exec (giveUp h) s) := by
  have hrun : exec (giveUp h) s =
      exec (finish h .reconciliationRequired "hgs_reconciliation_required") s := by
    unfold giveUp
    rw [exec_bind, exec_journal]
    simp only [hstate, hwrites, Bool.not_false, and_self, if_true]
  rw [hrun]
  exact keepsWrite_finish h hrecorded (result_eq_ok.mpr ⟨rfl, by decide⟩) (.inr (.inr rfl))

/-- Behind the phase of a recorded intent the catch block reports a failure, which is recorded
exactly when its save returns. -/
theorem keepsWrite_giveUp_iff (happlied : s.applied = true) (hrecorded : s.recorded = [])
    (hstate : s.journal.state = .terminal ∨ s.journal.state = .rebootWait) :
    KeepsWrite (exec (giveUp h) s) ↔ ¬RecordsFailure h s.journal s.world := by
  have hrun : exec (giveUp h) s = exec (finish h .failed "hgs_provider_failed") s := by
    unfold giveUp
    rw [exec_bind, exec_journal]
    rcases hstate with hs | hs
    · simp [hs]
    · simp [hs]
  have hr : result .failed "hgs_provider_failed" [] = .ok providerFailure :=
    result_eq_ok.mpr ⟨rfl, by decide⟩
  rw [hrun]
  constructor
  · rintro hkeeps ⟨w, hsave⟩
    rw [exec_finish_saved h hr hsave] at hkeeps
    obtain ⟨r, hsome, hu⟩ := (hkeeps happlied).2 _ rfl
    cases hsome
    exact hu.not_failed rfl
  · intro hno _
    rcases hsave : h.save (s.journal.finished providerFailure) s.world with ⟨e | u, w⟩
    · rw [exec_finish_unsaved h hr hsave]
      refine ⟨fun k hk => ?_, fun o ho => nomatch ho⟩
      simp only [hrecorded, List.not_mem_nil] at hk
    · exact absurd ⟨w, hsave⟩ hno

/-- A save that throws while a reboot is asked for leaves the phase that waits for it. -/
theorem keepsWrite_reboot (happlied : s.applied = true) (hrecorded : s.recorded = [])
    (hvalid : validObservation s.journal.before = true) :
    KeepsWrite (exec (tryCatch (beginReboot h s.journal.before) fun _ => giveUp h) s) ↔
      ∀ e w, h.save s.journal.rebooting s.world = (.error e, w) →
        ¬RecordsFailure h s.journal w := by
  have hr : result .rebootRequired "hgs_reboot_required" s.journal.before =
      .ok ⟨.rebootRequired, "hgs_reboot_required", s.journal.before⟩ :=
    result_eq_ok.mpr ⟨rfl, receipt_valid_of_observation (by decide) hvalid⟩
  rcases hsave : h.save s.journal.rebooting s.world with ⟨e | u, w⟩
  · have hrun := exec_save_error (s := { s with journal := s.journal.rebooting }) hsave
    have hcatch : exec (tryCatch (beginReboot h s.journal.before) fun _ => giveUp h) s =
        exec (giveUp h) { s with
          journal := s.journal.rebooting
          world := w
          saved := s.saved ++ [s.journal.rebooting] } := by
      unfold beginReboot
      simp only [Journal.rebooting] at hrun ⊢
      simp only [exec_tryCatch, exec_bind, exec_update, exec_ofExcept, hr]
      rw [hrun]
    rw [hcatch]
    refine Iff.trans (keepsWrite_giveUp_iff h happlied hrecorded (.inr rfl)) ?_
    constructor
    · rintro hno e' w' heq
      cases heq
      exact hno
    · exact fun hno => hno e w rfl
  · have hrun := exec_save_ok (s := { s with journal := s.journal.rebooting }) hsave
    have hcatch : exec (tryCatch (beginReboot h s.journal.before) fun _ => giveUp h) s =
        (.ok (some ⟨.rebootRequired, "hgs_reboot_required", s.journal.before⟩), { s with
          journal := s.journal.rebooting
          world := w
          saved := s.saved ++ [s.journal.rebooting]
          recorded := s.recorded ++ [s.journal.rebooting] }) := by
      unfold beginReboot
      simp only [Journal.rebooting] at hrun ⊢
      simp only [exec_tryCatch, exec_bind, exec_update, exec_ofExcept, hr]
      rw [hrun]
      rfl
    rw [hcatch]
    refine ⟨fun _ e w' heq => (nomatch heq), fun _ _ => ⟨fun k hk => ?_, fun o ho => ?_⟩⟩
    · simp only [hrecorded, List.nil_append, List.mem_singleton] at hk
      rw [hk]
      exact ⟨_, rfl, .inr (.inl rfl)⟩
    · cases ho
      exact ⟨_, rfl, .inr (.inl rfl)⟩

/-- The answers behind a write that end in a recorded failure of a step other than a reboot:
an invalid observation that has a reboot pending, or a save of the outcome that throws, and
then a save of the failure that returns. -/
inductive LosesExamination (j : Journal) (w : W) : Prop where
  | observationInvalid {after : Object} {w₁ : W}
      (stages : stagesReboot j.assignment.operation = true)
      (observed : h.inspect j.assignment w = (.ok after, w₁))
      (pending : flag after "reboot_pending" = .ok true)
      (invalid : validObservation after = false) (failure : RecordsFailure h j w₁)
  | outcomeUnsaved {after : Object} {status : Status} {code : String} {e : Exn} {w₁ w₂ : W}
      (observed : h.inspect j.assignment w = (.ok after, w₁))
      (verdict : writeVerdict j.assignment j.before after = .ok (status, code))
      (valid : validObservation after = true)
      (unsaved : h.save (j.finished ⟨status, code, after⟩) w₁ = (.error e, w₂))
      (failure : RecordsFailure h j w₂)

theorem exec_examine {after : Object} (hinspect : h.inspect assignment s.world = (.ok after, w))
    (hv : writeVerdict assignment before after = .ok (status, code)) :
    exec (examine h assignment before) s =
      exec (finish h status code after) { s with world := w } := by
  unfold examine
  rw [exec_bind, exec_call_ok hinspect]
  dsimp only
  rw [exec_bind, exec_ofExcept, hv]

theorem keepsWrite_examine {s : Run W} (happlied : s.applied = true) (hrecorded : s.recorded = [])
    (hstate : s.journal.state = .intent)
    (hwrites : s.journal.assignment.operation.readOnly = false) :
    KeepsWrite (exec (tryCatch (examine h s.journal.assignment s.journal.before)
        fun _ => giveUp h) s) ↔ ¬LosesExamination h s.journal s.world := by
  rw [exec_tryCatch]
  constructor
  · rintro hkeeps (@⟨after, w, stages, observed, pending, invalid, failure⟩ |
      @⟨after, status, code, e, w, w', observed, verdict, valid, unsaved, failure⟩)
    · have hv : writeVerdict s.journal.assignment s.journal.before after =
          .ok (.rebootRequired, "hgs_reboot_required") := by
        unfold writeVerdict stagedReboot
        rw [if_pos stages, pending]
        rfl
      have hne : after ≠ [] := by
        rintro rfl
        cases pending
      rw [exec_examine h observed hv,
        exec_finish_invalid h (result_of_invalid hne invalid)] at hkeeps
      refine (keepsWrite_giveUp_iff h ?_ ?_ (.inl ?_)).mp hkeeps ?_
      · exact happlied
      · exact hrecorded
      · rfl
      · exact failure
    · have hr := result_of_valid
        (@receipt_valid_of_observation status _ _ (writeVerdict_eq_ok verdict).1 valid)
      rw [exec_examine h observed verdict, exec_finish_unsaved h hr unsaved] at hkeeps
      refine (keepsWrite_giveUp_iff h ?_ ?_ (.inl ?_)).mp hkeeps ?_
      · exact happlied
      · exact hrecorded
      · rfl
      · exact failure
  · intro hno
    rcases hinspect : h.inspect s.journal.assignment s.world with ⟨e | after, w⟩
    · have hrun : exec (examine h s.journal.assignment s.journal.before) s =
          (.error e, { s with world := w }) := by
        unfold examine
        rw [exec_bind, exec_call_error hinspect]
      rw [hrun]
      exact keepsWrite_giveUp_intent h hrecorded hstate hwrites
    · rcases hv : writeVerdict s.journal.assignment s.journal.before after with e | ⟨status, code⟩
      · have hrun : exec (examine h s.journal.assignment s.journal.before) s =
            (.error e, { s with world := w }) := by
          unfold examine
          rw [exec_bind, exec_call_ok hinspect]
          dsimp only
          rw [exec_bind, exec_ofExcept, hv]
        rw [hrun]
        exact keepsWrite_giveUp_intent h hrecorded hstate hwrites
      · rw [exec_examine h hinspect hv]
        obtain ⟨hcode, hstatus⟩ := writeVerdict_eq_ok hv
        cases valid : validObservation after with
        | false =>
          obtain ⟨stages, pending⟩ := writeVerdict_invalid hv valid
          have hne : after ≠ [] := by
            rintro rfl
            cases pending
          rw [exec_finish_invalid h (result_of_invalid hne valid)]
          refine (keepsWrite_giveUp_iff h ?_ ?_ (.inl ?_)).mpr fun failure => ?_
          · exact happlied
          · exact hrecorded
          · rfl
          · exact hno (.observationInvalid stages hinspect pending valid failure)
        | true =>
          have hvalid : (⟨status, code, after⟩ : Receipt).valid = true :=
            receipt_valid_of_observation hcode valid
          have hr := result_of_valid hvalid
          have hu : Undenied (s.journal.finished ⟨status, code, after⟩) ⟨status, code, after⟩ := by
            rcases hstatus with ⟨hs, _⟩ | hs | ⟨hs, hmet⟩
            · exact .inr (.inl hs)
            · exact .inr (.inr hs)
            · exact .inl ⟨hs, hmet⟩
          have hfinish := keepsWrite_finish h (s := { s with world := w }) hrecorded hr hu
          rcases hsave : h.save (s.journal.finished ⟨status, code, after⟩) w with ⟨e | u, w'⟩
          · rw [exec_finish_unsaved h hr hsave]
            refine (keepsWrite_giveUp_iff h ?_ ?_ (.inl ?_)).mpr fun failure => ?_
            · exact happlied
            · exact hrecorded
            · rfl
            · exact hno (.outcomeUnsaved hinspect hv valid hsave failure)
          · rw [exec_finish_saved h hr hsave] at hfinish ⊢
            exact hfinish

/-! ## Executions -/

/-- The answers from the write on that end in a recorded failure although the write returned. -/
inductive LosesWrite (j : Journal) (w : W) : Prop where
  | reboot {e : Exn} {w₁ w₂ : W} (reboots : j.assignment.operation = .reboot)
      (applied : h.apply j.assignment w = (.ok (), w₁))
      (unsaved : h.save j.rebooting w₁ = (.error e, w₂)) (failure : RecordsFailure h j w₂)
  | examination {w₁ : W} (reboots : j.assignment.operation ≠ .reboot)
      (applied : h.apply j.assignment w = (.ok (), w₁)) (loses : LosesExamination h j w₁)

/-- The write with the catch block around it. -/
theorem keepsWrite_write {assignment : Job} {before : Object} {s : Run W}
    (hs : AtWrite assignment before s) :
    KeepsWrite (exec (tryCatch (write h assignment before) fun _ => giveUp h) s) ↔
      ¬LosesWrite h s.journal s.world := by
  obtain ⟨rfl, rfl⟩ := hs.journal
  rcases happly : h.apply s.journal.assignment s.world with ⟨e | u, w⟩
  · have hrun : exec (tryCatch (write h s.journal.assignment s.journal.before)
        fun _ => giveUp h) s = exec (giveUp h) (s.written w) := by
      unfold write
      rw [exec_tryCatch, exec_bind, exec_apply_error h happly]
    have hkeeps := keepsWrite_giveUp_intent h (s := s.written w) rfl hs.state hs.writes
    rw [hrun]
    refine iff_of_true hkeeps ?_
    rintro (⟨_, applied, _⟩ | ⟨_, applied, _⟩)
    · rw [happly] at applied
      cases applied
    · rw [happly] at applied
      cases applied
  · by_cases hop : s.journal.assignment.operation = .reboot
    · have hrun : exec (tryCatch (write h s.journal.assignment s.journal.before)
          fun _ => giveUp h) s =
          exec (tryCatch (beginReboot h s.journal.before) fun _ => giveUp h) (s.written w) := by
        unfold write
        rw [if_pos hop, exec_tryCatch, exec_bind, exec_apply_ok h happly,
          exec_tryCatch]
      have hreboot := keepsWrite_reboot h (s := s.written w) rfl rfl hs.valid
      rw [hrun]
      refine Iff.trans hreboot ?_
      constructor
      · rintro hno (⟨_, applied, unsaved, failure⟩ | ⟨reboots, _, _⟩)
        · rw [happly] at applied
          cases applied
          exact hno _ _ unsaved failure
        · exact reboots hop
      · intro hno e w' unsaved failure
        exact hno (.reboot hop happly unsaved failure)
    · have hrun : exec (tryCatch (write h s.journal.assignment s.journal.before)
          fun _ => giveUp h) s = exec (tryCatch
            (examine h s.journal.assignment s.journal.before) fun _ => giveUp h) (s.written w) := by
        unfold write
        rw [if_neg hop, exec_tryCatch, exec_bind, exec_apply_ok h happly,
          exec_tryCatch]
      have hexamine := keepsWrite_examine h (s := s.written w) rfl rfl hs.state hs.writes
      rw [hrun]
      refine Iff.trans hexamine (not_congr ?_)
      constructor
      · exact fun loses => .examination hop happly loses
      · rintro (⟨reboots, _, _, _⟩ | ⟨_, applied, loses⟩)
        · exact absurd reboots hop
        · rw [happly] at applied
          cases applied
          exact loses

theorem keepsWrite_of_unapplied {p : Except Exn (Option Receipt) × Run W} (hp : Unapplied p.2) :
    KeepsWrite p := by
  intro happlied
  rw [show p.2.applied = false from hp] at happlied
  cases happlied

/-- A fresh execution keeps the write exactly when no answer from the write on loses it. -/
theorem keepsWrite_attempt (hs : Unapplied s) :
    KeepsWrite (exec (tryCatch (attempt h) fun _ => giveUp h) s) ↔
      ∀ before t, (approach h).exec s = (.ok (.ready before), t) →
        ¬LosesWrite h t.journal t.world := by
  have hwp := wp_approach h hs
  unfold wp at hwp
  rcases hrun : (approach h).exec s with ⟨e | a, t⟩
  · rw [hrun] at hwp
    have hcatch : exec (tryCatch (attempt h) fun _ => giveUp h) s =
        exec (giveUp h) t := by
      unfold attempt
      rw [exec_tryCatch, exec_bind, hrun]
    rw [hcatch]
    refine iff_of_true (keepsWrite_of_unapplied ?_) fun _ _ heq => nomatch heq
    exact (unapplied_giveUp h).after hwp rfl
  · rw [hrun] at hwp
    cases a with
    | settled outcome =>
      have hcatch : exec (tryCatch (attempt h) fun _ => giveUp h) s = (.ok outcome, t) := by
        unfold attempt
        rw [exec_tryCatch, exec_bind, hrun]
        rfl
      rw [hcatch]
      exact iff_of_true (keepsWrite_of_unapplied hwp.1) fun _ _ heq => nomatch heq
    | ready before =>
      have hat := hwp.2 before rfl
      have hcatch : exec (tryCatch (attempt h) fun _ => giveUp h) s =
          exec (tryCatch (write h s.journal.assignment before) fun _ => giveUp h) t := by
        unfold attempt
        rw [exec_tryCatch, exec_bind, hrun]
        dsimp only
        rw [exec_bind, exec_journal, exec_tryCatch]
        dsimp only
        rw [hat.journal.1]
      rw [hcatch, keepsWrite_write h hat]
      constructor
      · rintro hno before' t' heq
        cases heq
        exact hno
      · exact fun hno => hno before t rfl

theorem exec_execute (s : Run W) :
    (execute h).exec s = match s.journal.state with
      | .terminal => (.ok s.journal.outcome, s)
      | .prepared =>
        if unexpired s.journal.assignment (h.now s.world) then
          exec (tryCatch (attempt h) fun _ => giveUp h) s
        else exec (finish h .failed "hgs_job_expired") s
      | _ => (recover h).exec s := by
  unfold execute
  rw [exec_bind, exec_journal]
  dsimp only
  cases hstate : s.journal.state with
  | prepared =>
    dsimp only
    rw [exec_bind, exec_now]
    cases hlive : unexpired s.journal.assignment (h.now s.world) with
    | true => simp only [hlive, Bool.not_true, Bool.false_eq_true, if_false, if_true]
    | false => simp only [hlive, Bool.not_false, Bool.false_eq_true, if_false, if_true]
  | terminal | claiming | intent | rebootWait => rfl

/-! ## Recovering a recorded intent -/

/-- The journal has the assignment and the observation of `j`, and nothing recorded denies
the write. -/
structure Undenying (j : Journal) (s : Run W) : Prop where
  assignment : s.journal.assignment = j.assignment
  before : s.journal.before = j.before
  recorded : RecordsUndenied s

theorem wp_save_undenied (hs : Undenying j s) (hr : s.journal.outcome = some r)
    (hu : Undenied s.journal r) :
    wp (save h >>= fun _ => (pure (some r) : Exec W (Option Receipt)))
      (fun o t => Undenying j t ∧ ∃ r, o = some r ∧ Undenied t.journal r)
      (fun _ => Undenying j) s := by
  unfold save
  simp only [wp_bind, wp_modify, wp_get]
  refine wp_call_of _ (fun _ w => ⟨⟨hs.assignment, hs.before, fun k hk => ?_⟩, r, rfl, hu⟩)
    (fun _ w => ⟨hs.assignment, hs.before, hs.recorded⟩)
  rcases List.mem_append.mp hk with hk | hk
  · exact hs.recorded k hk
  · rw [List.mem_singleton.mp hk]
    exact ⟨r, hr, hu⟩

theorem wp_finish_undenied (hs : Undenying j s) (hu : Undenied s.journal ⟨status, code, observed⟩) :
    wp (finish h status code observed)
      (fun o t => Undenying j t ∧ ∃ r, o = some r ∧ Undenied t.journal r)
      (fun _ => Undenying j) s := by
  unfold finish
  rw [wp_bind, wp_update, wp_bind, wp_ofExcept]
  refine ⟨fun r hr => ?_, fun _ _ => ⟨hs.assignment, hs.before, hs.recorded⟩⟩
  obtain ⟨rfl, _⟩ := result_eq_ok.mp hr
  rw [wp_bind, wp_update]
  exact wp_save_undenied h ⟨hs.assignment, hs.before, hs.recorded⟩ rfl hu

/-- A mutating step whose intent is recorded is proven, waits for a reboot or is reconciled. -/
theorem wp_recover_undenied (hrecorded : s.recorded = [])
    (hstate : s.journal.state = .intent ∨ s.journal.state = .rebootWait)
    (hwrites : s.journal.assignment.operation.readOnly = false) :
    wp (recover h) (fun o t => Undenying s.journal t ∧ ∃ r, o = some r ∧ Undenied t.journal r)
      (fun _ => Undenying s.journal) s := by
  have hstart : Undenying s.journal s := ⟨rfl, rfl, fun k hk => by
    rw [hrecorded] at hk
    exact absurd hk List.not_mem_nil⟩
  have hunproven : unprovenStatus s.journal.assignment.operation = .reconciliationRequired := by
    unfold unprovenStatus
    rw [hwrites]
    rfl
  have hreexamine : wp (reexamine h)
      (fun o t => Undenying s.journal t ∧ ∃ r, o = some r ∧ Undenied t.journal r)
      (fun _ => Undenying s.journal) s := by
    unfold reexamine
    rw [wp_bind, wp_journal, wp_bind]
    refine wp_call_of _ (fun after w => ?_) (fun _ w => ⟨rfl, rfl, hstart.recorded⟩)
    have hs' : Undenying s.journal { s with world := w } := ⟨rfl, rfl, hstart.recorded⟩
    rw [wp_bind, wp_ofExcept]
    refine ⟨fun _ _ => ?_, fun _ _ => hs'⟩
    rw [wp_bind, wp_ofExcept]
    refine ⟨fun met hmet => ?_, fun _ _ => hs'⟩
    rw [wp_ite]
    refine ⟨fun htrue => ?_, fun _ => ?_⟩
    · subst htrue
      unfold finishObserved
      rw [if_neg (by rw [hwrites]; decide), wp_bind, wp_ofExcept]
      refine ⟨fun pending _ => wp_finish_undenied h hs' ?_, fun _ _ => hs'⟩
      cases pending with
      | true => exact .inr (.inl rfl)
      | false => exact .inl ⟨rfl, hmet⟩
    · rw [wp_bind, wp_now, wp_bind, wp_ofExcept]
      refine ⟨fun waits _ => ?_, fun _ _ => hs'⟩
      rw [wp_ite]
      refine ⟨fun _ => ?_, fun _ => wp_finish_undenied h hs' (.inr (.inr hunproven))⟩
      unfold keepWaiting
      rw [wp_bind, wp_ofExcept]
      refine ⟨fun r hr => ?_, fun _ _ => hs'⟩
      obtain ⟨rfl, _⟩ := result_eq_ok.mp hr
      rw [wp_bind, wp_update]
      exact wp_save_undenied h ⟨rfl, rfl, hstart.recorded⟩ rfl (.inr (.inl rfl))
  unfold recover
  rw [wp_bind, wp_journal]
  have hcatch : ∀ (_ : Exn) (t : Run W), Undenying s.journal t → ∀ code,
      wp (finish h (unprovenStatus s.journal.assignment.operation) code)
        (fun o t => Undenying s.journal t ∧ ∃ r, o = some r ∧ Undenied t.journal r)
        (fun _ => Undenying s.journal) t :=
    fun _ t ht code => wp_finish_undenied h ht (.inr (.inr hunproven))
  rcases hstate with hs | hs
  · rw [hs]
    dsimp only
    rw [wp_tryCatch]
    exact wp_mono hreexamine (fun _ _ hq => hq) (fun e t ht => hcatch e t ht _)
  · rw [hs]
    dsimp only
    rw [wp_tryCatch]
    exact wp_mono hreexamine (fun _ _ hq => hq) (fun e t ht => hcatch e t ht _)

theorem recover_reportsUndenied (hrecorded : s.recorded = [])
    (hstate : s.journal.state = .intent ∨ s.journal.state = .rebootWait)
    (hwrites : s.journal.assignment.operation.readOnly = false) :
    ReportsUndenied ((recover h).exec s) := by
  have hwp := wp_recover_undenied h hrecorded hstate hwrites
  unfold wp at hwp
  rcases hrun : (recover h).exec s with ⟨e | o, t⟩
  · rw [hrun] at hwp
    exact ⟨hwp.recorded, fun _ ho => nomatch ho⟩
  · rw [hrun] at hwp
    refine ⟨hwp.1.recorded, fun o' ho' => ?_⟩
    cases ho'
    exact hwp.2

/-- An execution keeps the provider's write, so that what it records and returns from the
write on is a proven success, a reboot still to come or a reconciliation, exactly when no
save behind the recorded intent throws and no invalid observation asks for a reboot before a
failure that can be saved.  A write that an earlier run left behind is never denied. -/
theorem execute_keepsWrite_iff (j : Journal) (w : W) :
    (KeepsWrite ((execute h).exec (Run.start j w)) ↔
      ∀ before s, j.state = .prepared → unexpired j.assignment (h.now w) = true →
        (approach h).exec (Run.start j w) = (.ok (.ready before), s) →
          ¬LosesWrite h s.journal s.world) ∧
    (j.state = .intent ∨ j.state = .rebootWait → j.assignment.operation.readOnly = false →
      ReportsUndenied ((execute h).exec (Run.start j w))) := by
  have hstart : Unapplied (Run.start j w) := rfl
  have hrun := exec_execute h (Run.start j w)
  have hrecover := (unapplied_recover h).after hstart (Prod.eta _).symm
  rw [show (Run.start j w).journal = j from rfl, show (Run.start j w).world = w from rfl] at hrun
  rw [hrun]
  constructor
  · cases hstate : j.state with
    | terminal => exact iff_of_true (keepsWrite_of_unapplied hstart) fun _ _ hp => nomatch hp
    | prepared =>
      cases hlive : unexpired j.assignment (h.now w) with
      | true =>
        refine Iff.trans (keepsWrite_attempt h hstart) ?_
        exact ⟨fun hno b s _ _ => hno b s, fun hno b s => hno b s rfl rfl⟩
      | false =>
        refine iff_of_true (keepsWrite_of_unapplied ?_) fun _ _ _ hl => nomatch hl
        exact (unapplied_finish h _ _ _).after hstart (Prod.eta _).symm
    | claiming | intent | rebootWait =>
      exact iff_of_true (keepsWrite_of_unapplied hrecover) fun _ _ hp => nomatch hp
  · intro hstate hwrites
    have hreports := recover_reportsUndenied h (s := Run.start j w) rfl hstate hwrites
    rcases hstate with hs | hs
    · rw [hs]
      exact hreports
    · rw [hs]
      exact hreports

end

/-- A host whose third save throws, over the number of saves. -/
def thirdSaveThrows : Host Nat where
  inspect _ := fun n => (.ok (sampleObservation true), n)
  apply _ := fun n => (.ok (), n)
  save _ := fun n => (if n = 2 then .error contractInvalid else .ok (), n + 1)
  claim := fun n => (.ok true, n)
  authority := fun n => (.ok true, n)
  now _ := 0

/-- The run of a sample reboot on that host. -/
def rebootRun : Except Exn (Option Receipt) × Run Nat :=
  (execute thirdSaveThrows).exec (Run.start { assignment := sampleJob .reboot } 0)

/-- A run invoked the write and returned a failure. -/
def returnsFailure (p : Except Exn (Option Receipt) × Run Nat) : Bool :=
  p.2.applied && match p.1 with
    | .ok (some r) => r.status == .failed
    | _ => false

theorem returnsFailure_denies {p : Except Exn (Option Receipt) × Run Nat}
    (hp : returnsFailure p = true) : ¬KeepsWrite p := by
  unfold returnsFailure at hp
  rw [Bool.and_eq_true] at hp
  obtain ⟨happlied, hfailed⟩ := hp
  intro hkeeps
  split at hfailed
  · rename_i r hr
    obtain ⟨r', hsome, hu⟩ := (hkeeps happlied).2 _ hr
    cases hsome
    exact hu.not_failed (eq_of_beq hfailed)
  · cases hfailed

/-- The reboot was asked for, its waiting phase could not be saved, and a failure is returned. -/
theorem reboot_denied : (sampleJob .reboot).valid = true ∧ ¬KeepsWrite rebootRun :=
  ⟨by decide +kernel, returnsFailure_denies (by decide +kernel)⟩

end Ipms.Agent.Hgs
