import Ipms.Agent.Gpo.Managed

/-
  Ipms.Agent.Gpo.Outcome

  What an execution returns once it may have written the directory: a proven
  success or a reconciliation, never a failure.  The write intent is recorded
  before the first write and is never taken back, so the catch block knows.
-/

namespace Ipms.Agent.Gpo

open Ipms.Lib Ipms.ManagementJson Exec
open Prog (Keeps Returns keeps_get keeps_modify keeps_ofExcept keeps_pure keeps_throwIf wp_and wp_bind wp_mono)

section
variable {W : Type} (catalog : Catalog) (h : Host W)

/-- No write was invoked so far. -/
def Untouched (s : Run W) : Prop := s.mutations = []

/-- The write intent is recorded. -/
def Writing (s : Run W) : Prop := s.writeIntent = true

/-! ## What the parts of an execution keep -/

/-- A property that says nothing about the world. -/
def WorldFree (I : Run W → Prop) : Prop := ∀ s w, I s → I { s with world := w }

namespace WorldFree

variable {I : Run W → Prop}

theorem requireAuthority (hI : WorldFree I) : Keeps I (requireAuthority h) :=
  Keeps.bind (keeps_call hI _) fun _ => keeps_throwIf _

theorem takeBackup (hI : WorldFree I) (j : ManagedJob) : Keeps I (takeBackup h j) := by
  refine Keeps.ite ?_ (keeps_pure _)
  refine Keeps.bind (keeps_call hI _) fun _ => ?_
  exact Keeps.bind (keeps_throwIf _) fun _ => keeps_pure _

theorem prepareWrite (hI : WorldFree I) (j : ManagedJob) :
    Keeps I (prepareWrite catalog h j) := by
  refine Keeps.bind (Keeps.bind keeps_get fun _ => keeps_pure _) fun _ => ?_
  refine Keeps.bind (keeps_ofExcept _) fun _ => ?_
  refine Keeps.bind (hI.requireAuthority h) fun _ => ?_
  refine Keeps.bind (keeps_call hI _) fun _ => ?_
  refine Keeps.bind (keeps_ofExcept _) fun _ => ?_
  refine Keeps.bind (keeps_throwIf _) fun _ => ?_
  refine Keeps.bind (Keeps.ite (keeps_call hI _) (keeps_pure _)) fun _ => ?_
  refine Keeps.bind (hI.takeBackup h j) fun _ => ?_
  refine Keeps.bind (keeps_call hI _) fun _ => ?_
  refine Keeps.bind (keeps_throwIf _) fun _ => ?_
  refine Keeps.bind (hI.requireAuthority h) fun _ => ?_
  exact Keeps.bind (keeps_call hI _) fun _ => keeps_pure _

end WorldFree

/-- A property that does not depend on the journal, the world or what was saved. -/
structure Stable (I : Run W → Prop) : Prop where
  world : WorldFree I
  journal : ∀ s j, I s → I { s with journal := j }
  saved : ∀ s l, I s → I { s with saved := l }

theorem stable_untouched : Stable (Untouched (W := W)) :=
  ⟨fun _ _ h => h, fun _ _ h => h, fun _ _ h => h⟩

theorem stable_writing : Stable (Writing (W := W)) :=
  ⟨fun _ _ h => h, fun _ _ h => h, fun _ _ h => h⟩

namespace Stable

variable {I : Run W → Prop}

theorem update (hI : Stable I) (f : Journal → Journal) :
    Keeps I (update f : Exec W Unit) := keeps_modify fun s => hI.journal s _

theorem save (hI : Stable I) : Keeps I (save h) := by
  refine Keeps.bind (keeps_modify fun s => hI.saved s _) fun _ => ?_
  exact Keeps.bind keeps_get fun r => keeps_call hI.world _

theorem terminal (hI : Stable I) (j : ManagedJob) (status : Status) (code : String)
    (state : Snapshot) (backup : String × String) :
    Keeps I (terminal h j status code state backup) := by
  refine Keeps.bind (hI.update _) fun _ => ?_
  refine Keeps.bind (keeps_ofExcept _) fun r => ?_
  refine Keeps.bind (hI.update _) fun _ => ?_
  exact Keeps.bind (hI.save h) fun _ => keeps_pure r

theorem recordFailure (hI : Stable I) (phase : Phase) (r : Receipt) :
    Keeps I (recordFailure h phase r) := by
  refine Keeps.bind (hI.update _) fun _ => ?_
  exact Keeps.bind (hI.save h) fun _ => keeps_pure r

theorem finish (hI : Stable I) (j : ManagedJob) (state : Snapshot) (guid : String)
    (backup : String × String) : Keeps I (finish catalog h j state guid backup) := by
  refine Keeps.bind (keeps_call hI.world _) fun _ => ?_
  split
  · refine Keeps.bind (keeps_ofExcept _) fun _ => ?_
    refine Keeps.bind (keeps_throwIf _) fun _ => ?_
    exact Keeps.bind (keeps_ofExcept _) fun _ => hI.terminal h _ _ _ _ _
  all_goals
    refine Keeps.bind (keeps_ofExcept _) fun _ => ?_
    exact Keeps.bind (keeps_ofExcept _) fun _ => hI.terminal h _ _ _ _ _

end Stable

theorem writing_mutate {α : Type} (m : Mutation) (f : Call W α) :
    Keeps Writing (mutate m f) :=
  Keeps.bind (keeps_modify fun _ hs => hs) fun _ =>
    keeps_call stable_writing.world _

theorem writing_importContent (j : ManagedJob) (adoption : Bool) (guid : String) :
    Keeps Writing (importContent h j adoption guid) :=
  Keeps.ite (writing_mutate _ _) (Keeps.ite (writing_mutate _ _) (keeps_pure _))

theorem writing_writePolicy (j : ManagedJob) (adoption : Bool) (state : Snapshot) (guid : String) :
    Keeps Writing (writePolicy h j adoption state guid) := by
  have hI := stable_writing (W := W)
  unfold writePolicy
  split
  · exact writing_importContent h j adoption guid
  · refine Keeps.bind (writing_importContent h j adoption guid) fun _ => ?_
    refine Keeps.bind (keeps_call hI.world _) fun _ => ?_
    refine Keeps.bind (keeps_ofExcept _) fun _ => ?_
    refine Keeps.bind (hI.save h) fun _ => ?_
    exact Keeps.bind (hI.world.requireAuthority h) fun _ => writing_mutate _ _
  all_goals exact writing_mutate _ _

/-! ## What a success means -/

/-- A success of `j` from the approved state: the postconditions hold of the state in its
evidence, and status and code are the operation's own. -/
def Succeeded (j : ManagedJob) (r : Receipt) : Prop :=
  ∃ (before after : Snapshot) (backup : String × String), j.expectedState = some before ∧
    postconditionsHold catalog j before after = true ∧
    successOutcome j.operation = some (r.status, r.resultCode) ∧
    r.evidence = .managed (managedEvidence j after backup.1 backup.2)

theorem Receipt.outcome_of_valid {r : Receipt} {e : ManagedEvidence} (hv : r.valid = true)
    (he : r.evidence = .managed e) : successOutcome e.operation = some (r.status, r.resultCode) := by
  unfold Receipt.valid at hv
  rw [he] at hv
  simp only [validManagedResult, Bool.and_eq_true, beq_iff_eq] at hv
  exact hv.2.1.1.1.2

theorem terminal_returns (j : ManagedJob) (status : Status) (code : String) (state : Snapshot)
    (backup : String × String) (s : Run W) :
    Returns (fun r s' => r.valid = true ∧ s'.journal.state = .terminal ∧
        s'.journal.result = some r ∧
        r.evidence = .managed (managedEvidence j state backup.1 backup.2))
      (terminal h j status code state backup) s := by
  refine Returns.bind fun _ t _ => Returns.bind fun r t hr => ?_
  obtain ⟨hok, rfl⟩ := Prog.exec_ofExcept_eq_ok.mp hr
  obtain ⟨rfl, hv⟩ := result_eq_ok.mp hok
  refine Returns.bind fun _ t ht => Returns.bind fun _ t' hsave => ?_
  cases ht
  have hjournal : t'.journal = _ := (save_keeps_journal h).after rfl hsave
  refine Returns.pure ⟨hv, ?_, ?_, rfl⟩
  · rw [hjournal]
  · rw [hjournal]

theorem postconditions_eq_ok {j : ManagedJob} {before s : Snapshot} {after : Value}
    (hp : postconditions catalog j before after = .ok s) :
    postconditionsHold catalog j before s = true ∧ validSnapshot after = some s := by
  unfold postconditions at hp
  cases hf : (validSnapshot after).filter (postconditionsHold catalog j before) with
  | none => rw [hf] at hp; exact nomatch hp
  | some s' =>
    rw [hf] at hp
    cases hp
    obtain ⟨hs, hh⟩ := Option.filter_eq_some_iff.mp hf
    exact ⟨hh, hs⟩

/-- What a success leaves: a proven receipt in a terminal journal. -/
def Proven (j : ManagedJob) (r : Receipt) (s : Run W) : Prop :=
  Succeeded catalog j r ∧ s.journal.state = .terminal ∧ s.journal.result = some r

theorem verified_returns (j : ManagedJob) (status : Status) (code : String) (state : Snapshot)
    (after : Value) (backup : String × String) (s : Run W) (hexp : j.expectedState = some state) :
    Returns (Proven catalog j) (do
      let t ← Prog.ofExcept (postconditions catalog j state after)
      terminal h j status code t backup : Exec W Receipt) s := by
  refine Returns.bind fun t s' ht => ?_
  obtain ⟨hok, rfl⟩ := Prog.exec_ofExcept_eq_ok.mp ht
  refine wp_mono (terminal_returns h j status code t backup s) ?_ (fun _ _ _ => trivial)
  rintro r s' ⟨hv, hphase, hresult, hevidence⟩
  have hpost := (postconditions_eq_ok catalog hok).1
  exact ⟨⟨state, t, backup, hexp, hpost, Receipt.outcome_of_valid hv hevidence, hevidence⟩,
    hphase, hresult⟩

theorem finish_returns (j : ManagedJob) (state : Snapshot) (guid : String)
    (backup : String × String) (s : Run W) (hexp : j.expectedState = some state) :
    Returns (Proven catalog j) (finish catalog h j state guid backup) s := by
  have hverified := fun status code after s =>
    verified_returns catalog h j status code state after backup s hexp
  refine Returns.bind fun after t _ => ?_
  split
  · exact Returns.bind fun _ _ _ => Returns.bind fun _ _ _ => hverified _ _ _ _
  all_goals exact Returns.bind fun _ _ _ => hverified _ _ _ _

/-! ## The execution -/

theorem prepareWrite_returns (j : ManagedJob) (s : Run W) :
    Returns (fun a _ => j.expectedState = some a.1) (prepareWrite catalog h j) s := by
  refine Returns.bind fun _ _ _ => Returns.bind fun _ _ _ => ?_
  refine Returns.bind fun _ _ _ => Returns.bind fun _ _ _ => ?_
  refine Returns.bind fun state _ _ => Returns.bind fun _ _ hexp => ?_
  have hexp := (Prog.exec_throwIf_eq_ok.mp hexp).1
  refine Returns.bind fun _ _ _ => Returns.bind fun _ _ _ => ?_
  refine Returns.bind fun _ _ _ => Returns.bind fun _ _ _ => ?_
  refine Returns.bind fun _ _ _ => Returns.bind fun _ _ _ => ?_
  exact Returns.pure (not_not.mp hexp)

/-- Opening the policy records the intent before anything is written. -/
theorem openPolicy_spec (j : ManagedJob) (s : Run W) (hs : Untouched s) :
    (openPolicy h j).wp (fun _ => Writing) (fun _ s' => Untouched s' ∨ Writing s') s := by
  have hU := stable_untouched (W := W)
  have hW := stable_writing (W := W)
  have hlift : ∀ {α : Type} {p : Exec W α} {t : Run W}, Keeps Untouched p → Untouched t →
      p.wp (fun _ => Untouched) (fun _ s' => Untouched s' ∨ Writing s') t :=
    fun hp ht => wp_mono (hp _ ht) (fun _ _ h' => h') (fun _ _ h' => .inl h')
  unfold openPolicy
  rw [wp_bind]
  refine wp_mono (hlift (hU.update _) hs) (fun _ t ht => ?_) (fun _ _ h' => h')
  rw [wp_bind]
  refine wp_mono (hlift (hU.save h) ht) (fun _ t _ => ?_) (fun _ _ h' => h')
  rw [wp_bind, Prog.wp_modify]
  -- From here on every step keeps the recorded intent.
  have hrest : Keeps Writing (do
      requireAuthority h
      let guid ← createOrOpen h j
      update fun r => { r with gpoGuid := guid }
      throwIf (!validUuid guid || protectedGpo guid) verificationFailed
      update fun r => { r with state := .created }
      save h
      update fun r => { r with state := .importing }
      save h
      pure guid : Exec W String) := by
    refine Keeps.bind (hW.world.requireAuthority h) fun _ => ?_
    refine Keeps.bind (Keeps.ite (writing_mutate _ _) (keeps_pure _)) fun guid => ?_
    refine Keeps.bind (hW.update _) fun _ => Keeps.bind (keeps_throwIf _) fun _ => ?_
    refine Keeps.bind (hW.update _) fun _ => Keeps.bind (hW.save h) fun _ => ?_
    refine Keeps.bind (hW.update _) fun _ => Keeps.bind (hW.save h) fun _ => ?_
    exact keeps_pure _
  exact wp_mono (hrest _ rfl) (fun _ _ h' => h') (fun _ _ h' => .inr h')

/-- The body returns a success, or throws before any write or with the intent recorded; it
returns without a proof of success only when nothing was written. -/
theorem executeBody_spec (j : ManagedJob) (s : Run W) (hs : Untouched s) :
    (executeBody catalog h j).wp (fun r s' => Untouched s' ∨ Proven catalog j r s')
      (fun _ s' => Untouched s' ∨ Writing s') s := by
  have hU := stable_untouched (W := W)
  unfold executeBody
  rw [wp_bind]
  have hprepared := wp_and (prepareWrite_returns catalog h j s)
    (hU.world.prepareWrite catalog h j s hs)
  refine wp_mono hprepared ?_ (fun _ _ h' => .inl h'.2)
  rintro ⟨state, backup⟩ t ⟨hexp, ht⟩
  refine (Prog.wp_ite _ _).mpr ⟨fun _ => ?_, fun _ => ?_⟩
  · exact wp_mono (hU.terminal h j _ _ _ _ t ht) (fun _ _ h' => .inl h') (fun _ _ h' => .inl h')
  rw [wp_bind]
  refine wp_mono (openPolicy_spec h j t ht) (fun guid u hu => ?_) (fun _ _ h' => h')
  rw [wp_bind]
  refine wp_mono (writing_writePolicy h j _ _ _ u hu) (fun _ v hv => ?_) (fun _ _ h' => .inr h')
  have hfinish := (stable_writing (W := W)).finish catalog h j state guid backup v hv
  exact wp_mono (wp_and (finish_returns catalog h j state guid backup v hexp) hfinish) (fun _ _ h' => .inr h'.1) (fun _ _ h' => .inr h'.2)

theorem failureResult_status {status : Status} {e : Exn} {guid : String} {r : Receipt}
    (hr : failureResult status e guid = .ok r) : r.status = status := by
  unfold failureResult at hr
  cases hw : result status e.what guid with
  | ok r' =>
    rw [hw] at hr
    cases hr
    rw [(result_eq_ok.mp hw).1]
  | error _ =>
    rw [hw] at hr
    rw [(result_eq_ok.mp hr).1]

/-- What a recorded reconciliation leaves. -/
def Reconciling (r : Receipt) (s : Run W) : Prop :=
  r.status = .requiresReconciliation ∧ s.journal.state = .reconciliation ∧
    s.journal.result = some r

theorem executeFailed_returns (e : Exn) (s : Run W) (hs : Writing s) :
    Returns Reconciling (executeFailed h e) s := by
  refine Returns.bind fun run t hrun => ?_
  cases hrun
  have hintent : s.writeIntent = true := hs
  refine Returns.bind fun r t hr => ?_
  obtain ⟨hok, rfl⟩ := Prog.exec_ofExcept_eq_ok.mp hr
  rw [hintent] at hok
  have hstatus := failureResult_status hok
  rw [hintent]
  refine Returns.bind fun _ t ht => Returns.bind fun _ t' hsave => ?_
  cases ht
  have hjournal := (save_keeps_journal h).after rfl hsave
  refine Returns.pure ⟨hstatus, ?_, ?_⟩
  · rw [hjournal]
    rfl
  · rw [hjournal]

theorem untouched_executeFailed (e : Exn) : Keeps Untouched (executeFailed (W := W) h e) := by
  refine Keeps.bind keeps_get fun _ => ?_
  refine Keeps.bind (keeps_ofExcept _) fun _ => ?_
  exact stable_untouched.recordFailure h _ _

/-- For every journal, provider, world and answer: if an execution that returns has invoked a
write, then it returns a success whose state meets the postconditions, recorded in a terminal
journal, or it returns a reconciliation. -/
theorem executeManaged_write_outcome (journal : Journal) (world : W) :
    Prog.Returns (fun r s' => s'.mutations ≠ [] →
        Reconciling r s' ∨ ∃ j, journal.assignment = .managed j ∧ Proven catalog j r s')
      (executeManaged catalog h) (Run.start journal world) := by
  have hstart : Untouched (Run.start journal world) := rfl
  refine Returns.bind fun journal' t ht => ?_
  cases ht
  split
  · exact Prog.returns_throw _
  rename_i j hj
  refine Returns.bind fun _ t ht => ?_
  obtain ⟨_, rfl⟩ := Prog.exec_throwIf_eq_ok.mp ht
  by_cases hdone : (Run.start journal world).journal.state.completed = true
  · simp only [hdone, if_true]
    split
    · exact Returns.pure fun hm => absurd rfl hm
    · exact Prog.returns_throw _
  simp only [hdone, Bool.false_eq_true, if_false]
  refine Returns.bind fun _ t ht => Returns.bind fun _ u hu => ?_
  obtain ⟨_, rfl⟩ := Prog.exec_throwIf_eq_ok.mp ht
  cases hu
  have hbody := executeBody_spec catalog h j _ (show Untouched
    { Run.start journal world with writeIntent := false } from rfl)
  refine Returns.tryCatch (wp_mono hbody ?_ (fun _ _ _ => trivial)) ?_
  · rintro r s' (hu | hp) hm
    · exact absurd hu hm
    · exact .inr ⟨j, hj, hp⟩
  · intro e t ht
    rcases (Prog.wp_of_exec_error ht).mp hbody with hu | hw
    · exact wp_mono (untouched_executeFailed h e t hu) (fun _ _ hu' hm => absurd hu' hm)
        (fun _ _ _ => trivial)
    · exact wp_mono (executeFailed_returns h e t hw) (fun _ _ hr _ => .inl hr)
        (fun _ _ _ => trivial)

end

end Ipms.Agent.Gpo
