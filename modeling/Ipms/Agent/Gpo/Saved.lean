import Ipms.Agent.Gpo.Closure

/-
  Ipms.Agent.Gpo.Saved

  Every journal that an inspection, an execution or a recorded claim passes to
  `save` is closed, save failures included, but for three situations that are
  described here in terms of the answers of the world.
-/

namespace Ipms.Agent.Gpo

open Ipms.Lib Ipms.ManagementJson Exec
open Prog (Keeps wp wp_bind wp_mono wp_ofExcept)

/-! ## What a run saves -/

section
variable {W : Type} (catalog : Catalog) (h : Host W)

/-- Every journal saved so far is closed. -/
def AllClosed (s : Run W) : Prop := ∀ j ∈ s.saved, j.Closed catalog

/-- The run is at a moved journal, has saved only closed journals, and has recorded the
write intent or not. -/
def Tracks (j : Journal) (state : Phase) (guid : String) (result : Option Receipt) (intent : Bool)
    (s : Run W) : Prop :=
  AllClosed catalog s ∧ s.journal = j.moved state guid result ∧ s.writeIntent = intent

variable {catalog} {j : Journal} {state : Phase} {guid : String} {result : Option Receipt}
  {intent : Bool}

theorem worldFree_tracks : WorldFree (W := W) (Tracks catalog j state guid result intent) :=
  fun _ _ hs => hs

theorem keeps_tracks_mutate {α : Type} (m : Mutation) (f : Call W α) :
    Keeps (Tracks catalog j state guid result intent) (mutate m f) :=
  Keeps.bind (Prog.keeps_modify fun _ hs => hs) fun _ => keeps_call worldFree_tracks _

theorem keeps_tracks_save (hclosed : (j.moved state guid result).Wellformed catalog) :
    Keeps (Tracks catalog j state guid result intent) (save h) := by
  refine Keeps.bind (Prog.keeps_modify ?_) fun _ => ?_
  · rintro s ⟨hall, hjournal, hintent⟩
    refine ⟨fun j' hj' => ?_, hjournal, hintent⟩
    rcases List.mem_append.mp hj' with hj' | hj'
    · exact hall j' hj'
    · rw [List.mem_singleton.mp hj', hjournal]
      exact Journal.closed_iff.mpr hclosed
  · exact Keeps.bind Prog.keeps_get fun _ => keeps_call worldFree_tracks _

/-- What the catch block can start from: closed journals so far, a moved journal, and no
policy in it as long as nothing is meant to be written. -/
def Catchable (catalog : Catalog) (j : Journal) (s : Run W) : Prop :=
  AllClosed catalog s ∧ ∃ state guid result, s.journal = j.moved state guid result ∧
    (s.writeIntent = false → guid = "")

theorem Tracks.catchable {s : Run W} (hs : Tracks catalog j state guid result intent s)
    (hguid : intent = false → guid = "") : Catchable catalog j s :=
  ⟨hs.1, state, guid, result, hs.2.1, fun hi => hguid (hs.2.2 ▸ hi)⟩

theorem failureResult_eq_ok {status : Status} {e : Exn} {g : String} {r : Receipt}
    (hr : failureResult status e g = .ok r) :
    r.valid = true ∧ r.status = status ∧ r.gpoGuid = (if g = "" then none else some g) ∧
      r.evidence = .none := by
  unfold failureResult at hr
  cases hw : Gpo.result status e.what g with
  | ok r' =>
    rw [hw] at hr
    cases hr
    obtain ⟨rfl, hv⟩ := result_eq_ok.mp hw
    exact ⟨hv, rfl, rfl, rfl⟩
  | error _ =>
    rw [hw] at hr
    obtain ⟨rfl, hv⟩ := result_eq_ok.mp hr
    exact ⟨hv, rfl, rfl, rfl⟩

/-- Whatever a save does, the journals saved so far and the one it was given are all that
has been saved after it. -/
theorem save_saved {s : Run W} (hall : AllClosed catalog s) (hclosed : s.journal.Closed catalog) :
    (save h).wp (fun _ s' => AllClosed catalog s') (fun _ s' => AllClosed catalog s') s := by
  have hs : Tracks catalog s.journal s.journal.state s.journal.gpoGuid s.journal.result
      s.writeIntent s := ⟨hall, s.journal.moved_self.symm, rfl⟩
  have hk := keeps_tracks_save h (Journal.closed_iff.mp (s.journal.moved_self ▸ hclosed)) s hs
  exact wp_mono hk (fun _ _ hs => hs.1)
    (fun _ _ hs => hs.1)

theorem save_throws {s : Run W} (hjournal : s.journal = j) :
    (save h).wp (fun _ _ => True) (fun e _ => ∃ w, h.save j s.world = (.error e, w)) s := by
  subst hjournal
  rw [wp_save, wp_call]
  rcases hw : h.save s.journal s.world with ⟨r, w⟩
  cases r with
  | ok u => trivial
  | error e => exact ⟨w, rfl⟩

theorem recordFailure_saved {s : Run W} {phase : Phase} {r : Receipt}
    (hall : AllClosed catalog s)
    (hclosed : ({ s.journal with state := phase, result := some r } : Journal).Closed catalog) :
    (recordFailure h phase r).wp (fun _ s' => AllClosed catalog s')
      (fun _ s' => AllClosed catalog s') s := by
  unfold recordFailure
  rw [wp_bind, wp_update, wp_bind]
  exact save_saved h (s := { s with journal := _ }) hall hclosed

theorem executeFailed_saved (hj : j.Wellformed catalog) (hwrite : j.assignment.inspection = false)
    (e : Exn) {s : Run W} (hs : Catchable catalog j s) :
    (executeFailed h e).wp (fun _ s' => AllClosed catalog s') (fun _ s' => AllClosed catalog s')
      s := by
  obtain ⟨hall, state, guid, result, hjournal, hguid⟩ := hs
  unfold executeFailed
  rw [wp_bind, Prog.wp_get, wp_bind, wp_ofExcept]
  refine ⟨fun r hr => ?_, fun _ _ => hall⟩
  obtain ⟨hv, hstatus, hg, he⟩ := failureResult_eq_ok hr
  refine recordFailure_saved h hall (Journal.closed_iff.mpr ?_)
  rw [hjournal]
  cases hi : s.writeIntent with
  | true =>
    rw [hi] at hstatus hg
    have hguid' : r.gpoGuid.getD "" = guid := by
      rw [hg, hjournal]
      by_cases hempty : guid = "" <;> simp [Journal.moved, hempty]
    exact hguid' ▸ hj.reconciling hwrite hv hstatus he
  | false =>
    rw [hi] at hstatus hg
    rw [hguid hi]
    exact hj.failed hv hstatus hg he

end

/-! ## Executions -/

section
variable {W : Type} {catalog : Catalog} (h : Host W) {journal : Journal} {j : ManagedJob}

/-- Preparing a new version of a managed policy, which writes nothing. -/
def preparesOnly (j : ManagedJob) : Prop :=
  j.operation = .importManagedGpo ∧ j.gpoGuid ≠ "" ∧ j.adoption = false

instance (j : ManagedJob) : Decidable (preparesOnly j) := inferInstanceAs (Decidable (_ ∧ _))

theorem preparedReceipt_valid (hacc : (Job.managed j).Accepted catalog) (hprepares : preparesOnly j)
    {state : Snapshot} (hstate : state.valid = true) (hnamed : state.guid = j.gpoGuid) :
    (successReceipt j .staged "gpo_prepared" state ("", "")).valid = true :=
  successReceipt_valid hacc _ (by rw [hprepares.1]; rfl) hstate
    (fun hempty => absurd (hnamed.symm.trans hempty) hprepares.2.1) (by rw [hprepares.1]; decide)

/-- An execution that writes nothing cannot save its success: the policy stays in the
journal that the catch block then records as failed. -/
def PreparedSaveFails (catalog : Catalog) (h : Host W) (journal : Journal) (j : ManagedJob)
    (w : W) : Prop :=
  preparesOnly j ∧ ∃ s backup w₁ e w₂, Ready catalog h journal j w s backup w₁ ∧
    h.save (journal.succeeded j .staged "gpo_prepared" s ("", "")) w₁ = (.error e, w₂)

theorem terminal_tracks (hj : journal.Wellformed catalog) (hjob : journal.assignment = .managed j)
    (happroved : j.inspection = false → journal.portalApproval.isSome = true) {status : Status}
    {code : String} {state : Snapshot} {backup : String × String} (hstate : state.valid = true)
    (hv : (successReceipt j status code state backup).valid = true) {st : Phase} {g : String}
    {res : Option Receipt} {intent : Bool} {s : Run W}
    (hs : Tracks catalog journal st g res intent s) :
    (terminal h j status code state backup).wp (fun _ s' => AllClosed catalog s')
      (fun e s' => Tracks catalog journal .terminal state.guid
          (some (successReceipt j status code state backup)) intent s' ∧
        ∃ w, h.save (journal.succeeded j status code state backup) s.world = (.error e, w)) s := by
  have hresult : result status code state.guid
      (.managed (managedEvidence j state backup.1 backup.2)) =
      .ok (successReceipt j status code state backup) := result_eq_ok.mpr ⟨rfl, hv⟩
  unfold terminal
  rw [wp_bind, wp_update, wp_bind, hresult, Prog.wp_ofExcept_ok, wp_bind,
    wp_update, wp_bind]
  have hwell := hj.succeeded hjob hstate hv happroved
  have hmoved := congrArg (fun x => x.moved .terminal state.guid
    (some (successReceipt j status code state backup))) hs.2.1
  refine wp_mono (Prog.wp_and (keeps_tracks_save h hwell _ ?_) (save_throws h ?_))
    (fun _ _ hs' => hs'.1.1) (fun _ _ hs' => hs')
  · exact ⟨hs.1, hmoved, hs.2.2⟩
  · exact hmoved

theorem terminal_catchable (hj : journal.Wellformed catalog)
    (hjob : journal.assignment = .managed j) (happroved : journal.portalApproval.isSome = true)
    {status : Status} {code : String} {state : Snapshot} {backup : String × String}
    (hstate : state.valid = true) {st : Phase} {g : String} {res : Option Receipt} {s : Run W}
    (hs : Tracks catalog journal st g res true s) :
    (terminal h j status code state backup).wp (fun _ s' => AllClosed catalog s')
      (fun _ s' => Catchable catalog journal s') s := by
  cases hr : result status code state.guid (.managed (managedEvidence j state backup.1 backup.2)) with
  | ok r =>
    obtain ⟨rfl, hv⟩ := result_eq_ok.mp hr
    exact wp_mono (terminal_tracks h hj hjob (fun _ => happroved) hstate hv hs)
      (fun _ _ h' => h') (fun _ _ h' => h'.1.catchable fun hi => nomatch hi)
  | error e =>
    unfold terminal
    rw [wp_bind, wp_update, wp_bind, hr, Prog.wp_ofExcept_error]
    have hmoved := congrArg (fun x => x.moved x.state state.guid x.result) hs.2.1
    have ht : Tracks catalog journal st state.guid res true
        { s with journal := { s.journal with gpoGuid := state.guid } } := ⟨hs.1, hmoved, hs.2.2⟩
    exact ht.catchable fun hi => nomatch hi

/-- Opening the policy saves closed journals only. -/
theorem openPolicy_saved (hj : journal.Wellformed catalog)
    (happroved : journal.portalApproval.isSome = true) {st : Phase} {s : Run W}
    (hs : Tracks catalog journal st "" none false s) :
    (openPolicy h j).wp
      (fun guid s' => usableGuid guid = true ∧ Tracks catalog journal .importing guid none true s')
      (fun _ s' => Catchable catalog journal s') s := by
  unfold openPolicy
  have hcreating : Tracks catalog journal .creating "" none false
      { s with journal := { s.journal with state := .creating } } :=
    ⟨hs.1, congrArg (fun x => x.moved .creating x.gpoGuid x.result) hs.2.1, hs.2.2⟩
  have hopening : (journal.moved .creating "" none).Wellformed catalog :=
    hj.open_ happroved (.inl ⟨rfl, rfl⟩)
  rw [wp_bind, wp_update, wp_bind]
  refine wp_mono (keeps_tracks_save h hopening _ hcreating) (fun _ t ht => ?_)
    (fun _ _ h' => h'.catchable fun _ => rfl)
  rw [wp_bind, Prog.wp_modify, wp_bind]
  -- From here on the intent is recorded, so every throw can be caught.
  have hcatch : ∀ {st : Phase} {g : String} (_ : Exn) (s' : Run W),
      Tracks catalog journal st g none true s' → Catchable catalog journal s' :=
    fun _ _ h' => h'.catchable fun hi => nomatch hi
  have hintent : Tracks catalog journal .creating "" none true { t with writeIntent := true } :=
    ⟨ht.1, ht.2.1, rfl⟩
  refine wp_mono (worldFree_tracks.requireAuthority h _ hintent) (fun _ t ht => ?_) hcatch
  rw [wp_bind]
  refine wp_mono ((Keeps.ite (keeps_tracks_mutate _ _) (Prog.keeps_pure _) :
    Keeps _ (createOrOpen h j)) t ht) (fun guid t ht => ?_) hcatch
  rw [wp_bind, wp_update, wp_bind, Prog.wp_throwIf]
  have hguid : Tracks catalog journal .creating guid none true
      { t with journal := { t.journal with gpoGuid := guid } } :=
    ⟨ht.1, congrArg (fun x => x.moved x.state guid x.result) ht.2.1, ht.2.2⟩
  refine ⟨fun _ => hcatch verificationFailed _ hguid, fun husable => ?_⟩
  have husable : usableGuid guid = true := by
    simpa [usableGuid] using husable
  rw [wp_bind, wp_update, wp_bind]
  have hcreated : Tracks catalog journal .created guid none true
      { t with journal := { t.journal with gpoGuid := guid, state := .created } } :=
    ⟨hguid.1, congrArg (fun x => x.moved .created x.gpoGuid x.result) hguid.2.1, hguid.2.2⟩
  refine wp_mono (keeps_tracks_save h (hj.open_ happroved (.inr ⟨.inl rfl, husable⟩)) _
    hcreated) (fun _ u hu => ?_) hcatch
  rw [wp_bind, wp_update, wp_bind]
  have himporting : Tracks catalog journal .importing guid none true
      { u with journal := { u.journal with state := .importing } } :=
    ⟨hu.1, congrArg (fun x => x.moved .importing x.gpoGuid x.result) hu.2.1, hu.2.2⟩
  exact wp_mono (keeps_tracks_save h (hj.open_ happroved (.inr ⟨.inr rfl, husable⟩)) _
    himporting) (fun _ _ h' => ⟨husable, h'⟩) hcatch

theorem writePolicy_saved (hj : journal.Wellformed catalog)
    (happroved : journal.portalApproval.isSome = true) {guid : String}
    (husable : usableGuid guid = true) (adoption : Bool) (state : Snapshot) :
    Keeps (Tracks (W := W) catalog journal .importing guid none true)
      (writePolicy h j adoption state guid) := by
  have himport : Keeps (Tracks (W := W) catalog journal .importing guid none true)
      (importContent h j adoption guid) :=
    Keeps.ite (keeps_tracks_mutate _ _)
      (Keeps.ite (keeps_tracks_mutate _ _) (Prog.keeps_pure _))
  unfold writePolicy
  split
  · exact himport
  · refine Keeps.bind himport fun _ => ?_
    refine Keeps.bind (keeps_call worldFree_tracks _) fun _ => ?_
    refine Keeps.bind (Prog.keeps_ofExcept _) fun _ => ?_
    refine Keeps.bind
      (keeps_tracks_save h (hj.open_ happroved (.inr ⟨.inr rfl, husable⟩))) fun _ => ?_
    refine Keeps.bind (worldFree_tracks.requireAuthority h) fun _ => ?_
    exact keeps_tracks_mutate _ _
  all_goals exact keeps_tracks_mutate _ _

/-- The end of a write saves closed journals only. -/
theorem finish_saved (hj : journal.Wellformed catalog) (hjob : journal.assignment = .managed j)
    (happroved : journal.portalApproval.isSome = true) (state : Snapshot) {guid : String}
    (backup : String × String) {s : Run W}
    (hs : Tracks catalog journal .importing guid none true s) :
    (finish catalog h j state guid backup).wp (fun _ s' => AllClosed catalog s')
      (fun _ s' => Catchable catalog journal s') s := by
  have hcatch : ∀ (_ : Exn) (s' : Run W), Tracks catalog journal .importing guid none true s' →
      Catchable catalog journal s' := fun _ _ h' => h'.catchable fun hi => nomatch hi
  have hverified : ∀ (status : Status) (code : String) (after : Value) (t : Run W),
      Tracks catalog journal .importing guid none true t →
      (do
        let s ← Prog.ofExcept (postconditions catalog j state after)
        terminal h j status code s backup : Exec W Receipt).wp (fun _ s' => AllClosed catalog s')
        (fun _ s' => Catchable catalog journal s') t := by
    intro status code after t ht
    rw [wp_bind, wp_ofExcept]
    refine ⟨fun s hok => ?_, fun e _ => hcatch e t ht⟩
    have hvalid := (validSnapshot_eq_some.mp (postconditions_eq_ok catalog hok).2).2
    exact terminal_catchable h hj hjob happroved hvalid ht
  have hchecked : ∀ (x : Except Exn Unit) (status : Status) (code : String) (after : Value)
      (t : Run W), Tracks catalog journal .importing guid none true t →
      (do
        Prog.ofExcept x
        let s ← Prog.ofExcept (postconditions catalog j state after)
        terminal h j status code s backup : Exec W Receipt).wp (fun _ s' => AllClosed catalog s')
        (fun _ s' => Catchable catalog journal s') t := by
    intro x status code after t ht
    rw [wp_bind, wp_ofExcept]
    exact ⟨fun _ _ => hverified status code after t ht, fun e _ => hcatch e t ht⟩
  unfold finish
  rw [wp_bind]
  refine wp_mono (keeps_call worldFree_tracks _ s hs) (fun after t ht => ?_) hcatch
  split
  · rw [wp_bind, wp_ofExcept]
    refine ⟨fun _ _ => ?_, fun e _ => hcatch e t ht⟩
    rw [wp_bind, Prog.wp_throwIf]
    exact ⟨fun _ => hcatch verificationFailed t ht, fun _ => hverified _ _ _ t ht⟩
  all_goals exact hchecked _ _ _ _ t ht

/-- The execution saves closed journals, and what it throws can be caught unless the success
of an operation that writes nothing could not be saved. -/
theorem executeBody_saved (hj : journal.Wellformed catalog) (hjob : journal.assignment = .managed j)
    (hguid : journal.gpoGuid = "") (hresult : journal.result = none) (world : W) :
    (executeBody catalog h j).wp (fun _ s' => AllClosed catalog s')
      (fun _ s' => Catchable catalog journal s' ∨ PreparedSaveFails catalog h journal j world)
      (Run.start journal world) := by
  have hmoved : journal.moved journal.state "" none = journal := by
    rw [← hguid, ← hresult]
    rfl
  have hstart : Tracks catalog journal journal.state "" none false (Run.start journal world) :=
    ⟨fun _ hj' => absurd hj' List.not_mem_nil, hmoved.symm, rfl⟩
  unfold executeBody
  rw [wp_bind]
  unfold wp
  rcases hp : (prepareWrite catalog h j).exec (Run.start journal world) with ⟨r, t⟩
  cases r with
  | error e =>
    have ht := (worldFree_tracks.prepareWrite catalog h j).after hstart hp
    exact .inl (ht.catchable fun _ => rfl)
  | ok a =>
    obtain ⟨state, backup⟩ := a
    obtain ⟨w, hready, rfl⟩ := (prepareWrite_eq_ok catalog h).mp hp
    obtain ⟨a, happ⟩ := hready.approved
    have happroved : journal.portalApproval.isSome = true := by
      unfold portalApprovalReceipt at happ
      obtain ⟨_, _, happ⟩ := bind_eq_ok.mp happ
      cases hpa : journal.portalApproval with
      | none => rw [show (Run.start journal world).journal.portalApproval = none from hpa] at happ
                exact nomatch happ
      | some a => rfl
    have ht : Tracks catalog journal journal.state "" none false
        { Run.start journal world with world := w } := ⟨hstart.1, hstart.2.1, rfl⟩
    have hstate := hready.valid.valid
    refine (Prog.wp_ite _ _).mpr ⟨fun hprepares => ?_, fun _ => ?_⟩
    · have hinspection : j.inspection = false := by
        unfold ManagedJob.inspection
        rw [hprepares.1]
        rfl
      have hacc := hj.accepted
      rw [hjob] at hacc
      have hnamed := hready.valid.guid_of_write catalog hinspection
      have hv := preparedReceipt_valid hacc hprepares hstate hnamed
      refine wp_mono (terminal_tracks h hj hjob (fun _ => happroved) hstate hv ht)
        (fun _ _ h' => h') (fun e _ h' => .inr ?_)
      obtain ⟨w', hw'⟩ := h'.2
      exact ⟨hprepares, state, backup, w, e, w', hready, hw'⟩
    · rw [wp_bind]
      refine wp_mono (openPolicy_saved h hj happroved ht) (fun guid u hu => ?_)
        (fun _ _ h' => .inl h')
      have hwritten := writePolicy_saved h (j := j) hj happroved hu.1 j.adoption state u hu.2
      rw [wp_bind]
      refine wp_mono hwritten (fun _ v hv => ?_)
        (fun _ _ h' => .inl (h'.catchable fun hi => nomatch hi))
      exact wp_mono (finish_saved h hj hjob happroved state backup hv) (fun _ _ h' => h')
        (fun _ _ h' => .inl h')

end

end Ipms.Agent.Gpo
