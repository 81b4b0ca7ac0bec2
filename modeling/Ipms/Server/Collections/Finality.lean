import Ipms.Server.Collections.Steps
import Ipms.Agent.Gpo.Reload

/-
  Ipms.Server.Collections.Finality

  A final item stays final, except where its change could not be created.  Such
  an item keeps a standing inspection, every refresh asks for the change again,
  and the first answer takes the item back.
-/

namespace Ipms.Server.Collections

open Ipms.Server.Gpo

variable {services : Services} {items items' : List Item} {i j : Item}

/-- At a refresh no change is created for an item that had failed for want of one. -/
def Answered (d : Deployment) : Event → Prop
  | .refresh services => ∀ i ∈ d.items, i.Stranded → ∀ w, services.createChange i ≠ .ok w
  | _ => True

theorem keeps_trans {l : List Item} (h : List.Forall₂ Keeps items items')
    (h' : List.Forall₂ Keeps items' l) : List.Forall₂ Keeps items l :=
  forall₂_comp (fun hij hjk => hij.trans hjk) h h'

theorem Item.Stranded.expireJobs (h : i.Stranded) (tenant : String) (now : Time) :
    i.expireJobs tenant now = i := by
  obtain ⟨_, hwrite, p, hpreflight, hinspected⟩ := h
  have hno : expiring tenant now p = false := by
    simp [expiring, hinspected, JobStatus.active]
  obtain ⟨sequence, domainId, custom, revision, status, preflight, write, code, completed⟩ := i
  dsimp only at hwrite hpreflight
  subst hwrite hpreflight
  unfold Item.expireJobs
  dsimp only
  rw [Option.map_some, Option.map_none, hno, if_neg Bool.false_ne_true]

theorem Item.stranded_of_expireJobs {tenant : String} {now : Time} (h : i.Consistent)
    (hs : (i.expireJobs tenant now).Stranded) : i.Stranded := by
  obtain ⟨hstatus, hwrite, p, hpreflight, hinspected⟩ := hs
  have hw : i.writeJob = none := Option.map_eq_none_iff.mp hwrite
  obtain ⟨p', hp', heq⟩ := Option.map_eq_some_iff.mp hpreflight
  refine ⟨hstatus, hw, p', hp', ?_⟩
  have hfailed : i.status = .failed := hstatus
  unfold Item.Consistent at h
  rw [hfailed] at h
  rcases h with ⟨hnone, _⟩ | ⟨w, hsome, _⟩ | ⟨_, q, hq, hended⟩
  · rw [hp'] at hnone
    cases hnone
  · rw [hw] at hsome
    cases hsome
  · obtain rfl : p' = q := Option.some.inj (hp'.symm.trans hq)
    have hsteady := steady_expire tenant now p' (by rcases hended with h | h | h <;> rw [h] <;> rfl)
    exact hsteady.symm.trans ((congrArg _ heq).trans hinspected)

theorem refreshDeployment_keeps {d d' : Deployment} (h : Sound d.items)
    (hr : refreshDeployment services d = .ok d') (hanswered : Answered d (.refresh services)) :
    List.Forall₂ Keeps d.items d'.items := by
  obtain ⟨moved, hmoved, hitems, _⟩ := refreshDeployment_cases hr
  have hexpired := h.expireJobs d.tenant services.now
  have hexpire : List.Forall₂ Keeps d.items (d.items.map fun i => i.expireJobs d.tenant services.now) := by
    rw [List.forall₂_map_right_iff]
    exact List.forall₂_same.mpr fun i _ => i.mapJobs_keeps _ _
  have hloop : List.Forall₂ Keeps (d.items.map fun i => i.expireJobs d.tenant services.now) moved := by
    refine refreshItems_forall₂ (fun k hk j hj => ?_) hmoved
    refine k.refresh_keeps (hexpired.consistent k hk) hj fun hstranded => ?_
    obtain ⟨i, hi, rfl⟩ := List.mem_map.mp hk
    have hbefore := i.stranded_of_expireJobs (h.consistent i hi) hstranded
    rw [hbefore.expireJobs]
    exact hanswered i hi hbefore
  have hsound := hexpired.moves
    (refreshItems_forall₂ (fun k hk j hj => k.refresh_moves (hexpired.consistent k hk) hj) hmoved)
  have hdispatch := (dispatchDomains_sound _ hsound hitems).2.imp fun _ _ => Stays.keeps
  exact keeps_trans hexpire (keeps_trans hloop hdispatch)

theorem updateItem_keeps (items : List Item) (sequence : Nat) (f g : GpoImportJob → GpoImportJob) :
    List.Forall₂ Keeps items (updateItem items sequence fun i => i.mapJobs f g) := by
  unfold updateItem
  rw [List.forall₂_map_right_iff]
  refine List.forall₂_same.mpr fun i _ => ?_
  split
  · exact i.mapJobs_keeps f g
  · exact .refl i

theorem step_keeps {d : Deployment} (h : Sound d.items) {event : Event} (hanswered : Answered d event) :
    List.Forall₂ Keeps d.items (step d event).items := by
  cases event with
  | preflight sequence e =>
    have hkeeps := updateItem_keeps d.items sequence (fun job => e.apply job) id
    unfold Item.mapJobs at hkeeps
    simpa only [step, Option.map_id_fun, id] using hkeeps
  | write sequence e =>
    have hkeeps := updateItem_keeps d.items sequence id fun job => e.apply job
    unfold Item.mapJobs at hkeeps
    simpa only [step, Option.map_id_fun, id] using hkeeps
  | refresh services =>
    unfold step
    dsimp only
    split
    · rename_i hr
      exact refreshDeployment_keeps h hr hanswered
    · exact List.forall₂_same.mpr fun i _ => .refl i

theorem run_keeps {d : Deployment} (h : Sound d.items) (events : List Event)
    (hanswered : ∀ before event after, events = before ++ event :: after →
      Answered (run d before) event) : List.Forall₂ Keeps d.items (run d events).items := by
  induction events generalizing d with
  | nil => exact List.forall₂_same.mpr fun i _ => .refl i
  | cons event rest ih =>
    have hfirst := step_keeps h (hanswered [] event rest rfl)
    refine keeps_trans hfirst (ih (step_sound h event) fun before next after heq => ?_)
    exact hanswered (event :: before) next after (by rw [heq]; rfl)

theorem stranded_taken_back {d d' : Deployment} (h : Sound d.items)
    (hr : refreshDeployment services d = .ok d') {i : Item} (hi : i ∈ d.items) (hs : i.Stranded)
    {w : GpoImportJob} (hw : services.createChange i = .ok w) :
    ∃ j ∈ d'.items, j.sequence = i.sequence ∧ j.status ≠ i.status ∧ j.writeJob = some w := by
  obtain ⟨moved, hmoved, hitems, _⟩ := refreshDeployment_cases hr
  have hexpired := h.expireJobs d.tenant services.now
  have hsound := hexpired.moves
    (refreshItems_forall₂ (fun k hk j hj => k.refresh_moves (hexpired.consistent k hk) hj) hmoved)
  have hmem : i ∈ d.items.map fun i => i.expireJobs d.tenant services.now :=
    List.mem_map.mpr ⟨i, hi, hs.expireJobs _ _⟩
  obtain ⟨k, hk, hik⟩ := forall₂_exists
    (refreshItems_forall₂ (R := fun i j => i.refresh services = .ok j) (fun _ _ _ hj => hj) hmoved) hmem
  obtain ⟨hstatus, hwrite, p, hpreflight, hinspected⟩ := hs
  unfold Item.refresh at hik
  rw [hwrite, hpreflight] at hik
  dsimp only at hik
  rw [hinspected] at hik
  dsimp only at hik
  rw [hw] at hik
  cases hik
  obtain ⟨j, hj, hstays⟩ := forall₂_exists (dispatchDomains_sound _ hsound hitems).2 hk
  have hkept := hstays.kept (by dsimp only; split <;> exact nofun)
  refine ⟨j, hj, hstays.sequence, ?_, ?_⟩
  · rw [hkept, hstatus]
    dsimp only
    split <;> exact nofun
  · rw [hkept]

/-- In every run of a rollout in which no refresh creates the change of an item that had failed for
want of one, what is final stays: the status, and that no write job comes.  And a refresh that
completes and does create such a change takes the failed item back. -/
theorem final_items_kept (tenant : String) (bindings : List Binding) (entries : List Bool) :
    (∀ events, (∀ before event after, events = before ++ event :: after →
        Answered (run (newDeployment tenant bindings entries) before) event) →
      ∀ before after rest, events = before ++ after ++ rest →
        List.Forall₂ Keeps (run (newDeployment tenant bindings entries) before).items
          (run (newDeployment tenant bindings entries) (before ++ after)).items) ∧
    ∀ before services d', refreshDeployment services
        (run (newDeployment tenant bindings entries) before) = .ok d' →
      ∀ i ∈ (run (newDeployment tenant bindings entries) before).items, i.Stranded →
        ∀ w, services.createChange i = .ok w →
          ∃ j ∈ d'.items, j.sequence = i.sequence ∧ j.status ≠ i.status ∧ j.writeJob = some w := by
  refine ⟨fun events hanswered before after rest heq => ?_, fun before services d' hr i hi hs w hw => ?_⟩
  · rw [run_append]
    refine run_keeps (run_sound tenant bindings entries before) after fun pre event post hafter => ?_
    rw [← run_append]
    exact hanswered (before ++ pre) event (post ++ rest) (by rw [heq, hafter]; simp)
  · exact stranded_taken_back (run_sound tenant bindings entries before) hr hi hs hw

/-! ## A rollout that resumes -/

/-- The job of an assignment for the sample policy. -/
def sampleJob (operation : Agent.Gpo.Operation) (status : JobStatus) : GpoImportJob :=
  { id := "10000000-0000-4000-8000-000000000001", tenant := "tenant", domain := "domain"
    enrollment := "agent", system := "system", requestedBy := some 1, policyRevision := 1
    fourEyesRequired := false, authorizationRevision := 1
    domainGuid := "60000000-0000-4000-8000-000000000006", requestSha256 := "", inputDigest := ""
    assignment := .managed { Agent.Gpo.sampleInspectionDraft with
      operation, intendedOperation := .importAndLinkManagedGpo }
    pilotDisplayName := "T1_C_ALL", pilotNameKey := "t1_c_all", status
    requestedAt := 0, expiresAt := Agent.Gpo.seconds 900 }

/-- The services of a refresh at which `create_change` answers this. -/
def sampleServices (change : Except ServerError GpoImportJob) : Services :=
  { now := Agent.Gpo.seconds 60, domainRevision := fun _ => 1
    executorOptions := fun _ => [{ eligible := true, agentVersion := (0, 2, 48) }]
    createPreflight := fun _ => .ok (sampleJob .inspectManagedGpo .queued)
    createChange := fun _ => change }

/-- Another job holds the domain. -/
def domainBusy : Except ServerError GpoImportJob := .error (.publicApiError "security_gpo_domain_busy" 409)

/-- One policy for one domain: its inspection succeeds, but the domain is busy when the change is to be
created. -/
def sampleEvents : List Event :=
  [.refresh (sampleServices domainBusy),
    .preflight 1 (.succeed ⟨.str "inspected", .str "gpo_inspected", .null, .null⟩ (Agent.Gpo.seconds 30)),
    .refresh (sampleServices domainBusy)]

/-- The next refresh, once the domain is free. -/
def sampleResume : Event :=
  .refresh (sampleServices (.ok (sampleJob .importAndLinkManagedGpo .awaitingApproval)))

/-- The item of the sample run failed, and takes up its rollout again. -/
theorem failed_item_resumes : ¬ ∀ tenant bindings entries before after,
    List.Forall₂ Keeps (run (newDeployment tenant bindings entries) before).items
      (run (newDeployment tenant bindings entries) (before ++ after)).items := by
  intro hclaim
  have hkeeps := hclaim "tenant" [⟨"domain", 1⟩] [false] sampleEvents [sampleResume]
  have hfailed : (run (newDeployment "tenant" [⟨"domain", 1⟩] [false]) sampleEvents).items.map
      Item.status = [.failed] := by
    decide +kernel
  have hresumed : (run (newDeployment "tenant" [⟨"domain", 1⟩] [false])
      (sampleEvents ++ [sampleResume])).items.map Item.status = [.awaitingApproval] := by
    decide +kernel
  obtain ⟨i, hi⟩ := List.map_eq_singleton_iff.mp hfailed
  obtain ⟨j, hj⟩ := List.map_eq_singleton_iff.mp hresumed
  rw [hi.1, hj.1] at hkeeps
  cases hkeeps with
  | cons hij _ =>
    have hsame := (hij.final (by rw [hi.2]; rfl)).1
    rw [hi.2, hj.2] at hsame
    cases hsame

/-- While the domain stays busy the item of the sample run stays failed. -/
theorem final_items_kept_sample :
    List.Forall₂ Keeps (run (newDeployment "tenant" [⟨"domain", 1⟩] [false]) sampleEvents).items
      (run (newDeployment "tenant" [⟨"domain", 1⟩] [false])
        (sampleEvents ++ [.refresh (sampleServices domainBusy)])).items := by
  refine (final_items_kept "tenant" [⟨"domain", 1⟩] [false]).1
    (sampleEvents ++ [.refresh (sampleServices domainBusy)]) (fun before event after heq => ?_)
    sampleEvents [.refresh (sampleServices domainBusy)] [] (List.append_nil _).symm
  have hmem : event ∈ sampleEvents ++ [.refresh (sampleServices domainBusy)] := by
    rw [heq]
    exact List.mem_append_right _ List.mem_cons_self
  simp only [sampleEvents, List.cons_append, List.nil_append, List.mem_cons, List.not_mem_nil,
    or_false] at hmem
  rcases hmem with rfl | rfl | rfl | rfl
  · exact fun _ _ _ _ => nofun
  · trivial
  · exact fun _ _ _ _ => nofun
  · exact fun _ _ _ _ => nofun

end Ipms.Server.Collections
