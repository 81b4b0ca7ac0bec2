import Ipms.Agent.Gpo.Saved

/-
  Ipms.Agent.Gpo.Reload

  When a restarted agent can reload every journal that an inspection, an
  execution or a recorded claim passed to `save`, and the three situations in
  which it cannot.
-/

namespace Ipms.Agent.Gpo

open Ipms.Lib Ipms.ManagementJson Prog Exec Run

/-! ## Journals that cannot be loaded again -/

variable {journal j : Journal}

section
variable {W : Type} {catalog : Catalog} (h : Host W)

/-- Some journal saved so far is not closed. -/
def Lossy (catalog : Catalog) (s : Run W) : Prop := ∃ j ∈ s.saved, ¬j.Closed catalog

theorem lossy_iff {s : Run W} : Lossy catalog s ↔ ¬AllClosed catalog s := by
  unfold Lossy AllClosed
  push Not
  rfl

theorem Journal.not_closed_of_guid {r : Receipt} (hstate : j.state.completed = true)
    (hresult : j.result = some r) (hguid : r.gpoGuid.getD "" ≠ j.gpoGuid) : ¬j.Closed catalog := by
  intro hclosed
  have hc := (Journal.closed_iff.mp hclosed).consistent
  simp only [Journal.consistent, hstate, hresult, Option.any_some, if_true, Bool.and_eq_true] at hc
  have hfits := hc.2.2
  simp only [Receipt.fits, Bool.and_eq_true, beq_iff_eq] at hfits
  exact hguid hfits.2

theorem recordFailure_lossy {s : Run W} {r : Receipt} (hresult : r.gpoGuid = none)
    (hguid : s.journal.gpoGuid ≠ "") :
    (recordFailure h .terminal r).wp (fun _ s' => Lossy catalog s') (fun _ s' => Lossy catalog s')
      s := by
  unfold recordFailure
  rw [wp_bind, wp_update, wp_bind, wp_save]
  have hlossy : ¬({ s.journal with state := .terminal, result := some r } : Journal).Closed
      catalog := Journal.not_closed_of_guid rfl rfl (by rw [hresult]; exact hguid.symm)
  have hmem := List.mem_append_right s.saved (List.mem_singleton.mpr
    (rfl : ({ s.journal with state := .terminal, result := some r } : Journal) = _))
  exact wp_call_of _ (fun _ _ => ⟨_, hmem, hlossy⟩) (fun _ _ => ⟨_, hmem, hlossy⟩)

theorem failureResult_failed (e : Exn) :
    ∃ r, failureResult .failed e "" = .ok r ∧ r.gpoGuid = none := by
  unfold failureResult
  cases hr : result .failed e.what "" with
  | ok r =>
    refine ⟨r, rfl, ?_⟩
    rw [(result_eq_ok.mp hr).1]
    rfl
  | error _ => exact ⟨_, result_failed_provider, rfl⟩

theorem terminal_unsaved {journal : Journal} {j : ManagedJob} {status : Status} {code : String}
    {state : Snapshot} {backup : String × String} {s : Run W} {w : W} {e : Exn}
    (hjournal : s.journal = journal)
    (hv : (successReceipt j status code state backup).valid = true)
    (hsave : h.save (journal.succeeded j status code state backup) s.world = (.error e, w)) :
    (terminal h j status code state backup).wp (fun _ _ => False)
      (fun _ s' => s'.journal.gpoGuid = state.guid ∧ s'.writeIntent = s.writeIntent) s := by
  subst hjournal
  unfold terminal
  have hresult : result status code state.guid
      (.managed (managedEvidence j state backup.1 backup.2)) =
      .ok (successReceipt j status code state backup) := result_eq_ok.mpr ⟨rfl, hv⟩
  rw [wp_bind, wp_update, wp_bind, hresult, wp_ofExcept_ok, wp_bind,
    wp_update, wp_bind, wp_save, wp_call]
  have harg : (h.save (s.journal.succeeded j status code state backup) s.world) = (.error e, w) :=
    hsave
  unfold Journal.succeeded Journal.moved at harg
  simp only [harg]
  exact ⟨rfl, rfl⟩

/-- The execution of a granted journal loses it: see `PreparedSaveFails`. -/
def ExecuteLoses (catalog : Catalog) (h : Host W) (journal : Journal) (world : W) : Prop :=
  journal.state = .granted ∧
    ∃ j, journal.assignment = .managed j ∧ PreparedSaveFails catalog h journal j world

theorem Journal.Wellformed.granted (hj : j.Wellformed catalog) (hstate : j.state = .granted) :
    j.gpoGuid = "" ∧ j.result = none := by
  have hc := hj.consistent
  simp only [Journal.consistent, hstate, Bool.and_eq_true] at hc
  obtain ⟨⟨⟨⟨⟨-, hguid⟩, -⟩, -⟩, -⟩, hresult⟩ := hc
  exact ⟨by simpa using hguid, by simpa [Phase.completed] using hresult⟩

theorem executeBody_lossy {journal : Journal} {j : ManagedJob} {world : W}
    (hacc : (Job.managed j).Accepted catalog) (hloses : PreparedSaveFails catalog h journal j world) :
    (executeBody catalog h j).wp (fun _ _ => False)
      (fun _ s' => s'.journal.gpoGuid ≠ "" ∧ s'.writeIntent = false) (start journal world) := by
  obtain ⟨hprepares, state, backup, w, e, w', hready, hsave⟩ := hloses
  have hinspection : j.inspection = false := by
    unfold ManagedJob.inspection
    rw [hprepares.1]
    rfl
  have hnamed := hready.valid.guid_of_write catalog hinspection
  have hguid : state.guid ≠ "" := hnamed ▸ hprepares.2.1
  have hexec := (prepareWrite_eq_ok catalog h (r := start journal world)).mpr ⟨w, hready, rfl⟩
  unfold executeBody
  rw [wp_bind, wp_of_exec_ok hexec]
  refine (wp_ite _ _).mpr ⟨fun _ => ?_, fun hne => absurd hprepares hne⟩
  have hv := preparedReceipt_valid hacc hprepares hready.valid.valid hnamed
  exact wp_mono (terminal_unsaved h rfl hv hsave) (fun _ _ h' => h')
    (fun _ _ h' => ⟨h'.1 ▸ hguid, h'.2⟩)

/-- An execution saves closed journals exactly when it does not lose its success. -/
theorem executeManaged_saved (hj : journal.Wellformed catalog) (world : W) :
    AllClosed catalog ((executeManaged catalog h).after (start journal world)) ↔
      ¬ExecuteLoses catalog h journal world := by
  rw [← wp_iff_after (I := AllClosed catalog)]
  have hnone : AllClosed catalog (start journal world) :=
    fun _ hm => absurd hm List.not_mem_nil
  constructor
  · rintro hall ⟨hstate, j, hjob, hloses⟩
    refine (lossy_iff.mp (?_ : Lossy catalog ((executeManaged catalog h).after _)))
      (wp_iff_after.mp hall)
    rw [← wp_iff_after (I := Lossy catalog)]
    have hwrite : ¬j.inspection = true := by
      unfold ManagedJob.inspection
      rw [hloses.1.1]
      decide
    have hdone : ¬(start journal world).journal.state.completed = true := by
      rw [show (start journal world).journal.state = .granted from hstate]
      decide
    unfold executeManaged
    rw [wp_bind, wp_journal]
    simp only [show (start journal world).journal.assignment = .managed j from hjob]
    rw [wp_bind, wp_throwIf]
    refine ⟨fun hf => absurd hf hwrite, fun _ => ?_⟩
    rw [if_neg hdone, wp_bind, wp_throwIf]
    refine ⟨fun hf => absurd hstate hf, fun _ => ?_⟩
    rw [wp_bind, wp_modify, wp_tryCatch]
    refine wp_mono (executeBody_lossy h (hjob ▸ hj.accepted) hloses) (fun _ _ hf => hf.elim)
      (fun e s' hs' => ?_)
    unfold executeFailed
    rw [wp_bind, wp_get, hs'.2]
    obtain ⟨r, hr, hguid⟩ := failureResult_failed e
    simp only [Bool.false_eq_true, if_false, hr, wp_bind, wp_ofExcept_ok]
    exact recordFailure_lossy h hguid hs'.1
  · intro hkeeps
    unfold executeManaged
    rw [wp_bind, wp_journal]
    split
    · exact hnone
    rename_i j hjob
    rw [wp_bind, wp_throwIf]
    refine ⟨fun _ => hnone, fun hwrite => ?_⟩
    refine (wp_ite _ _).mpr ⟨fun _ => ?_, fun _ => ?_⟩
    · split
      · exact hnone
      · exact hnone
    rw [wp_bind, wp_throwIf]
    refine ⟨fun _ => hnone, fun hstate => ?_⟩
    have hstate : journal.state = .granted := not_not.mp hstate
    obtain ⟨hguid, hresult⟩ := hj.granted hstate
    rw [wp_bind, wp_modify, wp_tryCatch]
    refine wp_mono (executeBody_saved h hj hjob hguid hresult world) (fun _ _ h' => h')
      (fun e s' hs' => ?_)
    rcases hs' with hs' | hloses
    · have hwrite : journal.assignment.inspection = false := by
        rw [show journal.assignment = .managed j from hjob]
        exact eq_false_of_ne_true hwrite
      exact executeFailed_saved h hj hwrite e hs'
    · exact absurd ⟨hstate, j, hjob, hloses⟩ hkeeps

/-! ## Inspections -/

/-- The success of an inspection that finds a policy cannot be saved. -/
def InspectedSaveFails (catalog : Catalog) (h : Host W) (journal : Journal) (j : ManagedJob)
    (world : W) : Prop :=
  ∃ s w₁ w₂ w₃ e w₄, h.authority world = (.ok true, w₁) ∧ h.inspect w₁ = (.ok s.toJson, w₂) ∧
    StateAccepted catalog j s ∧ h.authority w₂ = (.ok true, w₃) ∧
    s.guid ≠ "" ∧
    h.save (journal.succeeded j .inspected "gpo_inspected" s ("", "")) w₃ = (.error e, w₄)

/-- The inspection of a prepared journal loses it: see `InspectedSaveFails`. -/
def InspectLoses (catalog : Catalog) (h : Host W) (journal : Journal) (world : W) : Prop :=
  journal.state = .prepared ∧ ∃ j, journal.assignment = .managed j ∧ j.inspection = true ∧
    InspectedSaveFails catalog h journal j world

theorem Journal.Wellformed.prepared (hj : j.Wellformed catalog) (hstate : j.state = .prepared) :
    j.gpoGuid = "" ∧ j.result = none ∧ j.grantDeadlineTick = 0 ∧
      j.portalApproval = none := by
  have hc := hj.consistent
  simp only [Journal.consistent, hstate, Bool.and_eq_true] at hc
  obtain ⟨⟨⟨⟨⟨-, hguid⟩, htick⟩, hportal⟩, -⟩, hresult⟩ := hc
  have htick : j.grantDeadlineTick = 0 := by simpa using htick
  refine ⟨by simpa using hguid, by simpa [Phase.completed] using hresult, htick, ?_⟩
  by_cases hs : j.assignment.schema < 2
  · exact hj.approval hs
  · simpa [hs, htick] using hportal

theorem inspectedReceipt_valid {j : ManagedJob} {s : Snapshot}
    (hacc : (Job.managed j).Accepted catalog) (hinspection : j.inspection = true)
    (hs : s.valid = true) :
    (successReceipt j .inspected "gpo_inspected" s ("", "")).valid = true := by
  have hop : j.operation = .inspectManagedGpo := by simpa [ManagedJob.inspection] using hinspection
  exact successReceipt_valid hacc _ (by rw [hop]; rfl) hs (fun _ => .inl rfl) (by rw [hop]; decide)

/-- The body of an inspection saves closed journals, and what it throws leaves a journal without
a policy unless the success could not be saved. -/
theorem inspectBody_saved {j : ManagedJob} {world : W} {st : Phase} {res : Option Receipt}
    (hj : journal.Wellformed catalog) (hjob : journal.assignment = .managed j)
    (hinspection : j.inspection = true)
    (hstart : Tracks catalog journal st "" res false (start journal world)) :
    (inspectBody catalog h j).wp (fun _ s' => AllClosed catalog s')
      (fun _ s' => (∃ st res, Tracks catalog journal st "" res false s') ∨
        InspectedSaveFails catalog h journal j world) (start journal world) := by
  unfold inspectBody
  have hauthority : Keeps (Tracks catalog journal st "" res false) (requireAuthority h) :=
    worldFree_tracks.requireAuthority h
  rw [wp_bind]
  refine wp_of_exec (fun _ t ht => ?_) fun _ t ht => .inl ⟨_, _, hauthority.after hstart ht⟩
  have hs₁ := hauthority.after hstart ht
  obtain ⟨w₁, hw₁, rfl⟩ := (requireAuthority_eq_ok h).mp ht
  rw [wp_bind]
  have hcall := keeps_call (I := Tracks catalog journal st "" res false) worldFree_tracks
    h.inspect
  refine wp_of_exec (fun v t ht => ?_) fun _ t ht => .inl ⟨_, _, hcall.after hs₁ ht⟩
  have hs₂ := hcall.after hs₁ ht
  obtain ⟨w₂, hw₂, rfl⟩ := exec_call_eq_ok.mp ht
  rw [wp_bind, wp_ofExcept]
  refine ⟨fun s hs => ?_, fun e _ => .inl ⟨_, _, hs₂⟩⟩
  obtain ⟨rfl, haccepted⟩ := (validateManagedState_eq_ok catalog).mp hs
  rw [wp_bind]
  refine wp_of_exec (fun _ t ht => ?_) fun _ t ht => .inl ⟨_, _, hauthority.after hs₂ ht⟩
  have hs₃ := hauthority.after hs₂ ht
  obtain ⟨w₃, hw₃, rfl⟩ := (requireAuthority_eq_ok h).mp ht
  have hv := inspectedReceipt_valid (hjob ▸ hj.accepted) hinspection haccepted.valid
  have hportal : j.inspection = false → journal.portalApproval.isSome = true :=
    fun hi => absurd hi (by rw [hinspection]; decide)
  refine wp_mono (terminal_tracks h hj hjob hportal haccepted.valid hv hs₃) (fun _ _ h' => h')
    (fun e s' h' => ?_)
  obtain ⟨htracks, w₄, hsave⟩ := h'
  by_cases hg : s.guid = ""
  · exact .inl ⟨_, _, hg ▸ htracks⟩
  · exact .inr ⟨s, w₁, w₂, w₃, e, w₄, hw₁, hw₂, haccepted, hw₃, hg, hsave⟩

/-- An inspection saves closed journals exactly when it does not lose its success. -/
theorem inspectManaged_saved {journal : Journal} (hj : journal.Wellformed catalog) (world : W) :
    AllClosed catalog ((inspectManaged catalog h).after (start journal world)) ↔
      ¬InspectLoses catalog h journal world := by
  rw [← wp_iff_after (I := AllClosed catalog)]
  have hnone : AllClosed catalog (start journal world) :=
    fun _ hm => absurd hm List.not_mem_nil
  constructor
  · rintro hall ⟨hstate, j, hjob, hinspection, s, w₁, w₂, w₃, e, w₄, hw₁, hw₂, hvalid, hw₃, hguid,
      hsave⟩
    refine (lossy_iff.mp (?_ : Lossy catalog ((inspectManaged catalog h).after _)))
      (wp_iff_after.mp hall)
    rw [← wp_iff_after (I := Lossy catalog)]
    obtain ⟨-, -, htick, happ⟩ := hj.prepared hstate
    unfold inspectManaged
    rw [wp_bind, wp_journal]
    simp only [show (start journal world).journal.assignment = .managed j from hjob]
    rw [wp_bind, wp_throwIf]
    refine ⟨fun hf => absurd hf ?_, fun _ => ?_⟩
    · simp [start, hinspection, hstate, htick, happ]
    rw [wp_tryCatch]
    have hbody : (inspectBody catalog h j).wp (fun _ _ => False)
        (fun _ s' => s'.journal.gpoGuid ≠ "") (start journal world) := by
      unfold inspectBody
      rw [wp_bind, wp_of_exec_ok ((requireAuthority_eq_ok h (u := ())).mpr ⟨w₁, hw₁, rfl⟩),
        wp_bind, wp_of_exec_ok (exec_call_eq_ok.mpr ⟨w₂, hw₂, rfl⟩), wp_bind,
        (validateManagedState_eq_ok catalog).mpr ⟨rfl, hvalid⟩, wp_ofExcept_ok, wp_bind,
        wp_of_exec_ok ((requireAuthority_eq_ok h (u := ())).mpr ⟨w₃, hw₃, rfl⟩)]
      have hv := inspectedReceipt_valid (hjob ▸ hj.accepted) hinspection
        hvalid.valid
      exact wp_mono (terminal_unsaved h rfl hv hsave) (fun _ _ hf => hf)
        (fun _ _ h' => h'.1 ▸ hguid)
    refine wp_mono hbody (fun _ _ hf => hf.elim) (fun e' s' hs' => ?_)
    obtain ⟨r, hr, hrguid⟩ := failureResult_failed e'
    rw [wp_bind, hr, wp_ofExcept_ok]
    exact recordFailure_lossy h hrguid hs'
  · intro hkeeps
    unfold inspectManaged
    rw [wp_bind, wp_journal]
    split
    · exact hnone
    rename_i j hjob
    rw [wp_bind, wp_throwIf]
    refine ⟨fun _ => hnone, fun hguard => ?_⟩
    simp only [not_or, not_not, Bool.not_eq_true', Bool.not_eq_false] at hguard
    obtain ⟨⟨⟨hinspection, hstate⟩, -⟩, -⟩ : (((j.inspection = true ∧
      journal.state = .prepared) ∧ True) ∧ True) := by simpa using ⟨hguard.1, hguard.2.1⟩
    obtain ⟨hguid, hresult, -, -⟩ := hj.prepared hstate
    have hmoved : journal.moved journal.state "" none = journal := by
      rw [← hguid, ← hresult]
      rfl
    have hstart : Tracks catalog journal journal.state "" none false
        (start journal world) := ⟨hnone, hmoved.symm, rfl⟩
    rw [wp_tryCatch]
    refine wp_mono (inspectBody_saved h hj hjob hinspection hstart) (fun _ _ h' => h')
      (fun e s' hs' => ?_)
    rcases hs' with ⟨st, res, hs'⟩ | ⟨s, w₁, w₂, w₃, e, w₄, hw₁, hw₂, hs, hw₃, hguid, hsave⟩
    · rw [wp_bind, wp_ofExcept]
      refine ⟨fun r hr => ?_, fun _ _ => hs'.1⟩
      obtain ⟨hv, hstatus, hg, he⟩ := failureResult_eq_ok hr
      refine recordFailure_saved h hs'.1 (Journal.closed_iff.mpr ?_)
      rw [hs'.2.1]
      exact hj.failed hv hstatus hg he
    · exact absurd ⟨hstate, j, hjob, hinspection, s, w₁, w₂, w₃, e, w₄, hw₁, hw₂, hs, hw₃,
        hguid, hsave⟩ hkeeps

end

/-! ## Recorded claims -/

section
variable {W : Type} {catalog : Catalog} (h : Host W)

/-- The approval in a grant is the expected one and current; a local grant expects none. -/
def GrantApproved (journal : Journal) (reply expected : Value) (now : Time) : Prop :=
  if journal.assignment.schema ≥ 2 then
    ∃ a : Approval, reply.get? "approval" = some a.toJson ∧ expected = a.toJson ∧
      portalApprovalCurrent a journal.assignment journal.deviceUri now = true
  else expected = .null

/-- A reply that grants the execution of a journal that waits for it. -/
structure GrantReply (journal : Journal) (reply expected : Value) (now : Time) : Prop where
  waiting : journal.state = .granted ∧ journal.grantDeadlineTick = 0 ∧ journal.gpoGuid = "" ∧
    journal.result = none ∧ journal.portalApproval = none
  write : journal.assignment.inspection = false
  authorized : reply.get? "authorized" = some (.bool true)
  mode : reply.get? "mode" = some (.str "execute")
  size : objectSize reply = some (if journal.assignment.schema ≥ 2 then 4 else 3)
  job : reply.get? "job" = some journal.assignment.toJson
  approved : GrantApproved journal reply expected now

/-- A recorded grant whose deadline does not fit the integers of a document. -/
def ClaimLoses (journal : Journal) (reply : Value) (deadline : UInt64) (expected : Value)
    (now : Time) : Prop :=
  (deadline.toNat : Int) > int64Max ∧ GrantReply journal reply expected now

/-- The journal of a recorded grant. -/
def Journal.withGrant (j : Journal) (approval : Option Approval) (deadline : UInt64) : Journal :=
  { j with portalApproval := approval, grantDeadlineTick := deadline.toNat }

/-- The approval a grant records: a valid one for a portal job, none for a local one. -/
def Journal.grantable (j : Journal) (approval : Option Approval) : Prop :=
  if j.assignment.schema ≥ 2 then ∃ a, approval = some a ∧ a.valid j.assignment j.deviceUri = true
  else approval = none

/-- A recorded grant is closed exactly when its deadline fits. -/
theorem Journal.withGrant_closed (hj : j.Wellformed catalog) (hstate : j.state = .granted)
    {approval : Option Approval} (happ : j.grantable approval) {deadline : UInt64}
    (hpos : deadline ≠ 0) :
    (j.withGrant approval deadline).Closed catalog ↔ (deadline.toNat : Int) ≤ int64Max := by
  have htick : 0 < deadline.toNat := by
    refine Nat.pos_of_ne_zero fun h0 => hpos ?_
    exact UInt64.toNat_inj.mp h0
  have hc := hj.consistent
  simp only [Journal.consistent, hstate, Bool.and_eq_true] at hc
  obtain ⟨⟨⟨⟨⟨⟨⟨⟨-, huri⟩, -⟩, hguid⟩, hearly⟩, -⟩, -⟩, hlate⟩, -⟩ := hc
  have hresult := (hj.granted hstate).2
  rw [Journal.closed_iff]
  constructor
  · intro hw
    have hc := hw.consistent
    simp only [Journal.consistent, Bool.and_eq_true, decide_eq_true_eq] at hc
    exact hc.1.1.1.1.1.1.2
  · intro hfits
    refine ⟨hj.accepted, ?_, fun hs => ?_⟩
    · unfold Journal.grantable at happ
      simp only [Journal.consistent, Journal.withGrant, hstate, Bool.and_eq_true, huri, hguid,
        hearly, hlate, hresult, hfits, decide_true, and_true]
      by_cases hs : j.assignment.schema ≥ 2
      · rw [if_pos hs] at happ
        obtain ⟨a, rfl, hv⟩ := happ
        simp [hv, htick, Phase.completed]
      · rw [if_neg hs] at happ
        subst happ
        simp [show j.assignment.schema < 2 by omega, Phase.completed]
    · have hs : ¬j.assignment.schema ≥ 2 := Int.not_le.mpr hs
      unfold Journal.grantable at happ
      rwa [if_neg hs] at happ

variable {expected reply : Value}

theorem grantApproval_eq_ok {now : Time}
    (hlocal : ¬journal.assignment.schema ≥ 2 → expected = .null) :
    (∃ approval, grantApproval journal reply expected now = .ok approval) ↔
      GrantApproved journal reply expected now := by
  unfold grantApproval GrantApproved
  by_cases hs : journal.assignment.schema ≥ 2
  · simp only [if_pos hs]
    constructor
    · rintro ⟨approval, hok⟩
      obtain ⟨x, hx, hok⟩ := bind_eq_ok.mp hok
      obtain ⟨a, ha, hok⟩ := bind_eq_ok.mp hok
      obtain ⟨_, hcurrent, _⟩ := bind_eq_ok.mp hok
      obtain ⟨rfl, -⟩ := parsePortalApproval_eq_ok.mp ha
      have hcurrent := throwIf_eq_ok.mp hcurrent
      simp only [not_or, not_not, Bool.not_eq_false] at hcurrent
      exact ⟨a, Value.at!_eq_ok.mp hx, hcurrent.1.symm, hcurrent.2⟩
    · rintro ⟨a, hx, rfl, hcurrent⟩
      have hv : a.valid journal.assignment journal.deviceUri = true := by
        simp only [portalApprovalCurrent, Bool.and_eq_true] at hcurrent
        exact hcurrent.1.1
      refine ⟨some a, bind_eq_ok.mpr ⟨_, Value.at!_eq_ok.mpr hx, ?_⟩⟩
      refine bind_eq_ok.mpr ⟨a, parsePortalApproval_eq_ok.mpr ⟨rfl, hv⟩, ?_⟩
      exact bind_eq_ok.mpr ⟨(), throwIf_eq_ok.mpr (by simp [hcurrent]), rfl⟩
  · simp only [if_neg hs]
    exact ⟨fun _ => hlocal hs, fun _ => ⟨_, rfl⟩⟩

theorem grantApproval_grantable {now : Time} (hnone : journal.portalApproval = none)
    {approval : Option Approval} (hok : grantApproval journal reply expected now = .ok approval) :
    journal.grantable approval := by
  unfold grantApproval at hok
  unfold Journal.grantable
  by_cases hs : journal.assignment.schema ≥ 2
  · rw [if_pos hs] at hok ⊢
    obtain ⟨x, _, hok⟩ := bind_eq_ok.mp hok
    obtain ⟨a, ha, hok⟩ := bind_eq_ok.mp hok
    obtain ⟨_, _, hok⟩ := bind_eq_ok.mp hok
    cases hok
    exact ⟨a, rfl, (parsePortalApproval_eq_ok.mp ha).2⟩
  · rw [if_neg hs] at hok ⊢
    cases hok
    exact hnone

/-- Recording a grant saves the journal with its approval and deadline, and nothing when the
approval is refused. -/
theorem recordGrant_saved (journal : Journal) (reply expected : Value) (deadline : UInt64)
    (now : Time) (world : W) :
    ((recordGrant h journal reply deadline expected now).after (start journal world)).saved =
      match grantApproval journal reply expected now with
      | .ok approval => [journal.withGrant approval deadline]
      | .error _ => [] := by
  cases hok : grantApproval journal reply expected now with
  | error e =>
    refine (wp_iff_after (I := fun s : Run W => s.saved = [])).mp ?_
    unfold recordGrant
    rw [wp_bind, hok]
    exact rfl
  | ok approval =>
    refine (wp_iff_after (I := fun s : Run W =>
      s.saved = [journal.withGrant approval deadline])).mp ?_
    unfold recordGrant
    rw [wp_bind, hok, wp_ofExcept_ok, wp_bind, wp_update, wp_bind,
      wp_save]
    exact wp_call_of _ (fun _ _ => rfl) (fun _ _ => rfl)

/-- A refused claim is recorded in a closed journal. -/
theorem recordRefusal_saved {journal : Journal} (hj : journal.Wellformed catalog)
    (hwrite : journal.assignment.inspection = false) (hguid : journal.gpoGuid = "") {s : Run W}
    (hjournal : s.journal = journal) (hsaved : s.saved = []) {phase : Phase} {status : Status}
    {code : String} (hphase : phase = .terminal ∧ status = .failed ∨
      phase = .reconciliation ∧ status = .requiresReconciliation) :
    (recordRefusal h phase status code).wp (fun _ s' => AllClosed catalog s')
      (fun _ s' => AllClosed catalog s') s := by
  have hnone : ∀ t : Run W, t.saved = [] → AllClosed catalog t := by
    intro t ht j hj
    rw [ht] at hj
    exact absurd hj List.not_mem_nil
  have hwell : ∀ r : Receipt, r.valid = true → r.status = status → r.gpoGuid = none →
      r.evidence = .none → (journal.moved phase journal.gpoGuid (some r)).Wellformed catalog := by
    intro r hv hstatus hnone he
    rw [hguid]
    rcases hphase with ⟨rfl, rfl⟩ | ⟨rfl, rfl⟩
    · exact hj.failed hv hstatus hnone he
    · have hr := hj.reconciling hwrite hv hstatus he
      rwa [hnone] at hr
  unfold recordRefusal
  rw [wp_bind, wp_update, wp_bind, wp_ofExcept]
  refine ⟨fun r hr => ?_, fun _ _ => hnone _ hsaved⟩
  obtain ⟨rfl, hv⟩ := result_eq_ok.mp hr
  rw [wp_bind, wp_update, wp_bind]
  refine wp_mono (save_saved h (hnone _ hsaved) (Journal.closed_iff.mpr ?_)) (fun _ _ h' => h')
    (fun _ _ h' => h')
  rw [hjournal]
  exact hwell _ hv rfl rfl rfl

/-- What passes the checks of a claim's reply. -/
theorem checkClaim_eq_ok (hacc : journal.assignment.Accepted catalog) {deadline : UInt64}
    {authorized : Bool} {mode : String} :
    checkClaim catalog journal reply deadline expected = .ok (authorized, mode) ↔
      (journal.state = .granted ∧ journal.grantDeadlineTick = 0 ∧ journal.gpoGuid = "" ∧
        journal.result = none ∧ journal.portalApproval = none ∧ deadline ≠ 0) ∧
      reply.get? "authorized" = some (.bool authorized) ∧
      reply.get? "mode" = some (.str mode) ∧ journal.assignment.inspection = false ∧
      objectSize reply = some (if decide (journal.assignment.schema ≥ 2) && authorized &&
        mode == "execute" then 4 else 3) ∧
      reply.get? "job" = some journal.assignment.toJson ∧
      (¬journal.assignment.schema ≥ 2 → expected = .null) := by
  unfold checkClaim
  constructor
  · intro hc
    obtain ⟨_, hwaiting, hc⟩ := bind_eq_ok.mp hc
    obtain ⟨x, hx, hc⟩ := bind_eq_ok.mp hc
    obtain ⟨auth, hauth, hc⟩ := bind_eq_ok.mp hc
    obtain ⟨y, hy, hc⟩ := bind_eq_ok.mp hc
    obtain ⟨m, hm, hc⟩ := bind_eq_ok.mp hc
    obtain ⟨_, hinspection, hc⟩ := bind_eq_ok.mp hc
    obtain ⟨_, hsize, hc⟩ := bind_eq_ok.mp hc
    obtain ⟨z, hz, hc⟩ := bind_eq_ok.mp hc
    obtain ⟨job, hjob, hc⟩ := bind_eq_ok.mp hc
    obtain ⟨_, hsame, hc⟩ := bind_eq_ok.mp hc
    obtain ⟨_, hlocal, hc⟩ := bind_eq_ok.mp hc
    cases hc
    rw [throwIf_eq_ok] at hwaiting hinspection hsize hsame hlocal
    obtain rfl := Value.asBool_eq_ok.mp hauth
    obtain rfl := Value.asStr_eq_ok.mp hm
    obtain ⟨rfl, -⟩ := parseJob_eq_ok.mp hjob
    obtain rfl := not_not.mp hsame
    refine ⟨by simpa [not_or] using hwaiting, Value.at!_eq_ok.mp hx, Value.at!_eq_ok.mp hy,
      by simpa using hinspection, not_not.mp hsize, Value.at!_eq_ok.mp hz, fun hs => ?_⟩
    simpa [hs] using hlocal
  · rintro ⟨hwaiting, hauth, hmode, hinspection, hsize, hjob, hlocal⟩
    have hthrow := fun {c : Prop} [Decidable c] (e : Exn) (hc : ¬c) =>
      throwIf_eq_ok (e := e) (u := ()).mpr hc
    refine bind_eq_ok.mpr ⟨(), hthrow _ (by simpa [not_or] using hwaiting), ?_⟩
    refine bind_eq_ok.mpr ⟨_, Value.at!_eq_ok.mpr hauth, ?_⟩
    refine bind_eq_ok.mpr ⟨_, rfl, ?_⟩
    refine bind_eq_ok.mpr ⟨_, Value.at!_eq_ok.mpr hmode, ?_⟩
    refine bind_eq_ok.mpr ⟨_, rfl, ?_⟩
    refine bind_eq_ok.mpr ⟨(), hthrow _ (by simp [hinspection]), ?_⟩
    refine bind_eq_ok.mpr ⟨(), hthrow _ (not_not.mpr hsize), ?_⟩
    refine bind_eq_ok.mpr ⟨_, Value.at!_eq_ok.mpr hjob, ?_⟩
    refine bind_eq_ok.mpr ⟨_, parseJob_toJson hacc, ?_⟩
    refine bind_eq_ok.mpr ⟨(), hthrow _ (not_not.mpr rfl), ?_⟩
    refine bind_eq_ok.mpr ⟨(), hthrow _ (fun hc => hc.2 (hlocal (by simpa using hc.1))), rfl⟩

/-- A recorded claim saves closed journals exactly when it records no deadline that does not
fit. -/
theorem recordClaim_saved {journal : Journal} (hj : journal.Wellformed catalog) (reply : Value)
    (deadline : UInt64) (expected : Value) (now : Time) (world : W) :
    AllClosed catalog
        ((recordClaim h catalog reply deadline expected now).after (start journal world)) ↔
      ¬ClaimLoses journal reply deadline expected now := by
  have hnone : AllClosed catalog (start journal world) :=
    fun _ hm => absurd hm List.not_mem_nil
  -- What recording a grant saves is closed unless the deadline of an expected grant is too large.
  have hgrant : ∀ {authorized : Bool} {mode : String},
      checkClaim catalog journal reply deadline expected = .ok (authorized, mode) →
      (AllClosed catalog
          ((recordGrant h journal reply deadline expected now).after (start journal world)) ↔
        (GrantApproved journal reply expected now → (deadline.toNat : Int) ≤ int64Max)) := by
    intro authorized mode hcheck
    obtain ⟨⟨hstate, -, -, -, happroval, hpos⟩, -, -, -, -, -, hlocal⟩ :=
      (checkClaim_eq_ok hj.accepted).mp hcheck
    unfold AllClosed
    rw [recordGrant_saved h, ← grantApproval_eq_ok hlocal]
    cases hok : grantApproval journal reply expected now with
    | error e => simp
    | ok approval =>
      have hg := grantApproval_grantable happroval hok
      simp [Journal.withGrant_closed hj hstate hg hpos]
  rw [← wp_iff_after (I := AllClosed catalog)]
  unfold recordClaim
  rw [wp_bind, wp_journal, wp_bind, wp_ofExcept]
  constructor
  · rintro ⟨hall, -⟩ ⟨hlarge, hreply⟩
    obtain ⟨hstate, htick, hguid, hresult, happroval⟩ := hreply.waiting
    have hpos : deadline ≠ 0 := by
      rintro rfl
      simp [int64Max] at hlarge
    have hlocal : ¬journal.assignment.schema ≥ 2 → expected = .null :=
      fun hs => (if_neg hs).mp hreply.approved
    have hcheck : checkClaim catalog journal reply deadline expected = .ok (true, "execute") :=
      (checkClaim_eq_ok hj.accepted).mpr ⟨⟨hstate, htick, hguid, hresult, happroval, hpos⟩,
        hreply.authorized, hreply.mode, hreply.write, by simpa using hreply.size, hreply.job, hlocal⟩
    have hclosed := (hgrant hcheck).mp
      (wp_iff_after (I := AllClosed catalog).mp (hall _ hcheck))
    have hfits := hclosed hreply.approved
    omega
  · intro hkeeps
    refine ⟨?_, fun _ _ => hnone⟩
    rintro ⟨authorized, mode⟩ hcheck
    obtain ⟨⟨hstate, htick, hguid, hresult, happroval, hpos⟩, hauth, hmode, hwrite, hsize, hjob,
      hlocal⟩ := (checkClaim_eq_ok hj.accepted).mp hcheck
    refine (wp_ite _ _).mpr ⟨fun hexecute => ?_, fun _ => ?_⟩
    · obtain ⟨rfl, hmode'⟩ := Bool.and_eq_true_iff.mp hexecute
      obtain rfl := eq_of_beq hmode'
      refine wp_iff_after (I := AllClosed catalog).mpr ((hgrant hcheck).mpr fun happ => ?_)
      refine Int.not_lt.mp fun hlarge => hkeeps ⟨hlarge, ?_⟩
      exact ⟨⟨hstate, htick, hguid, hresult, happroval⟩, hwrite, hauth, hmode,
        by simpa using hsize, hjob, happ⟩
    · refine (wp_ite _ _).mpr ⟨fun _ => ?_, fun _ => ?_⟩
      · exact recordRefusal_saved h hj hwrite hguid rfl rfl (.inl ⟨rfl, rfl⟩)
      · exact recordRefusal_saved h hj hwrite hguid rfl rfl (.inr ⟨rfl, rfl⟩)

end

/-! ## Every entry -/

/-- The functions that save the journal of a job. -/
inductive Entry where
  | inspect
  | execute
  | claim (reply : Value) (deadline : UInt64) (expectedApproval : Value) (now : Time)

section
variable {W : Type}

/-- The journals an entry passes to `save`, in order, when it starts from a journal. -/
def Entry.saves (e : Entry) (catalog : Catalog) (h : Host W) (journal : Journal) (world : W) :
    List Journal :=
  match e with
  | .inspect => ((inspectManaged catalog h).after (Run.start journal world)).saved
  | .execute => ((executeManaged catalog h).after (Run.start journal world)).saved
  | .claim reply deadline expected now =>
    ((recordClaim h catalog reply deadline expected now).after (Run.start journal world)).saved

theorem Entry.saves_inspect (catalog : Catalog) (h : Host W) (journal : Journal) (world : W) :
    Entry.inspect.saves catalog h journal world =
      ((inspectManaged catalog h).after (start journal world)).saved := rfl

/-- What makes an entry save a journal that cannot be loaded again. -/
def Entry.Loses (e : Entry) (catalog : Catalog) (h : Host W) (journal : Journal) (world : W) :
    Prop :=
  match e with
  | .inspect => InspectLoses catalog h journal world
  | .execute => ExecuteLoses catalog h journal world
  | .claim reply deadline expected now => ClaimLoses journal reply deadline expected now

/-- Whatever the provider answers and whichever saves fail, from a journal that could be loaded
every journal saved can be loaded again, except where the entry loses it. -/
theorem entry_saves_closed_iff (e : Entry) (catalog : Catalog) (h : Host W) (journal : Journal)
    (world : W) (hj : journal.Closed catalog) :
    (∀ j ∈ e.saves catalog h journal world, j.Closed catalog) ↔
      ¬e.Loses catalog h journal world := by
  have hwell := Journal.closed_iff.mp hj
  cases e with
  | inspect => exact inspectManaged_saved h hwell world
  | execute => exact executeManaged_saved h hwell world
  | claim reply deadline expected now =>
    exact recordClaim_saved h hwell reply deadline expected now world

end

/-! ### An inspection whose save fails -/

/-- A baseline component of the machine. -/
def sampleComponent : Component :=
  { artifactSha256 := "aaaaaaaaaaaaaaaaaaaaaaaaaaaaaaaaaaaaaaaaaaaaaaaaaaaaaaaaaaaaaaaa",
    scope := .machine, files := [] }

/-- A catalog with one component. -/
def sampleCatalog : Catalog :=
  { lookupComponent := fun baseline backup =>
      if baseline == "server-2025" && backup == "{11111111-1111-4111-8111-111111111111}" then
        some sampleComponent else none,
    overrideComponents := [] }

/-- The fields of a job for that component, in every operation. -/
def sampleCore (operation : Operation) : JobCore :=
  { jobId := "10000000-0000-4000-8000-000000000001", inputDigest := "", operation,
    domainDnsName := "corp.example", domainGuid := "20000000-0000-4000-8000-000000000002",
    forestDnsName := "corp.example", executorDcFqdn := "dc1.corp.example",
    scopeId := "30000000-0000-4000-8000-000000000003", scopeRevision := 1, targetTier := 1,
    baselineId := "server-2025", profile := "server",
    backupId := "{11111111-1111-4111-8111-111111111111}",
    artifactSha256 := sampleComponent.artifactSha256, pilotDisplayName := "Baseline",
    expiresAt := "2030-01-01T00:10:00Z" }

/-- The managed policy of the sample jobs, disabled and without links. -/
def samplePolicy : Policy :=
  { guid := "40000000-0000-4000-8000-000000000004", name := "Baseline",
    description := "IPMS managed GPO; id=50000000-0000-4000-8000-000000000005",
    computerEnabled := false, userEnabled := false, computerDs := 1, computerSysvol := 1,
    userDs := 1, userSysvol := 1, ownerSid := "S-1-5-21-1-2-3-512",
    securityDigest := "bbbbbbbbbbbbbbbbbbbbbbbbbbbbbbbbbbbbbbbbbbbbbbbbbbbbbbbbbbbbbbbb",
    wmiFilter := "", links := [] }

/-- The target of the sample jobs, without links. -/
def sampleOu : Ou :=
  { dn := "OU=Servers,DC=corp,DC=example", guid := "60000000-0000-4000-8000-000000000006",
    usn := "1", blocked := false, links := [], inheritedLinks := [] }

/-- The directory state of the sample jobs. -/
def sampleState : Snapshot :=
  { domainAdminsSid := "S-1-5-21-1-2-3-512", gpo := some samplePolicy, ous := [sampleOu],
    nameAvailable := true }

/-- The inspection that comes before linking the sample policy, not sealed yet. -/
def sampleInspectionDraft : ManagedJob :=
  { toJobCore := sampleCore .inspectManagedGpo, approvalMode := "inspection",
    managedId := "50000000-0000-4000-8000-000000000005", managedRevision := 1,
    gpoGuid := samplePolicy.guid, ownerMarker := samplePolicy.description,
    targetOus := [sampleOu.dn], linkOrders := [1], preflightId := "", expectedState := none,
    intendedOperation := .linkManagedGpo,
    safetyReview := { managementAccess := false, recoveryAccess := false }, override := none }

/-- The inspection with the digest of its document. -/
def sampleInspection : ManagedJob := sampleInspectionDraft.seal

def sampleInspectionJournal : Journal :=
  { assignment := .managed sampleInspection, deviceUri := "urn:ipms:device:1" }

/-- The sample journal can be loaded, and the sample state passes the checks before the link it is
inspected for. -/
theorem sampleInspection_checked : sampleInspectionJournal.Closed sampleCatalog ∧
    StateAccepted sampleCatalog sampleInspection sampleState := by
  have hserializes : (inputDigest sampleInspectionDraft.toJson).toOption.isSome = true := by
    unfold ManagedJob.toJson
    rw [inputDigest_isSome]
    decide +kernel
  have hacc : (Job.managed sampleInspection).Accepted sampleCatalog :=
    ManagedJob.accepted_seal (by decide +kernel) (by decide +kernel) (fun _ h => nomatch h)
      hserializes
  have hsize : serializedSize sampleState.toJson = some 627 := by
    rw [serializedSize_eq]
    decide +kernel
  have hvalid : sampleState.valid = true := by
    unfold Snapshot.valid
    rw [hsize]
    decide +kernel
  have hreserve : resultReserve sampleCatalog sampleInspection = .ok 1583 := by
    unfold resultReserve
    simp only [serialize_eq]
    decide +kernel
  constructor
  · exact Journal.closed_iff.mpr ⟨hacc, by decide +kernel, fun _ => rfl⟩
  · refine ⟨hvalid, .inl rfl, rfl, by decide +kernel, ?_, ?_⟩
    · exact (checkCapacity_eq_ok sampleCatalog).mpr fun _ => ⟨_, _, hsize, hreserve, by decide⟩
    · rintro g ⟨⟩
      decide +kernel

/-- A host that answers an inspection but cannot save. -/
def unsavedHost : Host Unit :=
  let fails : {α : Type} → Call Unit α := fun w => (.error ⟨"write failed"⟩, w)
  { inspect := fun w => (.ok sampleState.toJson, w), prepare := fails, create := fails,
    initializeGpo := fun _ => fails, adopt := fun _ => fails, backup := fun _ => fails,
    link := fun _ => fails, activate := fun _ => fails, deactivate := fun _ => fails,
    remove := fun _ => fails, save := fun _ => fails, authority := fun w => (.ok true, w),
    consume := fails }

/-- The inspection finds a policy, its save fails, and the failure that is saved next still
carries the policy: a restarted agent cannot load it. -/
theorem inspection_saves_unloadable :
    sampleInspectionJournal.Closed sampleCatalog ∧
      ∃ j ∈ Entry.inspect.saves sampleCatalog unsavedHost sampleInspectionJournal (),
        ¬j.Closed sampleCatalog := by
  refine ⟨sampleInspection_checked.1, ?_⟩
  have hwell := Journal.closed_iff.mp sampleInspection_checked.1
  have hloses : InspectLoses sampleCatalog unsavedHost sampleInspectionJournal () := by
    refine ⟨rfl, sampleInspection, rfl, rfl, sampleState, (), (), (), ⟨"write failed"⟩, (), rfl, rfl,
      sampleInspection_checked.2, rfl, by decide, rfl⟩
  by_contra hno
  push Not at hno
  rw [Entry.saves_inspect] at hno
  exact (inspectManaged_saved unsavedHost hwell ()).mp hno hloses

/-- The claim of the sample inspection is refused, and nothing is saved. -/
theorem entry_saves_closed_sample :
    sampleInspectionJournal.Closed sampleCatalog ∧
      ((∀ j ∈ Entry.execute.saves sampleCatalog unsavedHost sampleInspectionJournal (),
          j.Closed sampleCatalog) ↔
        ¬Entry.execute.Loses sampleCatalog unsavedHost sampleInspectionJournal ()) :=
  ⟨sampleInspection_checked.1, entry_saves_closed_iff .execute sampleCatalog unsavedHost
    sampleInspectionJournal () sampleInspection_checked.1⟩

end Ipms.Agent.Gpo
