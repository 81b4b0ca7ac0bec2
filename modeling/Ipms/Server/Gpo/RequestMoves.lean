import Ipms.Server.Gpo.ExchangeMoves

/-
  Ipms.Server.Gpo.RequestMoves

  Every request of the portal is a chain of moves.  A job is made only where no
  other one is active in its domain, under the revisions the records have at that
  moment.
-/

namespace Ipms.Server.Gpo

open Ipms.Lib Ipms.ManagementJson Txn Chains
open Ipms.Agent.Gpo (Job ManagedJob)

section
variable {c : Content} {now : Time} {b : Bool} {db : Db} {j : GpoImportJob}

/-! ## Approvals -/

theorem chains_approveJob (hget : db.jobs.get? j.id = some j) (user : Nat) :
    Chains (Move c now b) (approveJob c now j user) db := by
  unfold approveJob
  refine getBind ?_
  split
  · next tenant enrollment htenant henrollment =>
      split
      · exact throw _
      · next hblocker =>
          refine throwIfBind fun hscope => throwIfBind fun _ =>
            throwIfBind fun _ => ?_
          simp only
          split
          · exact throw _
          · next value hvalue =>
              exact chains_saveJob hget
                (.approved htenant henrollment hblocker (by simpa using hscope) hvalue)
  · exact throw _

theorem chains_approveOnCreation (hget : db.jobs.get? j.id = some j) (user : Nat) :
    Chains (Move c now b) (approveOnCreation c now j user) db := by
  unfold approveOnCreation
  refine getBind ?_
  split
  · exact throw _
  · split
    · exact chains_approveJob hget user
    · exact pure _

theorem idle_of_conflicts (hwaiting : j.status.active = true)
    (h : db.jobs.rows.any j.conflicts = false) : ∀ k ∈ db.jobs.rows, k.tenant = j.tenant →
      k.domainGuid = j.domainGuid → k.status.active = false := by
  intro k hk htenant hguid
  have hnot := List.any_eq_false.mp h k hk
  cases hactive : k.status.active with
  | false => rfl
  | true =>
    refine absurd ?_ hnot
    simp only [GpoImportJob.conflicts, htenant, hguid, hwaiting, hactive, beq_self_eq_true,
      Bool.and_self, Bool.true_or]

theorem yields_createJob
    (hnew : (db.jobs.rows.any j.conflicts) = false → NewJob db j) :
    Yields (createJob j) (fun _ m => Moved c now b db m ∧ m.jobs.get? j.id = some j) db := by
  unfold createJob
  rw [yields_bind, yields_get]
  split
  · rw [yields_throw]
    trivial
  · next hconflicts =>
      split
      · rw [yields_throw]
        trivial
      · next jobs hinsert =>
          rw [yields_set]
          refine ⟨.single (.made (hnew (by simpa using hconflicts)) hinsert), ?_⟩
          show jobs.get? j.id = some j
          rw [Table.get?_insert hinsert, if_pos rfl]

theorem yields_idle (tenant : Tenant) (domainGuid : String) :
    Yields (idle tenant domainGuid now) (fun _ m => FenceMoved c now b db m) db := by
  unfold idle
  rw [yields_bind]
  refine (yields_expireJobs (c := c) (b := b) tenant.id db).mono fun _ m hm => ?_
  rw [yields_bind, yields_get, yields_ofExcept]
  exact fun _ _ => hm

end

section
variable {c : Catalogue} {now : Time} {b : Bool} {db : Db} {tenant : Tenant} {config : DomainSecuritySettings}

theorem chains_queueJob (hconfig : db.domains.get? config.id = some config)
    (htenant : config.tenant = tenant.id) (user : User) (data : ImportData) :
    Chains (Move c.toContent now b) (queueJob c now tenant user config data) db := by
  unfold queueJob
  refine throwIfBind fun _ => ?_
  split
  · exact throw _
  · refine getBind (throwIfBind fun _ => ?_)
    split
    · exact throwIfBind fun _ => throwIfBind fun _ => pure _
    · refine ofExceptBind fun s _ =>
        bind (yields_expireJobs (c := c.toContent) (b := b) tenant.id db) ?_
      intro _ m _ hfenced
      refine getBind (throwIfBind fun _ => throwIfBind fun _ =>
        throwIfBind fun _ => ?_)
      simp only
      refine andThen ((yields_createJob (c := c.toContent) (b := b) fun hconflicts => ?_).mono
        fun _ _ h => h.1) fun _ _ _ => pure _
      refine ⟨.inr ⟨rfl, rfl⟩, rfl, rfl, ⟨rfl, rfl⟩, idle_of_conflicts rfl hconflicts, ⟨?_, ?_⟩, ?_⟩
      · exact ⟨config, by rw [hfenced.domains]; exact hconfig, htenant, rfl⟩
      · intro a o ha
        cases ha
      · intro a ha
        cases ha

/-! ## Inspections -/

/-- What a selection knows of its override. -/
def Selection.Found (db : Db) (tenant : Tenant) (s : Selection) : Prop :=
  ∀ row, s.override = some row → db.overrides.get? row.id = some row ∧ row.tenant = tenant.id

theorem Db.selectionOverride_found {data : SelectionData} {component : Component}
    {override : Option GpoOverride} (h : db.selectionOverride c tenant data component = .ok override) :
    ∀ row, override = some row → db.overrides.get? row.id = some row ∧ row.tenant = tenant.id := by
  rintro row rfl
  unfold Db.selectionOverride at h
  split at h
  · cases h
  · split at h
    · cases h
    · next found hfound =>
        obtain ⟨⟨⟩, -, h⟩ := bind_eq_ok.mp h
        obtain ⟨⟨⟩, -, h⟩ := bind_eq_ok.mp h
        split at h
        · cases h
        · obtain ⟨⟨⟩, -, h⟩ := bind_eq_ok.mp h
          cases h
          obtain ⟨hget, htenant⟩ := Option.filter_eq_some_iff.mp hfound
          refine ⟨?_, eq_of_beq htenant⟩
          rw [Table.get?_key hget]
          exact hget

variable {user : User} {s : Selection}

theorem Db.selection_found {data : SelectionData}
    (h : db.selection c now tenant user config data = .ok s) : s.Found db tenant := by
  unfold Db.selection at h
  obtain ⟨⟨⟩, -, h⟩ := bind_eq_ok.mp h
  split at h
  · cases h
  · obtain ⟨⟨⟩, -, h⟩ := bind_eq_ok.mp h
    obtain ⟨⟨⟩, -, h⟩ := bind_eq_ok.mp h
    obtain ⟨⟨⟩, -, h⟩ := bind_eq_ok.mp h
    obtain ⟨⟨⟩, -, h⟩ := bind_eq_ok.mp h
    obtain ⟨_, -, h⟩ := bind_eq_ok.mp h
    split at h
    · cases h
    · obtain ⟨_, -, h⟩ := bind_eq_ok.mp h
      obtain ⟨_, -, h⟩ := bind_eq_ok.mp h
      obtain ⟨⟨⟩, -, h⟩ := bind_eq_ok.mp h
      obtain ⟨override, hoverride, h⟩ := bind_eq_ok.mp h
      obtain ⟨_, -, h⟩ := bind_eq_ok.mp h
      split at h
      · cases h
      · obtain ⟨⟨⟩, -, h⟩ := bind_eq_ok.mp h
        cases h
        exact Db.selectionOverride_found hoverride

/-- The policy of an inspection, found in the domain of its executor. -/
def Selection.Names (db : Db) (tenant : Tenant) (config : DomainSecuritySettings) (s : Selection)
    (p : ManagedGpoPolicy) : Prop :=
  ∃ q, db.policies.get? p.id = some q ∧ SameButState p q ∧ p.tenant = tenant.id ∧
    p.domain = config.id ∧ p.domainGuid = s.executor.report.domainGuid

theorem Selection.Names.fenced {m : Db} {p : ManagedGpoPolicy} (h : db.Fenced m)
    (hp : s.Names db tenant config p) : s.Names m tenant config p := by
  obtain ⟨q, hq, hpq, hrest⟩ := hp
  obtain ⟨r, hr, hqr⟩ := h.kept _ _ hq
  refine ⟨r, hr, ?_, hrest⟩
  rcases hpq with rfl | rfl
  · exact hqr
  · rcases hqr with rfl | rfl
    · exact .inr rfl
    · exact .inr rfl

variable {policy : ManagedGpoPolicy}

theorem chains_createInspection (hconfig : db.domains.get? config.id = some config)
    (htenant : config.tenant = tenant.id) {intent : Intent}
    (hfound : intent.operation ≠ .deleteManagedGpo → s.Found db tenant)
    (hpolicy : s.Names db tenant config policy) (requestDigest : String) :
    Chains (Move c.toContent now b)
      (createInspection c now tenant user config intent s policy requestDigest) db := by
  unfold createInspection
  refine getBind (ofExceptBind fun a ha => getBind ?_)
  unfold Db.inspectionAssignment at ha
  obtain ⟨⟨⟩, -, ha⟩ := bind_eq_ok.mp ha
  obtain ⟨override, hoverride, ha⟩ := bind_eq_ok.mp ha
  obtain ⟨⟨⟩, -, ha⟩ := bind_eq_ok.mp ha
  cases ha
  refine andThen ((yields_createJob (c := c.toContent) (b := b) fun hconflicts => ?_).mono
    fun _ _ h => h.1) fun _ _ _ => pure _
  refine ⟨.inl ⟨rfl, rfl⟩, rfl, rfl, ⟨rfl, rfl⟩, idle_of_conflicts rfl hconflicts, ⟨?_, ?_⟩, ?_⟩
  · exact ⟨config, hconfig, htenant, rfl⟩
  · intro a o ha ho hdeactivate hdelete
    cases ha
    -- Whatever is not taken away carries the override as it reads now.
    change override = some o at ho
    change intent.operation ≠ _ at hdeactivate
    change intent.operation ≠ _ at hdelete
    subst ho
    unfold Db.intendedOverride at hoverride
    split at hoverride
    · cases hoverride
    · next row hrow =>
        rw [if_neg (by simp [hdeactivate, hdelete])] at hoverride
        obtain ⟨⟨⟩, -, hoverride⟩ := bind_eq_ok.mp hoverride
        cases hoverride
        obtain ⟨hget, hrowTenant⟩ := hfound hdelete row hrow
        exact ⟨row, hget, hrowTenant, rfl⟩
  · intro a ha
    cases ha
    obtain ⟨q, hq, hsame, hptenant, hpdomain, hpguid⟩ := hpolicy
    refine ⟨q, ?_, ?_, ?_⟩
    · unfold Db.policyForJob
      refine Option.filter_eq_some_iff.mpr ⟨hq, ?_⟩
      simp only [Bool.and_eq_true, beq_iff_eq]
      rcases hsame with rfl | rfl
      · exact ⟨⟨hptenant, hpdomain⟩, hpguid⟩
      · exact ⟨⟨hptenant, hpdomain⟩, hpguid⟩
    · rcases hsame with rfl | rfl <;> rfl
    · rcases hsame with rfl | rfl <;> rfl

theorem yields_createPolicy {policy : ManagedGpoPolicy} (hstate : policy.state = .new)
    (hactive : policy.activeJob = none) (hstaged : policy.stagedJob = none) :
    Yields (createPolicy policy) (fun _ m => Moved c.toContent now b db m ∧
      m.policies.get? policy.id = some policy ∧ m.domains = db.domains ∧
      m.overrides = db.overrides) db := by
  unfold createPolicy
  rw [yields_bind, yields_get]
  split
  · rw [yields_throw]
    trivial
  · next hconflicts =>
      split
      · rw [yields_throw]
        trivial
      · next policies hinsert =>
          rw [yields_set]
          refine ⟨.single (.policyMade hstate hactive hstaged (by simpa using hconflicts) hinsert),
            ?_, rfl, rfl⟩
          show policies.get? policy.id = some policy
          rw [Table.get?_insert hinsert, if_pos rfl]

theorem yields_newPolicy (data : SelectionData) (s : Selection) (logical id : String)
    (origin : Option GpoImportJob) : Yields (do
      throwIf (db.policies.rows.any fun p => p.tenant == tenant.id &&
        p.domainGuid == s.executor.report.domainGuid && p.nameKey == c.unicode.casefold s.name)
        (.publicApiError "security_gpo_name_collision" 409)
      match semanticPurpose c.toContent data.baselineId s.component with
      | none => throw (.parseError "The component has no stable naming alias.")
      | some purpose => do
        createPolicy (newPolicy c tenant config data s logical purpose id origin)
        pure (newPolicy c tenant config data s logical purpose id origin) :
      Request ManagedGpoPolicy)
      (fun p m => Moved c.toContent now b db m ∧ s.Names m tenant config p ∧
        m.domains = db.domains ∧ m.overrides = db.overrides) db := by
  rw [yields_bind, yields_throwIf]
  intro _
  split
  · rw [yields_throw]
    trivial
  · rw [yields_bind]
    refine (@yields_createPolicy c now b db _ rfl rfl rfl).mono fun _ m hm => ?_
    rw [yields_pure]
    exact ⟨hm.1, ⟨_, hm.2.1, .inl rfl, rfl, rfl, rfl⟩, hm.2.2⟩

theorem yields_selectedPolicy (data : SelectionData) (s : Selection) (logical id : String) :
    Yields (selectedPolicy c now tenant config data s logical id) (fun p m =>
      Moved c.toContent now b db m ∧ s.Names m tenant config p ∧ m.domains = db.domains ∧
      m.overrides = db.overrides) db := by
  unfold selectedPolicy
  rw [yields_bind, yields_get]
  split
  · next managedId _ =>
      rw [yields_ofExcept]
      intro p hp
      unfold Db.namedPolicy at hp
      split at hp
      · cases hp
      · next found hfound =>
          obtain ⟨⟨⟩, hsame, hp⟩ := bind_eq_ok.mp hp
          cases hp
          rw [throwIf_eq_ok, not_or, not_not] at hsame
          obtain ⟨hget, hfilter⟩ := Option.filter_eq_some_iff.mp hfound
          simp only [Bool.and_eq_true, beq_iff_eq] at hfilter
          refine ⟨.refl, ⟨p, ?_, .inl rfl, hfilter.1, hfilter.2, hsame.1⟩, rfl, rfl⟩
          rw [Table.get?_key hget]
          exact hget
  · rw [yields_bind, yields_throwIf]
    intro _
    rw [yields_bind, yields_ofExcept]
    intro _ _
    dsimp only
    split
    · rw [yields_bind, yields_pure]
      exact yields_newPolicy data s logical id none
    · rw [yields_bind, yields_ofExcept]
      intro origin _
      rw [yields_bind, yields_pure]
      exact yields_newPolicy data s logical id (some origin)

theorem chains_createSelected (hconfig : db.domains.get? config.id = some config)
    (htenant : config.tenant = tenant.id) (user : User) (data : SelectionData)
    (requestDigest id : String) :
    Chains (Move c.toContent now b) (createSelected c now tenant user config data requestDigest id)
      db := by
  unfold createSelected
  refine getBind (ofExceptBind fun s hs => getBind
    (ofExceptBind fun earlier _ => ?_))
  have hfound := Db.selection_found hs
  cases earlier with
  | some existing => exact pure _
  | none =>
    refine bind (yields_idle (c := c.toContent) (b := b) tenant _) fun _ m _ hfenced => ?_
    refine ofExceptBind fun logical _ => bind (yields_selectedPolicy data s logical id) ?_
    rintro policy u - ⟨hpolicy, hdomains, hoverrides⟩
    refine chains_createInspection ?_ htenant ?_ hpolicy requestDigest
    · rw [hdomains, hfenced.domains]
      exact hconfig
    · intro _ row hrow
      rw [hoverrides, hfenced.overrides]
      exact hfound row hrow

theorem Db.deleteSelection_names {data : DeletionData}
    (h : db.deleteSelection c now tenant user config data = .ok (s, policy)) :
    s.Names db tenant config policy := by
  unfold Db.deleteSelection at h
  obtain ⟨⟨⟩, -, h⟩ := bind_eq_ok.mp h
  obtain ⟨⟨⟩, -, h⟩ := bind_eq_ok.mp h
  obtain ⟨_, -, h⟩ := bind_eq_ok.mp h
  split at h
  · cases h
  · next found hfound =>
      obtain ⟨⟨⟩, -, h⟩ := bind_eq_ok.mp h
      obtain ⟨⟨⟩, -, h⟩ := bind_eq_ok.mp h
      obtain ⟨⟨⟩, -, h⟩ := bind_eq_ok.mp h
      obtain ⟨_, -, h⟩ := bind_eq_ok.mp h
      obtain ⟨⟨⟩, -, h⟩ := bind_eq_ok.mp h
      obtain ⟨⟨⟩, -, h⟩ := bind_eq_ok.mp h
      obtain ⟨⟨⟩, -, h⟩ := bind_eq_ok.mp h
      split at h
      · cases h
      · next executor hexecutor =>
          obtain ⟨_, -, h⟩ := bind_eq_ok.mp h
          cases h
          obtain ⟨hget, hfilter⟩ := Option.filter_eq_some_iff.mp hfound
          obtain ⟨-, hready⟩ := Option.filter_eq_some_iff.mp hexecutor
          simp only [Bool.and_eq_true, beq_iff_eq] at hfilter hready
          refine ⟨policy, ?_, .inl rfl, hfilter.1, hfilter.2, hready.1.1⟩
          rw [Table.get?_key hget]
          exact hget

theorem chains_deletionInspection (hconfig : db.domains.get? config.id = some config)
    (htenant : config.tenant = tenant.id) (user : User) (data : DeletionData)
    (requestDigest : String) (earlier : Option GpoImportJob) :
    Chains (Move c.toContent now b) (match earlier with
      | some existing => pure existing.id
      | none => do
        let (s, policy) ← Txn.ofExcept ((← get).deleteSelection c now tenant user config data)
        idle tenant s.executor.report.domainGuid now
        let _ ← Txn.ofExcept (logicalKey c policy.baselineId s)
        createInspection c now tenant user config
          { key := data.idempotencyKey, operation := .deleteManagedGpo
            baselineId := policy.baselineId, backupId := policy.backupId
            version := policy.version } s policy requestDigest : Request String) db := by
  cases earlier with
  | some existing => exact pure _
  | none =>
    refine getBind (ofExceptBind fun selected hselected => ?_)
    obtain ⟨s, policy⟩ := selected
    have hnames := Db.deleteSelection_names hselected
    refine bind (yields_idle (c := c.toContent) (b := b) tenant _) fun _ m _ hfenced => ?_
    refine ofExceptBind fun _ _ => ?_
    refine chains_createInspection ?_ htenant (fun h => absurd rfl h) (hnames.fenced hfenced) _
    rw [hfenced.domains]
    exact hconfig

theorem chains_createDeletion (hconfig : db.domains.get? config.id = some config)
    (htenant : config.tenant = tenant.id) (user : User) (data : DeletionData)
    (requestDigest : String) :
    Chains (Move c.toContent now b) (createDeletion c now tenant user config data requestDigest) db := by
  unfold createDeletion
  by_cases hkey : uuidText data.idempotencyKey = true
  · simp only [hkey, if_true]
    exact getBind (ofExceptBind fun earlier _ => chains_deletionInspection hconfig htenant user data requestDigest earlier)
  · simp only [hkey]
    refine bind (P := fun earlier m => m = db) ((yields_pure _).mpr ⟨.refl, rfl⟩) ?_
    rintro earlier m - rfl
    exact chains_deletionInspection hconfig htenant user data requestDigest earlier

theorem chains_createPreflight (hconfig : db.domains.get? config.id = some config)
    (htenant : config.tenant = tenant.id) (user : User) (data : PreflightData) (id : String) :
    Chains (Move c.toContent now b) (createPreflight c now tenant user config data id) db := by
  unfold createPreflight
  cases data with
  | selection data => exact chains_createSelected hconfig htenant user data _ id
  | deletion data => exact chains_createDeletion hconfig htenant user data _

/-! ## Changes -/

variable {a : ManagedJob} {content : Content}

/-- What a current scope says of the records of a managed job. -/
theorem Db.managedScopeCurrent_stands {enrollment : AgentEnrollment} {j : GpoImportJob}
    (hassigned : j.assignment = .managed a) (htenant : j.tenant = tenant.id)
    (h : db.managedScopeCurrent now content j a enrollment tenant = true) :
    db.RevisionsStand j ∧ db.PolicyStands j a := by
  unfold Db.managedScopeCurrent at h
  simp only [Bool.and_eq_true] at h
  obtain ⟨⟨-, hrecords⟩, -⟩ := h
  split at hrecords
  · next policy config hpolicy hconfig =>
      simp only [Bool.and_eq_true] at hrecords
      obtain ⟨⟨⟨⟨⟨⟨⟨hmanaged, hdomain⟩, hscoped⟩, -⟩, -⟩, -⟩, -⟩, hoverride⟩ := hrecords
      simp only [Db.managedCurrent, Bool.and_eq_true, beq_iff_eq] at hmanaged
      simp only [Db.domainCurrent, Bool.and_eq_true, beq_iff_eq] at hdomain
      have hconfigTenant : config.tenant = j.tenant := by
        unfold Db.scopedFor at hscoped
        split at hscoped
        · cases hscoped
        · simp only [Bool.and_eq_true, beq_iff_eq] at hscoped
          exact hscoped.1.1.trans htenant.symm
      refine ⟨⟨⟨config, hconfig, hconfigTenant, ?_⟩, ?_⟩, policy, hpolicy, hmanaged.1.1.1.1.1,
        hmanaged.1.1.1.1.2⟩
      · rw [hdomain.1.2, hassigned]
      · intro b o hb ho hdeactivate hdelete
        rw [hassigned] at hb
        cases hb
        unfold Db.overrideCurrent at hoverride
        cases hp : policy.override with
        | none => simp [hp, ho] at hoverride
        | some id =>
          simp only [hp, ho] at hoverride
          simp only [Bool.and_eq_true] at hoverride
          obtain ⟨⟨-, hpatch⟩, -⟩ := hoverride
          have hhistorical : (a.intendedOperation == Agent.Gpo.Operation.deactivateManagedGpo ||
              a.intendedOperation == Agent.Gpo.Operation.deleteManagedGpo) = false := by
            simp [hdeactivate, hdelete]
          rw [hhistorical] at hpatch
          simp only [Db.currentPatch, Bool.and_eq_true] at hpatch
          obtain ⟨-, hpatch⟩ := hpatch
          split at hpatch
          · cases hpatch
          · next row hrow =>
              obtain ⟨hget, hrowTenant⟩ := Option.filter_eq_some_iff.mp hrow
              simp only [Bool.false_eq_true, if_false, Bool.and_eq_true, beq_iff_eq] at hpatch
              refine ⟨row, hget, (eq_of_beq hrowTenant).trans htenant.symm, ?_⟩
              rw [← hpatch.2]
              rfl
  · cases hrecords

theorem Db.inspectionCurrent_stands {j : GpoImportJob} (hassigned : j.assignment = .managed a)
    (htenant : j.tenant = tenant.id) (h : db.inspectionCurrent content now j a tenant user = true) :
    db.RevisionsStand j ∧ db.PolicyStands j a := by
  unfold Db.inspectionCurrent at h
  simp only [Bool.and_eq_true] at h
  obtain ⟨⟨-, hscope⟩, -⟩ := h
  obtain ⟨enrollment, -, hscope⟩ := (Option.any_eq_true _ _).mp hscope
  exact Db.managedScopeCurrent_stands hassigned htenant hscope

/-- An assignment names the policy and the records that another one names. -/
structure SameScope (a b : ManagedJob) : Prop where
  scope : a.scopeRevision = b.scopeRevision
  override : a.override = b.override
  intended : a.intendedOperation = b.intendedOperation
  policy : a.managedId = b.managedId
  revision : a.managedRevision = b.managedRevision
  guid : a.gpoGuid = b.gpoGuid

variable {inspected : ManagedJob}

theorem stands_changeJob (now : Time) (content : Content) (preflight : GpoImportJob) (user : Nat)
    (requestDigest : String) (hassigned : preflight.assignment = .managed inspected)
    (ha : SameScope a inspected) (h : db.RevisionsStand preflight)
    (hp : db.PolicyStands preflight inspected) :
    db.RevisionsStand (changeJob content preflight a user requestDigest now) ∧
      db.PolicyStands (changeJob content preflight a user requestDigest now) a := by
  refine ⟨⟨?_, ?_⟩, ?_⟩
  · obtain ⟨config, hconfig, htenant, hrevision⟩ := h.scope
    refine ⟨config, hconfig, htenant, ?_⟩
    rw [hrevision, hassigned]
    exact ha.scope.symm
  · intro b o hb ho hdeactivate hdelete
    cases hb
    rw [ha.override] at ho
    rw [ha.intended] at hdeactivate hdelete
    exact h.override inspected o hassigned ho hdeactivate hdelete
  · obtain ⟨policy, hpolicy, hrevision, hguid⟩ := hp
    refine ⟨policy, ?_, hrevision.trans ha.revision.symm, hguid.trans ha.guid.symm⟩
    unfold Db.policyForJob at hpolicy ⊢
    rw [hassigned] at hpolicy
    simp only [changeJob]
    rw [ha.policy]
    exact hpolicy

theorem Db.plannedChange_sameScope {data : ChangeData} {state : Agent.Gpo.Snapshot}
    (h : db.plannedChange content tenant config data policy inspected state = .ok a) :
    SameScope a inspected ∧ (Job.managed a).portalMode = true := by
  unfold Db.plannedChange at h
  obtain ⟨⟨⟩, -, h⟩ := bind_eq_ok.mp h
  obtain ⟨orders, -, h⟩ := bind_eq_ok.mp h
  obtain ⟨⟨⟩, -, h⟩ := bind_eq_ok.mp h
  cases h
  exact ⟨⟨rfl, rfl, rfl, rfl, rfl, rfl⟩, rfl⟩

theorem chains_changeInspected {data : ChangeData} {requestDigest : String}
    {preflight : GpoImportJob} (hassigned : preflight.assignment = .managed inspected)
    (htenant : preflight.tenant = tenant.id) : Chains (Move c.toContent now b)
      (changeInspected c now tenant user config data requestDigest preflight inspected) db := by
  unfold changeInspected
  refine getBind (throwIfBind fun hcurrent => throwIfBind fun _ => ?_)
  obtain ⟨hrevisions, hpolicy⟩ := Db.inspectionCurrent_stands hassigned htenant (by simpa using hcurrent)
  split
  · next policy state _ _ =>
      refine bind (yields_idle (c := c.toContent) (b := b) tenant _) fun _ m _ hfenced => ?_
      refine getBind (ofExceptBind fun a ha => ?_)
      obtain ⟨hsame, hportal⟩ := Db.plannedChange_sameScope ha
      simp only
      refine bind (yields_createJob (c := c.toContent) (b := b) fun hconflicts => ?_) ?_
      · obtain ⟨hr, hp⟩ := stands_changeJob now c.toContent preflight user.id requestDigest
          hassigned hsame (hfenced.revisionsStand hrevisions) (hfenced.policyStands hpolicy)
        refine ⟨.inr ⟨rfl, hportal⟩, rfl, rfl, ⟨rfl, rfl⟩, idle_of_conflicts rfl hconflicts, hr, ?_⟩
        intro b hb
        cases hb
        exact hp
      · intro _ u _ hget
        exact andThen (chains_approveOnCreation hget _) fun _ _ _ => pure _
  · exact throw _

theorem chains_createChange (user : User) (data : ChangeData) :
    Chains (Move c.toContent now b) (createChange c now tenant user config data) db := by
  unfold createChange
  refine throwIfBind fun _ => getBind ?_
  split
  · exact throw _
  · next preflight hpreflight =>
      obtain ⟨-, hfilter⟩ := Option.filter_eq_some_iff.mp hpreflight
      simp only [Bool.and_eq_true, beq_iff_eq] at hfilter
      refine throwIfBind fun _ => ofExceptBind fun earlier _ => ?_
      cases earlier with
      | some existing => exact pure _
      | none =>
        simp only
        split
        · exact throw _
        · next inspected hassigned => exact chains_changeInspected hassigned hfilter.1

end

end Ipms.Server.Gpo
