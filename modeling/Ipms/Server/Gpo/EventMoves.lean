import Ipms.Server.Gpo.RequestMoves

/-
  Ipms.Server.Gpo.EventMoves

  The editors and the reconciliation requests are chains of moves, and with them
  every event: a step of the system takes a chain of moves from the tables it
  found to the tables it leaves.
-/

namespace Ipms.Server.Gpo

open Ipms.Lib Ipms.ManagementJson Txn Chains

section
variable {c : Catalogue} {now : Time} {b : Bool} {db : Db} {tenant : Tenant} {config : DomainSecuritySettings}

/-! ## Editors -/

theorem chains_modifyWithdraw {f : Db → Db} {t : Request Unit} (h : Move c.toContent now b db (f db))
    (ht : ∀ m, Chains (Move c.toContent now b) t m) :
    Chains (Move c.toContent now b) (do modify f; t) db :=
  andThen (modify h) fun _ m _ => ht m

theorem chains_withdraw (domain : Option String) (m : Db) :
    Chains (Move c.toContent now b) (withdraw tenant.id domain now) m :=
  FenceMoved.chains (yields_withdraw _ _ m)

theorem chains_createDomain (data : SettingsDocument) (id : String) :
    Chains (Move c.toContent now b) (createDomain c tenant data id) db := by
  unfold createDomain
  refine ofExceptBind fun _ _ => getBind ?_
  simp only
  refine throwIfBind fun _ => throwIfBind fun _ => ?_
  split
  · exact throw _
  · next domains hinsert =>
      exact (yields_set _).mpr (.single (.domainMade hinsert))

theorem chains_putDomain (hconfig : db.domains.get? config.id = some config)
    (data : SettingsDocument) (expectedRevision : Int) :
    Chains (Move c.toContent now b) (putDomain c now tenant config data expectedRevision) db := by
  unfold putDomain
  refine ofExceptBind fun data _ => throwIfBind fun hname =>
    throwIfBind fun _ => ?_
  exact chains_modifyWithdraw (.domainEdited data hconfig (by simpa using hname))
    (chains_withdraw _)

theorem chains_putApprovalPolicy (fourEyesRequired : Bool) (expectedRevision : Int) :
    Chains (Move c.toContent now b) (putApprovalPolicy now tenant fourEyesRequired expectedRevision)
      db := by
  unfold putApprovalPolicy
  refine throwIfBind fun _ => getBind ?_
  simp only
  refine throwIfBind fun _ => andThen ?_ fun _ m _ => chains_withdraw _ m
  exact (yields_set _).mpr (.single (.ruleEdited _))

theorem chains_putAuthorization (grants : List Grant) (expectedRevision : Int) :
    Chains (Move c.toContent now b) (putAuthorization now tenant config grants expectedRevision)
      db := by
  unfold putAuthorization
  refine throwIfBind fun _ => throwIfBind fun _ => getBind ?_
  simp only
  refine throwIfBind fun _ => throwIfBind fun _ =>
    andThen ?_ fun _ m _ => chains_withdraw _ m
  exact (yields_set _).mpr (.single (.grantsEdited _))

theorem chains_createOverride (custom : Bool) (data : OverrideFields)
    (baselineId backupId id : String) :
    Chains (Move c.toContent now b)
      (createOverride c.toContent tenant custom data baselineId backupId id) db := by
  unfold createOverride
  refine throwIfBind fun _ => ?_
  split
  · exact throw _
  · refine ofExceptBind fun _ _ => getBind (throwIfBind fun _ => ?_)
    split
    · exact throw _
    · next overrides hinsert =>
        exact (yields_set _).mpr (.single (.overrideMade hinsert))

theorem chains_patchOverride {row : GpoOverride} (hrow : db.overrides.get? row.id = some row)
    (data : OverrideFields) (expectedRevision : Int) :
    Chains (Move c.toContent now b)
      (patchOverride c.toContent now tenant row data expectedRevision) db := by
  unfold patchOverride
  refine throwIfBind fun _ => throwIfBind fun _ => throwIfBind fun _ => ?_
  split
  · exact throw _
  · refine throwIfBind fun _ => ofExceptBind fun _ _ => ?_
    exact chains_modifyWithdraw (.overrideEdited hrow rfl rfl) fun m =>
      FenceMoved.chains (yields_withdrawOverride _ _ _ m)

theorem chains_deleteOverride {row : GpoOverride} (hrow : db.overrides.get? row.id = some row)
    (expectedRevision : Int) :
    Chains (Move c.toContent now b) (deleteOverride row expectedRevision) db := by
  unfold deleteOverride
  refine throwIfBind fun _ => getBind (throwIfBind fun hunused => ?_)
  exact (yields_set _).mpr (.single (.overrideDeleted hrow (by simpa using hunused)))

theorem chains_deleteDraft (user : User) (revision : Int) (managedId : String) :
    Chains (Move c.toContent now b) (deleteDraft now tenant user config revision managedId) db := by
  unfold deleteDraft
  refine throwIfBind fun _ => throwIfBind fun _ => getBind ?_
  split
  · exact throw _
  · next policy hpolicy =>
      obtain ⟨hget, htenant⟩ := Option.filter_eq_some_iff.mp hpolicy
      simp only [Bool.and_eq_true, beq_iff_eq] at htenant
      rw [← Table.get?_key hget] at hget
      refine throwIfBind fun _ => bind (P := fun _ m => db.Fenced m)
        (yields_expireJobs (c := c.toContent) (b := b) tenant.id db) ?_
      intro _ m _ hfenced
      refine getBind (throwIfBind fun hidle => ?_)
      simp only [not_or, Bool.not_eq_true] at hidle
      obtain ⟨hdraft, hidle⟩ := hidle
      simp only [draft, Bool.and_eq_true, beq_iff_eq, Option.isNone_iff_eq_none,
        Bool.not_eq_false] at hdraft
      obtain ⟨⟨⟨⟨-, hguid⟩, -⟩, -⟩, hactive⟩ := hdraft
      -- The expiry may have fenced the policy; it is deleted by its identity.
      obtain ⟨q, hq, hsame⟩ := hfenced.kept _ _ hget
      have hkept : q.id = policy.id ∧ q.tenant = policy.tenant ∧ q.domainGuid = policy.domainGuid ∧
          q.gpoGuid = policy.gpoGuid ∧ q.activeJob = policy.activeJob := by
        rcases hsame with rfl | rfl <;> exact ⟨rfl, rfl, rfl, rfl, rfl⟩
      obtain ⟨hid, hqtenant, hqdomain, hqguid, hqactive⟩ := hkept
      unfold deletePolicy
      rw [← hid]
      refine (yields_modify _).mpr (.single (.draftDeleted (by rw [hid]; exact hq)
        (hqguid.trans hguid) (hqactive.trans hactive) ?_))
      intro k hk hktenant hkdomain
      have hnot := List.any_eq_false.mp hidle k hk
      simpa [hktenant, hkdomain, hqtenant, hqdomain, htenant.1] using hnot

/-! ## Requests of a reconciliation -/

theorem chains_forM {α : Type} (f : α → Request Unit)
    (hf : ∀ a m, Chains (Move c.toContent now b) (f a) m) (as : List α) (m : Db) :
    Chains (Move c.toContent now b) (as.forM f) m := by
  induction as generalizing m with
  | nil => exact pure _
  | cons a as ih => exact andThen (hf a m) fun _ u _ => ih u

theorem chains_projectReconciliation (job : GpoImportJob) :
    Chains (Move c.toContent now b) (projectReconciliation c.toContent now job tenant) db := by
  unfold projectReconciliation
  refine getBind ?_
  split
  · exact pure _
  · refine andThen (chains_expireReconciliation _) fun latest m _ => getBind ?_
    split
    · exact andThen (chains_saveReconciliation _) fun _ _ _ => pure _
    · exact pure _

theorem chains_createReconciliation (record : GpoReconciliation) :
    Chains (Move c.toContent now b) (createReconciliation record) db := by
  unfold createReconciliation
  refine getBind ?_
  split
  · exact throw _
  · split
    · exact throw _
    · exact (yields_set _).mpr (.single (.reconciliations _))

theorem chains_supersedeObserved (job : String) :
    Chains (Move c.toContent now b) (supersedeObserved job) db := by
  unfold supersedeObserved
  refine getBind ?_
  exact chains_forM retire (fun record m => chains_saveReconciliation _) _ db

theorem chains_requestReconciliation (job : GpoImportJob) (user : Nat) (id requestDigest : String) :
    Chains (Move c.toContent now b)
      (requestReconciliation c.toContent now job tenant user id requestDigest) db := by
  unfold requestReconciliation
  refine getBind ?_
  split
  · exact throwIfBind fun _ =>
      andThen (chains_projectReconciliation job) fun _ _ _ => pure _
  · refine andThen (chains_projectReconciliation job) fun latest m _ => getBind ?_
    split
    · exact throw _
    · refine throwIfBind fun _ =>
        andThen (chains_supersedeObserved _) fun _ u _ => ?_
      split
      · exact chains_createReconciliation _
      · exact throw _

theorem chains_acceptReconciliation (job : GpoImportJob) (user : Nat)
    (id observationDigest : String) :
    Chains (Move c.toContent now b)
      (acceptReconciliation c.toContent now job tenant user id observationDigest) db := by
  unfold acceptReconciliation
  refine getBind ?_
  split
  · exact throw _
  · refine throwIfBind fun _ => ?_
    split
    · exact andThen (chains_projectReconciliation job) fun _ _ _ => pure _
    · refine andThen (chains_expireReconciliation _) fun record m _ => getBind ?_
      split
      · exact throw _
      · refine andThen (chains_saveReconciliation _) fun _ u _ =>
          andThen (chains_projectReconciliation job) fun _ _ _ => pure _

/-! ## Events -/

theorem chains_findDomain {α : Type} {f : DomainSecuritySettings → Request α} (id : String)
    (hf : ∀ config, db.domains.get? config.id = some config → config.tenant = tenant.id →
      Chains (Move c.toContent now b) (f config) db) :
    Chains (Move c.toContent now b) (findDomain tenant id >>= f) db := by
  refine bind (P := fun config m => m = db ∧ db.domains.get? config.id = some config ∧
    config.tenant = tenant.id) ?_ ?_
  · unfold findDomain
    rw [yields_bind, yields_get]
    split
    · rw [yields_throw]
      trivial
    · next config hconfig =>
        obtain ⟨hget, htenant⟩ := Option.filter_eq_some_iff.mp hconfig
        rw [yields_pure, Table.get?_key hget]
        exact ⟨.refl, rfl, hget, eq_of_beq htenant⟩
  · rintro config m - ⟨rfl, hget, htenant⟩
    exact hf config hget htenant

theorem chains_findJob {α : Type} {f : GpoImportJob → Request α} (id : String)
    (hf : ∀ job, db.jobs.get? job.id = some job → job.tenant = tenant.id →
      Chains (Move c.toContent now b) (f job) db) :
    Chains (Move c.toContent now b) (findJob tenant id >>= f) db := by
  refine bind (P := fun job m => m = db ∧ db.jobs.get? job.id = some job ∧
    job.tenant = tenant.id) ?_ ?_
  · unfold findJob
    rw [yields_bind, yields_get]
    split
    · rw [yields_throw]
      trivial
    · next job hjob =>
        obtain ⟨hget, htenant⟩ := Option.filter_eq_some_iff.mp hjob
        rw [yields_pure, Table.get?_key hget]
        exact ⟨.refl, rfl, hget, eq_of_beq htenant⟩
  · rintro job m - ⟨rfl, hget, htenant⟩
    exact hf job hget htenant

theorem chains_findOverride {α : Type} {f : GpoOverride → Request α} (custom : Bool) (id : String)
    (hf : ∀ row, db.overrides.get? row.id = some row → Chains (Move c.toContent now b) (f row) db) :
    Chains (Move c.toContent now b) (findOverride tenant custom id >>= f) db := by
  refine bind (P := fun row m => m = db ∧ db.overrides.get? row.id = some row) ?_ ?_
  · unfold findOverride
    rw [yields_bind, yields_get]
    split
    · rw [yields_throw]
      trivial
    · next row hrow =>
        obtain ⟨hget, -⟩ := Option.filter_eq_some_iff.mp hrow
        rw [yields_pure, Table.get?_key hget]
        exact ⟨.refl, rfl, hget⟩
  · rintro row m - ⟨rfl, hget⟩
    exact hf row hget

/-- Every request of the portal is a chain of moves. -/
theorem chains_performPortal (user : User) (request : PortalRequest) :
    Chains (Move c.toContent now b) (performPortal c now tenant user request) db := by
  cases request with
  | queueJob domain data =>
    exact chains_findDomain domain fun config hconfig htenant =>
      andThen (chains_queueJob hconfig htenant user data) fun _ _ _ => pure _
  | preflight domain data policyId =>
    exact chains_findDomain domain fun config hconfig htenant =>
      andThen (chains_createPreflight hconfig htenant user data policyId)
        fun _ _ _ => pure _
  | change domain data =>
    exact chains_findDomain domain fun config hconfig htenant =>
      andThen (chains_createChange user data) fun _ _ _ => pure _
  | approve job inputDigest policyRevision =>
    exact chains_findJob job fun job hget _ =>
      throwIfBind fun _ => chains_approveJob hget user.id
  | createDomain data id => exact chains_createDomain data id
  | putDomain domain data expectedRevision =>
    exact chains_findDomain domain fun config hconfig _ =>
      chains_putDomain hconfig data expectedRevision
  | putApprovalPolicy fourEyesRequired expectedRevision =>
    exact chains_putApprovalPolicy fourEyesRequired expectedRevision
  | putAuthorization domain grants expectedRevision =>
    exact chains_findDomain domain fun config _ _ => chains_putAuthorization grants expectedRevision
  | createOverride custom data baselineId backupId id =>
    exact chains_createOverride custom data baselineId backupId id
  | patchOverride custom id data expectedRevision =>
    exact chains_findOverride custom id fun row hrow =>
      chains_patchOverride hrow data expectedRevision
  | deleteOverride custom id expectedRevision =>
    exact chains_findOverride custom id fun row hrow =>
      chains_deleteOverride hrow expectedRevision
  | deleteDraft domain revision managedId =>
    exact chains_findDomain domain fun config _ _ => chains_deleteDraft user revision managedId
  | requestReconciliation job id requestDigest =>
    exact chains_findJob job fun job _ _ =>
      chains_requestReconciliation job user.id id requestDigest
  | acceptReconciliation job id observationDigest =>
    exact chains_findJob job fun job _ _ =>
      chains_acceptReconciliation job user.id id observationDigest

theorem chains_freshActor (id : Nat) : Chains (Move c.toContent now b) (freshActor id) db := by
  unfold freshActor
  refine getBind ?_
  split
  · exact throw _
  · exact throwIfBind fun _ => pure _

theorem chains_findTenant (id : String) : Chains (Move c.toContent now b) (findTenant id) db := by
  unfold findTenant
  refine getBind ?_
  split
  · exact throw _
  · exact pure _

theorem chains_perform (event : Event) :
    Chains (Move c.toContent now event.acked) (perform c now event) db := by
  cases event with
  | exchange enrollment message =>
    exact andThen (chains_exchange enrollment message) fun _ _ _ => pure _
  | portal tenant user request =>
    exact andThen (chains_findTenant tenant) fun tenant m _ =>
      andThen (chains_freshActor user) fun user m _ =>
        andThen (chains_performPortal user request) fun _ _ _ => pure _
  | listJobs tenant =>
    exact andThen (FenceMoved.chains (yields_expireJobs tenant db)) fun _ _ _ => pure _
  | viewReconciliations tenant job =>
    refine andThen (chains_findTenant tenant) fun tenant m _ => ?_
    exact chains_findJob job fun job _ _ =>
      andThen (chains_projectReconciliation job) fun _ _ _ => pure _
  | withdrawJobs tenant actor enrollment reason =>
    exact andThen (FenceMoved.chains (yields_withdrawGpoJobs tenant actor enrollment reason db))
      fun _ _ _ => pure _
  | forgetUser user =>
    exact andThen (modify (.forgotten user)) fun _ _ _ => pure _
  | surround surroundings =>
    exact andThen (modify (.surrounded surroundings)) fun _ _ _ => pure _

end

theorem Step.moved {c : Catalogue} {s t : State} {l : Label} (h : Step c s l t) :
    Moved c.toContent l.time l.event.acked s.db t.db :=
  chains_perform l.event l.reply t.db h.2.2.1

end Ipms.Server.Gpo
