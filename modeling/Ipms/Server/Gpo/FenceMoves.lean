import Ipms.Server.Gpo.Moves

/-
  Ipms.Server.Gpo.FenceMoves

  Expiry, lost authority and withdrawal as moves.  They end jobs one after the
  other and leave every other table alone; of a policy they change the state only.
-/

namespace Ipms.Server.Gpo

open Ipms.Lib Ipms.ManagementJson Txn

/-! ## Saving a job that ended -/

theorem exec_saveEnded (db : Db) (k : GpoImportJob) :
    (saveEnded k).exec db = .ok ((), db.saveEnded k) := by
  unfold saveEnded fencePolicy saveJob Db.saveEnded
  rw [exec_bind, exec_modify]
  simp only
  by_cases hstatus : k.status = .reconciliationRequired
  · simp only [if_pos hstatus]
    rw [exec_bind, exec_get]
    simp only
    cases ({ db with jobs := db.jobs.save k } : Db).policyForJob k with
    | none => rfl
    | some policy => rfl
  · simp only [if_neg hstatus]
    rfl

/-- A policy as it was, or asking for reconciliation. -/
def SameButState (p q : ManagedGpoPolicy) : Prop := q = p ∨ q = { p with state := .reconciliationRequired }

/-- Only jobs have changed, and the states of policies. -/
structure Db.Fenced (db db' : Db) : Prop where
  tables : db' = { db with jobs := db'.jobs, policies := db'.policies }
  kept : ∀ id p, db.policies.get? id = some p →
    ∃ q, db'.policies.get? id = some q ∧ SameButState p q
  none : ∀ id, db.policies.get? id = none → db'.policies.get? id = none

namespace Db.Fenced

theorem refl (db : Db) : db.Fenced db := ⟨rfl, fun _ p hp => ⟨p, hp, .inl rfl⟩, fun _ h => h⟩

theorem trans {a b c : Db} (h : a.Fenced b) (h' : b.Fenced c) : a.Fenced c where
  tables := by
    rw [h'.tables, h.tables]
  kept id p hp := by
    obtain ⟨q, hq, hpq⟩ := h.kept id p hp
    obtain ⟨r, hr, hqr⟩ := h'.kept id q hq
    refine ⟨r, hr, ?_⟩
    rcases hpq with rfl | rfl
    · exact hqr
    · rcases hqr with rfl | rfl
      · exact .inr rfl
      · exact .inr rfl
  none id hnone := h'.none id (h.none id hnone)

variable {db db' : Db}

theorem domains (h : db.Fenced db') : db'.domains = db.domains := by rw [h.tables]

theorem overrides (h : db.Fenced db') : db'.overrides = db.overrides := by rw [h.tables]

theorem tenants (h : db.Fenced db') : db'.tenants = db.tenants := by rw [h.tables]

theorem enrollments (h : db.Fenced db') : db'.enrollments = db.enrollments := by rw [h.tables]

/-- The policy of a job has the revision and the GPO it had. -/
theorem policyStands (h : db.Fenced db') {job : GpoImportJob} {a : Agent.Gpo.ManagedJob}
    (hp : db.PolicyStands job a) : db'.PolicyStands job a := by
  obtain ⟨p, hp, hrevision, hguid⟩ := hp
  unfold Db.policyForJob at hp
  cases hassigned : job.assignment with
  | pilot core portal =>
    rw [hassigned] at hp
    cases hp
  | managed b =>
    rw [hassigned] at hp
    simp only at hp
    obtain ⟨hget, hfilter⟩ := Option.filter_eq_some_iff.mp hp
    obtain ⟨q, hq, hsame⟩ := h.kept _ _ hget
    refine ⟨q, ?_, ?_, ?_⟩
    · unfold Db.policyForJob
      rw [hassigned]
      simp only
      rw [hq]
      refine Option.filter_eq_some_iff.mpr ⟨rfl, ?_⟩
      rcases hsame with rfl | rfl
      · exact hfilter
      · exact hfilter
    · rcases hsame with rfl | rfl
      · exact hrevision
      · exact hrevision
    · rcases hsame with rfl | rfl
      · exact hguid
      · exact hguid

theorem revisionsStand (h : db.Fenced db') {job : GpoImportJob} (hj : db.RevisionsStand job) :
    db'.RevisionsStand job where
  scope := by
    rw [h.domains]
    exact hj.scope
  override := by
    rw [h.overrides]
    exact hj.override

end Db.Fenced

theorem Db.policyForJob_get? {db : Db} {j : GpoImportJob} {p : ManagedGpoPolicy}
    (h : db.policyForJob j = some p) : db.policies.get? p.id = some p := by
  unfold Db.policyForJob at h
  cases hassigned : j.assignment with
  | pilot core portal =>
    rw [hassigned] at h
    cases h
  | managed a =>
    rw [hassigned] at h
    simp only at h
    obtain ⟨hget, -⟩ := Option.filter_eq_some_iff.mp h
    rw [Table.get?_key hget]
    exact hget

theorem Db.saveEnded_jobs (db : Db) (k : GpoImportJob) : (db.saveEnded k).jobs = db.jobs.save k := by
  unfold Db.saveEnded
  simp only
  split
  · split <;> rfl
  · rfl

theorem Db.fenced_saveEnded (db : Db) (k : GpoImportJob) : db.Fenced (db.saveEnded k) := by
  unfold Db.saveEnded
  simp only
  split
  · split
    · exact ⟨rfl, fun _ p hp => ⟨p, hp, .inl rfl⟩, fun _ h => h⟩
    · next policy hpolicy =>
        have hget : db.policies.get? policy.id = some policy := Db.policyForJob_get? hpolicy
        refine ⟨rfl, ?_, ?_⟩
        · intro id p hp
          by_cases hid : id = policy.id
          · subst hid
            rw [hget] at hp
            cases hp
            exact ⟨_, Table.get?_save_self (a := { policy with state := .reconciliationRequired })
              hget, .inr rfl⟩
          · exact ⟨p, by rw [← hp]; exact Table.get?_save_ne hid, .inl rfl⟩
        · intro id hnone
          have hid : id ≠ policy.id := by
            rintro rfl
            rw [hget] at hnone
            cases hnone
          rw [← hnone]
          exact Table.get?_save_ne hid
  · exact ⟨rfl, fun _ p hp => ⟨p, hp, .inl rfl⟩, fun _ h => h⟩

/-! ## One job after the other -/

/-- A loop over selected jobs, each of which changes its own row of the jobs only. -/
theorem yields_forJobs {T : Db → Db → Prop} (hrefl : ∀ db, T db db)
    (htrans : ∀ a b c, T a b → T b c → T a c) {select : GpoImportJob → Bool}
    {body : GpoImportJob → Request Unit}
    (hbody : ∀ db j, select j = true → db.jobs.get? j.id = some j →
      Yields (body j) (fun _ db' => T db db' ∧
        ∀ id, id ≠ j.id → db'.jobs.get? id = db.jobs.get? id) db) :
    ∀ (js : List GpoImportJob), (∀ j ∈ js, select j = true) →
      (js.map GpoImportJob.id).Nodup → ∀ db : Db, (∀ j ∈ js, db.jobs.get? j.id = some j) →
      Yields (js.forM fun job => do
        match (← get).jobs.get? job.id with
        | none => pure ()
        | some job => body job : Request Unit) (fun _ db' => T db db') db := by
  intro js
  induction js with
  | nil =>
    intro _ _ db _
    exact (yields_pure _).mpr (hrefl db)
  | cons j js ih =>
    intro hselect hnodup db hrows
    have hfirst := hselect j List.mem_cons_self
    have hget := hrows j List.mem_cons_self
    rw [List.map_cons, List.nodup_cons] at hnodup
    show Yields (_ >>= fun _ => _) _ _
    rw [yields_bind, yields_bind, yields_get, hget]
    refine (hbody db j hfirst hget).mono fun _ m hm => ?_
    refine (ih (fun k hk => hselect k (List.mem_cons_of_mem _ hk)) hnodup.2 m ?_).mono
      fun _ u hu => htrans _ _ _ hm.1 hu
    intro k hk
    have hne : k.id ≠ j.id := fun h => hnodup.1 (h ▸ List.mem_map_of_mem hk)
    rw [hm.2 k.id hne]
    exact hrows k (List.mem_cons_of_mem _ hk)

theorem yields_eachJob {T : Db → Db → Prop} (hrefl : ∀ db, T db db)
    (htrans : ∀ a b c, T a b → T b c → T a c) {select : GpoImportJob → Bool}
    {body : GpoImportJob → Request Unit}
    (hbody : ∀ db j, select j = true → db.jobs.get? j.id = some j →
      Yields (body j) (fun _ db' => T db db' ∧
        ∀ id, id ≠ j.id → db'.jobs.get? id = db.jobs.get? id) db) (db : Db) :
    Yields (eachJob select body) (fun _ db' => T db db') db := by
  unfold eachJob
  rw [yields_bind, yields_get]
  simp only
  refine yields_forJobs hrefl htrans hbody _ (fun j hj => (List.mem_filter.mp hj).2) ?_ db
    (fun j hj => Table.get?_of_mem (List.mem_filter.mp hj).1)
  exact List.Nodup.sublist (List.filter_sublist.map _) db.jobs.nodup

section
variable (c : Content) (now : Time) (b : Bool)

/-- A chain of moves that only fences. -/
def FenceMoved (db db' : Db) : Prop := Moved c now b db db' ∧ db.Fenced db'

variable {c now b}

theorem FenceMoved.refl (db : Db) : FenceMoved c now b db db := ⟨.refl, .refl db⟩

theorem FenceMoved.trans (u v w : Db) (h : FenceMoved c now b u v) (h' : FenceMoved c now b v w) :
    FenceMoved c now b u w := ⟨h.1.trans h'.1, h.2.trans h'.2⟩

theorem fenceMoved_saveEnded {db : Db} {j k : GpoImportJob} (hget : db.jobs.get? j.id = some j)
    (hend : JobEnd c now j k) : FenceMoved c now b db (db.saveEnded k) :=
  ⟨.single (.ended hget hend), db.fenced_saveEnded k⟩

theorem JobEnd.id_eq {j k : GpoImportJob} (h : JobEnd c now j k) : k.id = j.id := by
  cases h with
  | ended =>
    unfold GpoImportJob.endUnlessClaimed
    split <;> rfl
  | settled => rfl

theorem yields_saveEnded {db : Db} {j k : GpoImportJob} (hget : db.jobs.get? j.id = some j)
    (hend : JobEnd c now j k) :
    Yields (saveEnded k) (fun _ db' => FenceMoved c now b db db' ∧
      ∀ id, id ≠ j.id → db'.jobs.get? id = db.jobs.get? id) db := by
  intro _ db' h
  rw [exec_saveEnded] at h
  cases h
  refine ⟨fenceMoved_saveEnded hget hend, fun id hid => ?_⟩
  rw [Db.saveEnded_jobs]
  exact Table.get?_save_ne (by rw [hend.id_eq]; exact hid)

/-! ## The fences -/

/-- `expire_jobs` fences, and nothing else. -/
theorem yields_expireJobs (tenant : String) (db : Db) :
    Yields (expireJobs tenant now) (fun _ db' => FenceMoved c now b db db') db := by
  refine yields_eachJob FenceMoved.refl FenceMoved.trans ?_ db
  intro db j hselect hget
  simp only [expiring, Bool.and_eq_true, bne_iff_ne, ne_eq] at hselect
  exact yields_saveEnded hget (.ended hselect.1.1.2 hselect.1.2 (.inl rfl))

/-- `_invalidate` leaves the job it returns in the table. -/
theorem yields_invalidate {db : Db} {j : GpoImportJob} (hget : db.jobs.get? j.id = some j)
    (reason : String) :
    Yields (invalidate j now reason) (fun k db' => FenceMoved c now b db db' ∧ k.id = j.id ∧
      db'.jobs.get? k.id = some k ∧ (k = j ∨ k = j.endUnlessClaimed .failed reason now) ∧
      ∀ id, id ≠ j.id → db'.jobs.get? id = db.jobs.get? id) db := by
  unfold invalidate
  by_cases hactive : j.status.active && j.status != .reconciliationRequired
  · rw [if_pos hactive, yields_bind]
    simp only [Bool.and_eq_true, bne_iff_ne, ne_eq] at hactive
    have hend : JobEnd c now j (j.endUnlessClaimed .failed reason now) :=
      .ended hactive.1 hactive.2 (.inr rfl)
    intro _ db' h
    rw [exec_saveEnded] at h
    cases h
    rw [yields_pure]
    refine ⟨fenceMoved_saveEnded hget hend, hend.id_eq, ?_, .inr rfl, fun id hid => ?_⟩
    · rw [Db.saveEnded_jobs]
      exact Table.get?_save_self (by rw [hend.id_eq]; exact hget)
    · rw [Db.saveEnded_jobs]
      exact Table.get?_save_ne (by rw [hend.id_eq]; exact hid)
  · rw [if_neg hactive, yields_pure]
    exact ⟨.refl db, rfl, hget, .inl rfl, fun _ _ => rfl⟩

theorem yields_eachInvalidated (select : GpoImportJob → Bool) (reason : String) (db : Db) :
    Yields (eachJob select fun job => do
      let _ ← invalidate job now reason
      pure ()) (fun _ db' => FenceMoved c now b db db') db := by
  refine yields_eachJob FenceMoved.refl FenceMoved.trans ?_ db
  intro db j _ hget
  rw [yields_bind]
  refine (yields_invalidate (c := c) (b := b) hget reason).mono fun k db' h => ?_
  rw [yields_pure]
  exact ⟨h.1, h.2.2.2.2⟩

theorem yields_withdraw (tenant : String) (domain : Option String) (db : Db) :
    Yields (withdraw tenant domain now) (fun _ db' => FenceMoved c now b db db') db :=
  yields_eachInvalidated _ _ db

theorem yields_withdrawOverride (tenant overrideId reason : String) (db : Db) :
    Yields (withdrawOverride tenant overrideId reason now) (fun _ db' => FenceMoved c now b db db') db :=
  yields_eachInvalidated _ _ db

theorem yields_withdrawGpoJobs (tenant : String) (actor : Option Nat) (enrollment : Option String)
    (reason : String) (db : Db) :
    Yields (withdrawGpoJobs tenant actor enrollment reason now)
      (fun _ db' => FenceMoved c now b db db') db :=
  yields_eachInvalidated _ _ db

end

end Ipms.Server.Gpo
