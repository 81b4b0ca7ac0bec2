import Ipms.Server.Gpo.EventMoves

/-
  Ipms.Server.Gpo.JobRows

  The moves of the tables read at one job: what a move can make of its row.  A
  row is never deleted, and each move changes it in one of a few ways.
-/

namespace Ipms.Server.Gpo

open Ipms.Lib Ipms.ManagementJson Txn
open Ipms.Agent.Gpo (Job ManagedJob)

/-! ## One row -/

/-- What a move can make of the row of a job. -/
inductive RowMove (c : Content) (now : Time) (acked : Bool) (db : Db) (j : GpoImportJob) :
    GpoImportJob → Prop where
  | same : RowMove c now acked db j j
  | step {k : GpoImportJob} : JobStep c now db j k → RowMove c now acked db j k
  | ended {k : GpoImportJob} : JobEnd c now j k → RowMove c now acked db j k
  | succeeded {a : ManagedJob} {policy : ManagedGpoPolicy} {status : JobStatus} {code : String}
      {d : ResultDocument} :
      Receivable c now db j a policy status code d → RowMove c now acked db j (j.succeed status d now)
  | released {record : GpoReconciliation} {tenant : Tenant} :
      acked = true → Releasable c now db record j tenant → RowMove c now acked db j { j with status := .reconciled }
  | forgotten (user : Nat) : RowMove c now acked db j (j.forget user)

section
variable {c : Content} {now : Time} {b : Bool} {db db' : Db} {j k : GpoImportJob}

theorem JobStep.id_eq (h : JobStep c now db j k) : k.id = j.id := by
  cases h <;> rfl

theorem receivePolicy_jobs {a : ManagedJob} {policy : ManagedGpoPolicy} {evidence : Value}
    (h : (receivePolicy c j a policy evidence).exec db = .ok ((), db')) : db'.jobs = db.jobs := by
  have hdelete : (deletePolicy policy).exec db = .ok ((), db') → db'.jobs = db.jobs := by
    intro h
    cases h
    rfl
  unfold receivePolicy at h
  split at h
  · split at h
    · exact hdelete h
    · cases h
      rfl
  · split at h
    · exact hdelete h
    · obtain ⟨m, u, hm, hrest⟩ := exec_bind_ok.mp h
      cases hm
      obtain ⟨changed, v, hchanged, hsave⟩ := exec_bind_ok.mp hrest
      obtain ⟨-, hv⟩ := exec_ofExcept_ok.mp hchanged
      rw [hv] at hsave
      unfold savePolicy at hsave
      obtain ⟨w, x, hw, hsave⟩ := exec_bind_ok.mp hsave
      cases hw
      split at hsave
      · cases hsave
      · cases hsave
        rfl

theorem get?_saved {r : GpoImportJob} {id : String} (hr : db.jobs.get? r.id = some r)
    (hk : k.id = r.id) (hj : db.jobs.get? id = some j) :
    (db.jobs.save k).get? id = some j ∨ j = r ∧ (db.jobs.save k).get? id = some k := by
  by_cases hid : id = r.id
  · subst hid
    rw [hr] at hj
    cases hj
    refine .inr ⟨rfl, ?_⟩
    rw [← hk]
    exact Table.get?_save_self (by rw [hk]; exact hr)
  · refine .inl ?_
    rw [← hj]
    exact Table.get?_save_ne (by rw [hk]; exact hid)

/-- A move keeps every row of the jobs, and changes it in one of these ways. -/
theorem Move.row (h : Move c now b db db') {id : String} (hj : db.jobs.get? id = some j) :
    ∃ k, db'.jobs.get? id = some k ∧ RowMove c now b db j k := by
  cases h with
  | job hr hstep =>
    rcases get?_saved hr hstep.id_eq hj with h | ⟨rfl, h⟩
    · exact ⟨j, h, .same⟩
    · exact ⟨_, h, .step hstep⟩
  | ended hr hend =>
    rw [Db.saveEnded_jobs]
    rcases get?_saved hr hend.id_eq hj with h | ⟨rfl, h⟩
    · exact ⟨j, h, .same⟩
    · exact ⟨_, h, .ended hend⟩
  | @succeeded _ j' _ _ status _ d hr hreceivable hexec =>
    rw [receivePolicy_jobs hexec]
    rcases get?_saved (k := j'.succeed status d now) hr rfl hj with h | ⟨rfl, h⟩
    · exact ⟨j, h, .same⟩
    · exact ⟨_, h, .succeeded hreceivable⟩
  | @released j' _ _ _ hacked hr hreleasable _ _ =>
    rcases get?_saved (k := { j' with status := .reconciled }) hr rfl hj with h | ⟨rfl, h⟩
    · exact ⟨j, h, .same⟩
    · exact ⟨_, h, .released hacked hreleasable⟩
  | made hnew hinsert =>
    refine ⟨j, ?_, .same⟩
    show Table.get? _ id = some j
    have hfree := (Table.insert_eq_some hinsert).1
    rw [Table.get?_insert hinsert, if_neg ?_, hj]
    rintro rfl
    rw [hj] at hfree
    cases hfree
  | forgotten user =>
    refine ⟨j.forget user, ?_, .forgotten user⟩
    have hget := Table.get?_mapRows (t := db.jobs) (f := GpoImportJob.forget user) (fun _ => rfl) id
    rw [hj] at hget
    exact hget
  | _ => exact ⟨j, hj, .same⟩

theorem Moved.row {P : GpoImportJob → Prop} (hP : ∀ db j k, P j → RowMove c now b db j k → P k)
    (h : Moved c now b db db') {id : String} (hj : db.jobs.get? id = some j) (hPj : P j) :
    ∃ k, db'.jobs.get? id = some k ∧ P k := by
  induction h with
  | refl => exact ⟨j, hj, hPj⟩
  | tail _ hmove ih =>
    obtain ⟨k, hk, hPk⟩ := ih
    obtain ⟨k', hk', hrow⟩ := hmove.row hk
    exact ⟨k', hk', hP _ _ _ hPk hrow⟩

end

theorem Run.row {c : Catalogue} {P : GpoImportJob → Prop}
    (hP : ∀ now b db j k, P j → RowMove c.toContent now b db j k → P k) {s t : State} {ls : List Label}
    (h : Run (Step c) s ls t) {id : String} {j : GpoImportJob} (hj : s.db.jobs.get? id = some j)
    (hPj : P j) : ∃ k, t.db.jobs.get? id = some k ∧ P k :=
  Run.preserves (I := fun u => ∃ k, u.db.jobs.get? id = some k ∧ P k)
    (fun _ _ _ hstep ⟨_, hk, hPk⟩ => Moved.row (fun db j k => hP _ _ db j k) hstep.moved hk hPk) h
    ⟨j, hj, hPj⟩

end Ipms.Server.Gpo
