import Ipms.Agent.Gpo.Outcome

/-
  Ipms.Agent.Gpo.Answers

  The answers of provider and callbacks under which an execution gets as far as
  its first write, said about the world alone, and the proof that they are
  exactly the answers under which the code gets there.
-/

namespace Ipms.Agent.Gpo

open Ipms.Lib Ipms.ManagementJson Prog

section
variable {W : Type} (catalog : Catalog) (h : Host W)

/-- The artifact is unpacked where the operation needs it. -/
def PreparesContent (j : ManagedJob) (w w' : W) : Prop :=
  if j.operation.prepares then h.prepare w = (.ok (), w') else w' = w

/-- A usable backup is taken where the operation needs one. -/
def BacksUp (j : ManagedJob) (w : W) (backup : String × String) (w' : W) : Prop :=
  if j.operation.backsUp then
    h.backup j.gpoGuid w = (.ok backup, w') ∧ validUuid backup.1 = true ∧ digest backup.2 = true
  else backup = ("", "") ∧ w' = w

/-- Authority, two equal reports of the approved state, content and backup, authority
again, and the consumption of the approval: all in this order from `w` to `w'`. -/
def ReadyAnswers (j : ManagedJob) (w : W) (s : Snapshot) (backup : String × String) (w' : W) : Prop :=
  ∃ w₁ w₂ w₃ w₄ w₅ w₆, h.authority w = (.ok true, w₁) ∧ h.inspect w₁ = (.ok s.toJson, w₂) ∧
    PreparesContent h j w₂ w₃ ∧ BacksUp h j w₃ backup w₄ ∧ h.inspect w₄ = (.ok s.toJson, w₅) ∧
    h.authority w₅ = (.ok true, w₆) ∧ h.consume w₆ = (.ok (), w')

/-- A snapshot that passes the checks of the state before an operation. -/
structure StateAccepted (j : ManagedJob) (s : Snapshot) : Prop where
  valid : s.valid = true
  guid : s.guid = j.gpoGuid ∨ (j.inspection && j.intendedOperation == .deleteManagedGpo &&
    j.gpoGuid != "") = true ∧ s.gpo = none
  name : s.nameAvailable = true
  targets : checkTargets catalog j s = .ok ()
  capacity : checkCapacity catalog j s = .ok ()
  policy : ∀ g, s.gpo = some g → checkPolicy catalog j g = .ok ()

/-- Everything before the first write succeeds: the journal carries a valid approval, the
approved state passes the checks, and the answers are as they have to be. -/
structure Ready (journal : Journal) (j : ManagedJob) (w : W) (s : Snapshot)
    (backup : String × String) (w' : W) : Prop where
  approved : ∃ a, portalApprovalReceipt journal = .ok a
  expected : j.expectedState = some s
  valid : StateAccepted catalog j s
  answers : ReadyAnswers h j w s backup w'

/-! ## What the code makes of the answers -/

variable {s' : Run W}

theorem requireAuthority_eq_ok {s : Run W} {u : Unit} : (requireAuthority h).exec s = (.ok u, s') ↔
      ∃ w, h.authority s.world = (.ok true, w) ∧ s' = { s with world := w } := by
  unfold requireAuthority
  rw [exec_bind_eq_ok]
  constructor
  · rintro ⟨a, t, hcall, hthrow⟩
    obtain ⟨w, hw, rfl⟩ := Exec.exec_call_eq_ok.mp hcall
    obtain ⟨htrue, rfl⟩ := exec_throwIf_eq_ok.mp hthrow
    exact ⟨w, by rw [hw, eq_true_of_ne_false htrue], rfl⟩
  · rintro ⟨w, hw, rfl⟩
    exact ⟨true, _, Exec.exec_call_eq_ok.mpr ⟨w, hw, rfl⟩,
      exec_throwIf_eq_ok.mpr ⟨by simp, rfl⟩⟩

variable {j : ManagedJob}

theorem prepareContent_eq_ok {s : Run W} {u : Unit} : (prepareContent h j).exec s = (.ok u, s') ↔
      ∃ w, PreparesContent h j s.world w ∧ s' = { s with world := w } := by
  unfold prepareContent PreparesContent
  by_cases hp : j.operation.prepares = true
  · simp only [hp, if_true]
    exact Exec.exec_call_eq_ok
  · simp only [hp, Bool.false_eq_true, if_false, exec_pure]
    constructor
    · intro hr
      exact ⟨_, rfl, (Prod.ext_iff.mp hr).2.symm⟩
    · rintro ⟨w, rfl, rfl⟩
      rfl

theorem takeBackup_eq_ok {s : Run W} {backup : String × String} :
    (takeBackup h j).exec s = (.ok backup, s') ↔
      ∃ w, BacksUp h j s.world backup w ∧ s' = { s with world := w } := by
  unfold takeBackup BacksUp
  by_cases hb : j.operation.backsUp = true
  · simp only [hb, if_true]
    constructor
    · intro hr
      obtain ⟨b, t, hcall, hr⟩ := exec_bind_eq_ok.mp hr
      obtain ⟨w, hw, rfl⟩ := Exec.exec_call_eq_ok.mp hcall
      obtain ⟨_, t, hthrow, hr⟩ := exec_bind_eq_ok.mp hr
      obtain ⟨hvalid, rfl⟩ := exec_throwIf_eq_ok.mp hthrow
      obtain ⟨heq, rfl⟩ := Prod.ext_iff.mp hr
      cases heq
      simp only [Bool.or_eq_true, Bool.not_eq_true', not_or, Bool.not_eq_false] at hvalid
      exact ⟨w, ⟨hw, hvalid.1, hvalid.2⟩, rfl⟩
    · rintro ⟨w, ⟨hw, hu, hd⟩, rfl⟩
      refine exec_bind_eq_ok.mpr ⟨backup, _, Exec.exec_call_eq_ok.mpr ⟨w, hw, rfl⟩, ?_⟩
      exact exec_bind_eq_ok.mpr
        ⟨(), _, exec_throwIf_eq_ok.mpr ⟨by simp [hu, hd], rfl⟩, rfl⟩
  · simp only [hb, Bool.false_eq_true, if_false, exec_pure]
    constructor
    · intro hr
      obtain ⟨heq, hs⟩ := Prod.ext_iff.mp hr
      exact ⟨_, ⟨(Except.ok.inj heq).symm, rfl⟩, hs.symm⟩
    · rintro ⟨w, ⟨rfl, rfl⟩, rfl⟩
      rfl

theorem Policy.toJson_ne_null (g : Policy) : g.toJson ≠ .null := by
  simp [Policy.toJson]

theorem confirmedMissing_toJson (j : ManagedJob) (s : Snapshot) :
    confirmedMissing j s.toJson = .ok (j.inspection && j.intendedOperation == .deleteManagedGpo &&
      j.gpoGuid != "" && s.gpo == none) := by
  unfold confirmedMissing
  by_cases hc : (j.inspection && j.intendedOperation == .deleteManagedGpo && j.gpoGuid != "") = true
  · rw [if_pos hc, hc]
    have hgpo : s.toJson.at! "gpo" = .ok ((s.gpo.map Policy.toJson).getD .null) := rfl
    rw [hgpo]
    cases hg : s.gpo with
    | none => rfl
    | some g =>
      have hne : (g.toJson == .null) = false := beq_eq_false_iff_ne.mpr g.toJson_ne_null
      show Except.ok (g.toJson == .null) = _
      rw [hne]
      rfl
  · rw [if_neg hc, eq_false_of_ne_true hc]
    rfl

variable {s : Snapshot}

/-- The accepted states are the documents of the accepted snapshots. -/
theorem validateManagedState_eq_ok {v : Value} :
    validateManagedState catalog j v = .ok s ↔ v = s.toJson ∧ StateAccepted catalog j s := by
  unfold validateManagedState
  constructor
  · intro hv
    obtain ⟨missing, hmissing, hv⟩ := bind_eq_ok.mp hv
    cases hs : validSnapshot v with
    | none => rw [hs] at hv; exact nomatch hv
    | some s' =>
      rw [hs] at hv
      obtain ⟨rfl, hvalid⟩ := validSnapshot_eq_some.mp hs
      rw [confirmedMissing_toJson] at hmissing
      cases hmissing
      obtain ⟨_, hguid, hv⟩ := bind_eq_ok.mp hv
      obtain ⟨_, hname, hv⟩ := bind_eq_ok.mp hv
      obtain ⟨_, htargets, hv⟩ := bind_eq_ok.mp hv
      obtain ⟨_, hcapacity, hv⟩ := bind_eq_ok.mp hv
      have hguid := throwIf_eq_ok.mp hguid
      have hname := throwIf_eq_ok.mp hname
      have hguid' : s'.guid = j.gpoGuid ∨ (j.inspection &&
          j.intendedOperation == .deleteManagedGpo && j.gpoGuid != "") = true ∧ s'.gpo = none := by
        by_cases hg : s'.guid = j.gpoGuid
        · exact .inl hg
        · simp only [hg, ne_eq, not_false_eq_true, bne, Bool.not_eq_true',
            beq_eq_false_iff_ne, Bool.and_eq_true, and_true, Bool.not_eq_false, beq_iff_eq] at hguid ⊢
          exact .inr hguid
      have hrest : s' = s ∧ ∀ g, s'.gpo = some g → checkPolicy catalog j g = .ok () := by
        cases hg : s'.gpo with
        | none =>
          rw [hg] at hv
          exact ⟨Except.ok.inj hv, fun _ h => nomatch h⟩
        | some g =>
          rw [hg] at hv
          obtain ⟨_, hpolicy, hv⟩ := bind_eq_ok.mp hv
          exact ⟨Except.ok.inj hv, fun _ h => Option.some.inj h ▸ hpolicy⟩
      obtain ⟨rfl, hpolicy⟩ := hrest
      exact ⟨rfl, hvalid, hguid', by simpa using hname, htargets, hcapacity, hpolicy⟩
  · rintro ⟨rfl, hs⟩
    refine bind_eq_ok.mpr ⟨_, confirmedMissing_toJson j s, ?_⟩
    rw [validSnapshot_eq_some.mpr ⟨rfl, hs.valid⟩]
    refine bind_eq_ok.mpr ⟨(), throwIf_eq_ok.mpr ?_, ?_⟩
    · rcases hs.guid with hg | ⟨hc, hg⟩
      · simp [hg]
      · simp [hc, hg]
    refine bind_eq_ok.mpr ⟨(), throwIf_eq_ok.mpr (by simp [hs.name]), ?_⟩
    refine bind_eq_ok.mpr ⟨(), hs.targets, bind_eq_ok.mpr ⟨(), hs.capacity, ?_⟩⟩
    cases hg : s.gpo with
    | none => rfl
    | some g => exact bind_eq_ok.mpr ⟨(), hs.policy g hg, rfl⟩

theorem checkCapacity_eq_ok :
    checkCapacity catalog j s = .ok () ↔ (changesState j = true → ∃ n reserve,
      serializedSize s.toJson = some n ∧ resultReserve catalog j = .ok reserve ∧
        n + reserve ≤ 16384) := by
  unfold checkCapacity
  by_cases hc : changesState j = true
  · rw [if_pos hc]
    simp only [hc, forall_const]
    constructor
    · intro h
      obtain ⟨text, htext, h⟩ := bind_eq_ok.mp h
      obtain ⟨reserve, hreserve, h⟩ := bind_eq_ok.mp h
      refine ⟨text.length, reserve, ?_, hreserve, by simpa using h⟩
      unfold serializedSize
      rw [htext]
      rfl
    · rintro ⟨n, reserve, hsize, hreserve, hfits⟩
      unfold serializedSize at hsize
      cases htext : serialize s.toJson with
      | error e => rw [htext] at hsize; exact nomatch hsize
      | ok text =>
        rw [htext] at hsize
        cases hsize
        refine bind_eq_ok.mpr ⟨text, rfl, bind_eq_ok.mpr ⟨reserve, hreserve, ?_⟩⟩
        exact throwIf_eq_ok.mpr (by omega)
  · rw [if_neg hc]
    exact ⟨fun _ h => absurd h hc, fun _ => rfl⟩

theorem StateAccepted.guid_of_write (hs : StateAccepted catalog j s) (hwrite : j.inspection = false)
    : s.guid = j.gpoGuid := by
  rcases hs.guid with hg | ⟨hc, -⟩
  · exact hg
  · simp [hwrite] at hc

/-- The code gets to its first write exactly from ready answers. -/
theorem prepareWrite_eq_ok {backup : String × String} {r r' : Run W} :
    (prepareWrite catalog h j).exec r = (.ok (s, backup), r') ↔
      ∃ w, Ready catalog h r.journal j r.world s backup w ∧ r' = { r with world := w } := by
  constructor
  · intro hr
    obtain ⟨journal, _, hjournal, hr⟩ := exec_bind_eq_ok.mp hr
    cases hjournal
    obtain ⟨a, _, happroved, hr⟩ := exec_bind_eq_ok.mp hr
    obtain ⟨hreceipt, rfl⟩ := exec_ofExcept_eq_ok.mp happroved
    obtain ⟨_, _, hauth, hr⟩ := exec_bind_eq_ok.mp hr
    obtain ⟨w₁, hw₁, rfl⟩ := (requireAuthority_eq_ok h).mp hauth
    obtain ⟨state, _, hinspect, hr⟩ := exec_bind_eq_ok.mp hr
    obtain ⟨w₂, hw₂, rfl⟩ := Exec.exec_call_eq_ok.mp hinspect
    obtain ⟨s', _, hvalid, hr⟩ := exec_bind_eq_ok.mp hr
    obtain ⟨hstate, rfl⟩ := exec_ofExcept_eq_ok.mp hvalid
    obtain ⟨_, _, hexpected, hr⟩ := exec_bind_eq_ok.mp hr
    obtain ⟨hne, rfl⟩ := exec_throwIf_eq_ok.mp hexpected
    have happ := not_not.mp hne
    obtain ⟨_, _, hcontent, hr⟩ := exec_bind_eq_ok.mp hr
    obtain ⟨w₃, hw₃, rfl⟩ := (prepareContent_eq_ok h).mp hcontent
    obtain ⟨backup', _, hbackup, hr⟩ := exec_bind_eq_ok.mp hr
    obtain ⟨w₄, hw₄, rfl⟩ := (takeBackup_eq_ok h).mp hbackup
    obtain ⟨again, _, hagain, hr⟩ := exec_bind_eq_ok.mp hr
    obtain ⟨w₅, hw₅, rfl⟩ := Exec.exec_call_eq_ok.mp hagain
    obtain ⟨_, _, hsame, hr⟩ := exec_bind_eq_ok.mp hr
    obtain ⟨hequal, rfl⟩ := exec_throwIf_eq_ok.mp hsame
    obtain ⟨_, _, hauth, hr⟩ := exec_bind_eq_ok.mp hr
    obtain ⟨w₆, hw₆, rfl⟩ := (requireAuthority_eq_ok h).mp hauth
    obtain ⟨_, _, hconsume, hr⟩ := exec_bind_eq_ok.mp hr
    obtain ⟨w₇, hw₇, rfl⟩ := Exec.exec_call_eq_ok.mp hconsume
    obtain ⟨heq, rfl⟩ := Prod.ext_iff.mp hr
    cases heq
    obtain ⟨hdocument, haccepted⟩ := (validateManagedState_eq_ok catalog).mp hstate
    have hagain : again = s.toJson := by
      rw [not_not.mp hequal, happ]
      rfl
    subst hdocument hagain
    exact ⟨w₇, ⟨⟨a, hreceipt⟩, happ, haccepted,
      w₁, w₂, w₃, w₄, w₅, w₆, hw₁, hw₂, hw₃, hw₄, hw₅, hw₆, hw₇⟩, rfl⟩
  · rintro ⟨w, ⟨⟨a, happroved⟩, hexpected, hvalid, w₁, w₂, w₃, w₄, w₅, w₆, hw₁, hw₂, hw₃, hw₄, hw₅,
      hw₆, hw₇⟩, rfl⟩
    have hcall := fun {α : Type} {f : Call W α} {a : α} {t : Run W} {w : W}
      (hf : f t.world = (.ok a, w)) => Exec.exec_call_eq_ok.mpr ⟨w, hf, rfl⟩
    refine exec_bind_eq_ok.mpr ⟨r.journal, r, rfl, ?_⟩
    refine exec_bind_eq_ok.mpr ⟨a, r, exec_ofExcept_eq_ok.mpr ⟨happroved, rfl⟩, ?_⟩
    refine exec_bind_eq_ok.mpr ⟨(), _, (requireAuthority_eq_ok h).mpr ⟨w₁, hw₁, rfl⟩, ?_⟩
    refine exec_bind_eq_ok.mpr ⟨s.toJson, _, hcall hw₂, ?_⟩
    refine exec_bind_eq_ok.mpr ⟨s, _, exec_ofExcept_eq_ok.mpr
      ⟨(validateManagedState_eq_ok catalog).mpr ⟨rfl, hvalid⟩, rfl⟩, ?_⟩
    refine exec_bind_eq_ok.mpr
      ⟨(), _, exec_throwIf_eq_ok.mpr ⟨not_not.mpr hexpected, rfl⟩, ?_⟩
    refine exec_bind_eq_ok.mpr ⟨(), _, (prepareContent_eq_ok h).mpr ⟨w₃, hw₃, rfl⟩, ?_⟩
    refine exec_bind_eq_ok.mpr ⟨backup, _, (takeBackup_eq_ok h).mpr ⟨w₄, hw₄, rfl⟩, ?_⟩
    refine exec_bind_eq_ok.mpr ⟨s.toJson, _, hcall hw₅, ?_⟩
    refine exec_bind_eq_ok.mpr ⟨(), _, exec_throwIf_eq_ok.mpr ⟨?_, rfl⟩, ?_⟩
    · rw [hexpected]
      exact not_not.mpr rfl
    refine exec_bind_eq_ok.mpr ⟨(), _, (requireAuthority_eq_ok h).mpr ⟨w₆, hw₆, rfl⟩, ?_⟩
    exact exec_bind_eq_ok.mpr ⟨(), _, hcall hw₇, rfl⟩

end

end Ipms.Agent.Gpo
