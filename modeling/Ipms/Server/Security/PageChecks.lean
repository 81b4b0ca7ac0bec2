import Ipms.Lib.Fallible
import Ipms.Server.Security.Exchange

/-
  Ipms.Server.Security.PageChecks

  What the checks of a page come to: a job that has pages checks what a blank
  job checks, and that the page continues the pages before it.
-/

namespace Ipms.Server.Security

open Ipms.ManagementJson Ipms.Lib Ipms.Crypto

/-! ## Pages -/

/-- The index of a page as a key of the job. -/
def PageDocument.key (document : PageDocument) : String :=
  match document.pageIndex with
  | .int index => String.ofList (dumpsInt index)
  | _ => ""

/-- The digest of a page's evidence. -/
def PageDocument.digest (document : PageDocument) : String :=
  sha256 (canonical (.obj [("controls", document.controls), ("page_count", document.pageCount),
    ("system", document.system)]))

/-- A job before its first page. -/
def BaselineScanJob.blank (job : BaselineScanJob) : BaselineScanJob :=
  { job with pageCount := 0, evidenceSystem := [] }

/-- A page has the count and the system of the pages before it. -/
def BaselineScanJob.continues (job : BaselineScanJob) (document : PageDocument) : Prop :=
  (job.pageCount = 0 ∨ document.pageCount = .int job.pageCount) ∧
    (job.evidenceSystem = [] ∨ document.system = .obj job.evidenceSystem)

variable {manifest : Manifest} {job : BaselineScanJob} {document : PageDocument}

theorem validatePageNumbers_iff {numbers : Int × Int} :
    validatePageNumbers job manifest document = .ok numbers ↔
      validatePageNumbers job.blank manifest document = .ok numbers ∧
        (job.pageCount = 0 ∨ document.pageCount = .int job.pageCount) := by
  unfold validatePageNumbers
  cases document.pageIndex with
  | int i =>
    cases document.pageCount with
    | int n =>
      have hcount : (job.pageCount != 0 && (job.pageCount : Int) != n) = true ↔
          ¬(job.pageCount = 0 ∨ n = job.pageCount) := by
        simp only [Bool.and_eq_true, bne_iff_ne, ne_eq, not_or]
        constructor
        · exact fun h => ⟨h.1, fun heq => h.2 heq.symm⟩
        · exact fun h => ⟨h.1, fun heq => h.2 heq.symm⟩
      simp only [BaselineScanJob.blank, bne_self_eq_false, Bool.false_and, Bool.or_false,
        Value.int.injEq]
      generalize (!(decide (0 ≤ i) && decide (i < n) &&
          decide (n ≤ ((min 64 manifest.controls.length : Nat) : Int))) ||
          decide (n < (((manifest.controls.length + 31) / 32 : Nat) : Int))) = bounds
      simp only [Bool.or_eq_true, hcount]
      cases bounds with
      | true => simp
      | false =>
        by_cases hsame : job.pageCount = 0 ∨ n = job.pageCount
        · simp [hsame]
        · simp [hsame]
    | _ => simp
  | _ => simp

theorem validateSystem_iff {system : Value} : validateSystem job manifest system = .ok () ↔
      validateSystem job.blank manifest system = .ok () ∧
        (job.evidenceSystem = [] ∨ system = .obj job.evidenceSystem) := by
  cases system with
  | obj members =>
    have hlast : ¬(job.evidenceSystem ≠ [] ∧ job.evidenceSystem ≠ members) ↔
        (job.evidenceSystem = [] ∨ members = job.evidenceSystem) := by
      rw [not_and_or, not_ne_iff, not_ne_iff, eq_comm (a := members)]
    unfold validateSystem
    dsimp only [BaselineScanJob.blank]
    rw [Value.obj.injEq]
    split
    · simp only [bind_eq_ok, throwIf_eq_ok, hlast]
      constructor
      · rintro ⟨_, h1, _, h2, _, h3, _, h4, _, h5, _, h6, h7⟩
        exact ⟨⟨(), h1, (), h2, (), throwIf_eq_ok.mpr h3, _, h4, (), h5, (), h6,
          throwIf_eq_ok.mpr fun h => h.1 rfl⟩, h7⟩
      · rintro ⟨⟨_, h1, _, h2, _, h3, _, h4, _, h5, _, h6, _⟩, h7⟩
        exact ⟨(), h1, (), h2, (), throwIf_eq_ok.mp h3, _, h4, (), h5, (), h6, h7⟩
    · simp only [bind_eq_ok, throwIf_eq_ok]
      constructor
      · rintro ⟨_, _, _, _, _, _, _, h, _⟩
        cases h
      · rintro ⟨⟨_, _, _, _, _, _, _, h, _⟩, _⟩
        cases h
  | _ => simp [validateSystem]

theorem validatePage_iff {r : String × String} : validatePage job manifest document = .ok r ↔
      validatePage job.blank manifest document = .ok r ∧ job.continues document := by
  unfold validatePage BaselineScanJob.continues
  simp only [bind_eq_ok]
  constructor
  · rintro ⟨⟨index, count⟩, hnumbers, _, hsystem, hrest⟩
    rw [validatePageNumbers_iff] at hnumbers
    rw [validateSystem_iff] at hsystem
    exact ⟨⟨_, hnumbers.1, (), hsystem.1, hrest⟩, hnumbers.2, hsystem.2⟩
  · rintro ⟨⟨⟨index, count⟩, hnumbers, _, hsystem, hrest⟩, hcount, hsame⟩
    exact ⟨_, validatePageNumbers_iff.mpr ⟨hnumbers, hcount⟩, (),
      validateSystem_iff.mpr ⟨hsystem, hsame⟩, hrest⟩

theorem validateControl_facts {seen : List String} {control : Value} {id : String}
    (h : validateControl manifest seen control = .ok id) :
    controlId control = some id ∧ id ∈ manifest.controls ∧ id ∉ seen := by
  unfold validateControl at h
  split at h
  · split at h
    · cases h
    · split at h
      · rename_i key status value hkey _ _
        split at h
        · cases h
        · rename_i hno
          cases h
          simp only [Bool.or_eq_true, Bool.not_eq_true', not_or, Bool.not_eq_false,
            List.contains_iff_mem] at hno
          refine ⟨?_, hno.1.1.1.1, hno.1.1.1.2⟩
          unfold controlId
          rw [hkey]
      · cases h
  · cases h

theorem validateControls_facts {controls : List Value} {seen : List String}
    (h : validateControls manifest seen controls = .ok ()) :
    (controls.filterMap controlId).Nodup ∧ ∀ id ∈ controls.filterMap controlId,
      id ∈ manifest.controls ∧ id ∉ seen := by
  induction controls generalizing seen with
  | nil => exact ⟨List.nodup_nil, fun _ hid => nomatch hid⟩
  | cons control controls ih =>
    unfold validateControls at h
    obtain ⟨id, hid, hrest⟩ := bind_eq_ok.mp h
    obtain ⟨hcontrol, hknown, hnew⟩ := validateControl_facts hid
    obtain ⟨hnodup, hothers⟩ := ih hrest
    rw [List.filterMap_cons_some hcontrol]
    refine ⟨List.nodup_cons.mpr ⟨fun hmem => (hothers id hmem).2 List.mem_cons_self, hnodup⟩, ?_⟩
    intro other hother
    rcases List.mem_cons.mp hother with rfl | hlater
    · exact ⟨hknown, hnew⟩
    · exact ⟨(hothers other hlater).1, fun hmem => (hothers other hlater).2 (List.mem_cons_of_mem _ hmem)⟩

/-- What is known of a page that passes the checks of a blank job. -/
structure CheckedPage (manifest : Manifest) (document : PageDocument) : Prop where
  count : ∃ count : Nat, document.pageCount = .int count ∧ 0 < count
  system : ∃ system, document.system = .obj system ∧ system ≠ []
  nodup : (controlIds document.controls).Nodup
  known : ∀ id ∈ controlIds document.controls, id ∈ manifest.controls

theorem validatePage_facts {r : String × String} (h : validatePage job manifest document = .ok r) :
    r = (document.key, document.digest) ∧ CheckedPage manifest document := by
  unfold validatePage at h
  obtain ⟨⟨index, count⟩, hnumbers, h⟩ := bind_eq_ok.mp h
  dsimp only at h
  obtain ⟨_, hsystem, h⟩ := bind_eq_ok.mp h
  have hcounted : document.pageIndex = .int index ∧ document.pageCount = .int count ∧ 0 < count := by
    unfold validatePageNumbers at hnumbers
    split at hnumbers
    · rename_i i n hindex hcount
      dsimp only at hnumbers
      split at hnumbers
      · cases hnumbers
      · rename_i hno
        cases hnumbers
        simp only [Bool.or_eq_true, not_or, Bool.not_eq_true', Bool.not_eq_false,
          Bool.and_eq_true, decide_eq_true_eq] at hno
        exact ⟨hindex, hcount, by omega⟩
    · cases hnumbers
  have hobject : ∃ system, document.system = .obj system ∧ system ≠ [] := by
    cases hs : document.system with
    | obj members =>
      refine ⟨members, rfl, ?_⟩
      rintro rfl
      rw [hs] at hsystem
      unfold validateSystem at hsystem
      rw [bind_eq_ok] at hsystem
      obtain ⟨_, hkeys, _⟩ := hsystem
      rw [throwIf_eq_ok] at hkeys
      exact hkeys (by decide)
    | _ => rw [hs] at hsystem; simp [validateSystem] at hsystem
  cases hcontrols : document.controls with
  | arr controls =>
    rw [hcontrols] at h
    obtain ⟨_, _, h⟩ := bind_eq_ok.mp h
    obtain ⟨_, hvalid, h⟩ := bind_eq_ok.mp h
    obtain ⟨hnodup, hknown⟩ := validateControls_facts hvalid
    rw [pure_eq_ok] at h
    refine ⟨?_, ⟨count.toNat, ?_, by omega⟩, hobject, ?_, ?_⟩
    · rw [← h, PageDocument.key, PageDocument.digest, hcounted.1, hcounted.2.1, hcontrols]
    · rw [hcounted.2.1, Int.toNat_of_nonneg (by omega)]
    · rw [hcontrols]
      exact hnodup
    · rw [hcontrols]
      exact fun id hid => (hknown id hid).1
  | _ => rw [hcontrols] at h; cases h

end Ipms.Server.Security
