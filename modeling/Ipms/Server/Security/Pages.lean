import Mathlib.Algebra.Order.BigOperators.Group.List
import Mathlib.Algebra.Order.Group.Nat
import Mathlib.Data.List.Flatten
import Mathlib.Data.List.Perm.Subperm
import Ipms.Lib.Lookup
import Ipms.Server.Security.PageChecks

/-
  Ipms.Server.Security.Pages

  The pages of one attempt as a set: whether they fit together, how large they
  are and what they evaluate to does not depend on the order they came in.
-/

namespace Ipms.Server.Security

open Ipms.ManagementJson Ipms.Lib Ipms.Crypto

/-! ## The size of the pages -/

/-- The length of characters in ASCII. -/
def asciiSize (cs : List Char) : Nat := (encode (cs.flatMap escapeAscii)).length

theorem asciiSize_append (cs ds : List Char) : asciiSize (cs ++ ds) = asciiSize cs + asciiSize ds := by
  unfold asciiSize encode
  rw [List.flatMap_append, List.flatMap_append, List.length_append]

/-- What a page adds to the size, its separator included. -/
def entrySize (p : String × Value) : Nat :=
  1 + asciiSize (dumpsString p.1 ++ [':'] ++ dumps p.2)

theorem asciiSize_dumpsMembers (pages : List (String × Value)) :
    asciiSize (dumpsMembers pages false) = (pages.map entrySize).sum := by
  induction pages with
  | nil => rfl
  | cons p pages ih =>
    obtain ⟨key, controls⟩ := p
    have hcomma : asciiSize [','] = 1 := by decide
    rw [dumpsMembers, asciiSize_append, ih, List.map_cons, List.sum_cons, entrySize]
    simp only [asciiSize_append, Bool.false_eq_true, if_false, hcomma]
    omega

theorem pagesSize_eq (pages : List (String × Value)) :
    pagesSize pages = 2 + ((pages.map entrySize).sum - 1) := by
  have hopen : asciiSize ['{'] = 1 := by decide
  have hclose : asciiSize ['}'] = 1 := by decide
  have hcomma : asciiSize [','] = 1 := by decide
  have hperm := (List.perm_insertionSort (fun p q => keyLe p q = true) pages).map entrySize
  have hsize : pagesSize pages =
      1 + asciiSize (dumpsMembers (pages.insertionSort fun p q => keyLe p q = true) true) + 1 := by
    show asciiSize (dumps (.obj (pages.insertionSort fun p q => keyLe p q = true))) = _
    rw [dumps, ← List.singleton_append, asciiSize_append, asciiSize_append, hopen, hclose]
  rw [hsize, ← hperm.sum_eq]
  cases hsorted : pages.insertionSort fun p q => keyLe p q = true with
  | nil => rfl
  | cons p rest =>
    obtain ⟨key, controls⟩ := p
    have hrest := asciiSize_dumpsMembers ((key, controls) :: rest)
    rw [dumpsMembers] at hrest ⊢
    simp only [asciiSize_append, Bool.false_eq_true, if_false, if_true, hcomma] at hrest ⊢
    have hempty : asciiSize [] = 0 := rfl
    rw [hempty]
    omega

theorem pagesSize_le {pages pages' : List (String × Value)} (h : pages.Subperm pages') :
    pagesSize pages ≤ pagesSize pages' := by
  obtain ⟨between, hperm, hsub⟩ := h
  have hle : (between.map entrySize).sum ≤ (pages'.map entrySize).sum :=
    (hsub.map entrySize).sum_le_sum fun _ _ => Nat.zero_le _
  rw [pagesSize_eq, pagesSize_eq, ← (hperm.map entrySize).sum_eq]
  omega

/-! ## What pages observe -/

theorem observations_ids (pages : List Value) :
    (observations pages).map (·.1) = (pages.flatMap controlIds).reverse := by
  unfold observations controlIds
  rw [List.map_reverse, List.map_filterMap, ← List.filterMap_flatMap]
  congr 2
  funext control
  cases controlId control <;> rfl

variable {pages pages' : List Value}

theorem observations_perm (h : pages.Perm pages') :
    (observations pages).Perm (observations pages') :=
  ((List.reverse_perm _).trans ((h.flatMap_right observed).filterMap _)).trans
    (List.reverse_perm _).symm

theorem evaluate_perm (manifest : ScanManifest) (system : Value) (h : pages.Perm pages')
    (hnodup : (pages.flatMap controlIds).Nodup) :
    evaluate manifest (observations pages) system = evaluate manifest (observations pages') system := by
  apply evaluate_congr
  apply lookup_perm (observations_perm h)
  rw [observations_ids]
  exact List.nodup_reverse.mpr hnodup

theorem complete_iff {manifest : ScanManifest} : complete manifest pages = true ↔
      ∀ id, id ∈ manifest.checked.controls ↔ id ∈ pages.flatMap controlIds := by
  unfold complete
  simp only [observations_ids, Bool.and_eq_true, List.all_eq_true, List.contains_iff_mem,
    List.mem_reverse]
  exact ⟨fun h id => ⟨h.2 id, h.1 id⟩, fun h => ⟨fun id => (h id).mpr, fun id => (h id).mp⟩⟩

theorem complete_perm (manifest : ScanManifest) (h : pages.Perm pages') :
    complete manifest pages = complete manifest pages' := by
  rw [Bool.eq_iff_iff, complete_iff, complete_iff]
  simp only [(h.flatMap_right controlIds).mem_iff]

/-- A page under its key, as a job stores it. -/
def PageDocument.entry (document : PageDocument) : String × Value :=
  (document.key, document.controls)

/-- Pages that one attempt can hold: each valid for a blank job, with distinct keys, with distinct
controls, and not too large together. -/
structure Fits (job : BaselineScanJob) (manifest : Manifest) (documents : List PageDocument) :
    Prop where
  valid : ∀ d ∈ documents, ∃ r, validatePage job.blank manifest d = .ok r
  keys : (documents.map PageDocument.key).Nodup
  ids : (documents.flatMap fun d => controlIds d.controls).Nodup
  size : pagesSize (documents.map PageDocument.entry) ≤ maxPagesSize

theorem Fits.subperm {job : BaselineScanJob} {manifest : Manifest}
    {documents documents' : List PageDocument} (h : Fits job manifest documents)
    (hsub : documents'.Subperm documents) : Fits job manifest documents' := by
  obtain ⟨between, hperm, hsublist⟩ := hsub
  have hsub : documents'.Subperm documents := ⟨between, hperm, hsublist⟩
  have hmap {β : Type} (f : PageDocument → β) : (documents'.map f).Subperm (documents.map f) :=
    ⟨between.map f, hperm.map f, hsublist.map f⟩
  refine ⟨fun d hd => h.valid d (hsub.subset hd), ?_, ?_, ?_⟩
  · exact (hperm.map _).nodup_iff.mp (h.keys.sublist (hsublist.map _))
  · exact (hperm.flatMap_right _).nodup_iff.mp (h.ids.sublist (hsublist.flatMap _))
  · exact Nat.le_trans (pagesSize_le (hmap PageDocument.entry)) h.size

theorem Fits.nodup {job : BaselineScanJob} {manifest : Manifest} {documents : List PageDocument}
    (h : Fits job manifest documents) : documents.Nodup := h.keys.of_map _

end Ipms.Server.Security
