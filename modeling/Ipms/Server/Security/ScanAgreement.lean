import Ipms.Lib.Fallible
import Ipms.ManagementJson.ParseText
import Ipms.Server.Security.Scans

/-
  Ipms.Server.Security.ScanAgreement

  The agent checks its pages before it sends them; the control plane checks
  them again.  Every page the agent lets through is accepted, up to the length
  of the items of a measured list.
-/

namespace Ipms.Server.Security

open Ipms.ManagementJson Ipms.Lib Value
open Ipms.Agent.Security (Object BaselineDescriptor ControlDescriptor ScanJob)
open Agent.Security (clean matchesManifest maxControls maxOutputBytes maxPages measuredItem measuredValue observation pageLimits scopeMatches systemFields token unreadStatuses validDescriptor validSystem validatePages validatePagesFrom)

/-- The manifest that a descriptor was compiled from. -/
def manifestOf (baseline : BaselineDescriptor) : Manifest :=
  { osBuild := baseline.osBuild, controls := baseline.controls.map ControlDescriptor.id }

/-- The control plane accepts a page as evidence for a job. -/
def accepts (row : BaselineScanJob) (manifest : Manifest) (page : Object) : Bool :=
  match PageDocument.ofPage page with
  | some document => (validatePage row manifest document).isOk
  | none => false

/-- A job of the control plane has the fields of the pages: the profile, the operating system, and
what earlier pages recorded. -/
def BaselineScanJob.isFor (row : BaselineScanJob) (baseline : BaselineDescriptor)
    (pages : List Object) : Prop :=
  row.profile = baseline.profile ∧ (row.pageCount = 0 ∨ row.pageCount = pages.length) ∧
    ∀ page ∈ pages, ∃ system, (Value.obj page).get? "system" = some (.obj system) ∧
      (Value.obj system).get? "operating_system" = some (.str row.operatingSystem) ∧
      (row.evidenceSystem = [] ∨ row.evidenceSystem = system)

/-- An item of a list is no text of more than 512 characters. -/
def shortItem : Value → Bool
  | .str s => decide (len s ≤ 512)
  | _ => true

/-- A measured value is no list with an item of more than 512 characters. -/
def shortValue : Value → Bool
  | .arr items => items.all shortItem
  | _ => true

/-- No control of a page has a list with an item of more than 512 characters. -/
def shortItems (page : Object) : Bool :=
  match (Value.obj page).get? "controls" with
  | some (.arr controls) => controls.all fun control => ((control.get? "value").map shortValue).getD true
  | _ => true

/-! ## Values -/

theorem clean_text {s : String} {maximum : Nat} (h : clean s maximum = true) :
    len s ≤ maximum ∧ s.toList.contains (Char.ofNat 0) = false := by
  simp only [clean, Bool.and_eq_true, decide_eq_true_eq, List.all_eq_true,
    Bool.not_eq_true', Bool.or_eq_false_iff, decide_eq_false_iff_not] at h
  refine ⟨Nat.le_trans (len_le_size s) h.1, ?_⟩
  rw [Bool.eq_false_iff]
  intro hmem
  have hnul := (h.2 _ (List.contains_iff_mem.mp hmem)).1
  exact hnul (by decide)

theorem measuredItem_valid {item : Value} (h : measuredItem item = true) :
    validItem item = shortItem item := by
  cases item with
  | str s =>
    obtain ⟨_, hnul⟩ := clean_text h
    simp only [validItem, shortItem, hnul, Bool.not_false, Bool.and_true]
  | _ => exact absurd h (by simp [measuredItem])

variable {value : Value}

theorem measuredValue_valid (h : measuredValue value = true) :
    validValue value = shortValue value := by
  cases value with
  | int n => simpa [validValue, shortValue, measuredValue] using h
  | str s =>
    obtain ⟨hlen, hnul⟩ := clean_text h
    have hle : len s ≤ 4096 := Nat.le_trans hlen (by decide)
    simp only [validValue, shortValue, hle, hnul, decide_true, Bool.not_false, Bool.and_self]
  | arr items =>
    simp only [measuredValue, Bool.and_eq_true, decide_eq_true_eq,
      List.all_eq_true] at h
    have hle : items.length ≤ 256 := Nat.le_trans h.1 (by decide)
    simp only [validValue, shortValue, hle, decide_true, Bool.true_and]
    rw [Bool.eq_iff_iff, List.all_eq_true, List.all_eq_true]
    exact forall₂_congr fun item hitem => by rw [measuredItem_valid (h.2 item hitem)]
  | _ => exact absurd h (by simp [measuredValue])

/-! ## Controls -/

theorem observation_eq_ok {id status : String} {fields : Object}
    (h : observation id status value = .ok fields) :
    fields = [("control_id", .str id), ("read_status", .str status), ("value", value)] ∧
      (status = "ok" ∧ measuredValue value = true ∨
        status ∈ unreadStatuses ∧ value = .null) := by
  unfold observation at h
  by_cases hok : status = "ok"
  · simp only [if_pos hok, bind_eq_ok, throwIf_eq_ok, pure_eq_ok] at h
    obtain ⟨_, _, _, hmeasured, _, _, _, _, rfl⟩ := h
    exact ⟨rfl, Or.inl ⟨hok, by simpa using hmeasured⟩⟩
  · simp only [if_neg hok, bind_eq_ok, throwIf_eq_ok, pure_eq_ok] at h
    obtain ⟨_, _, _, hread, rfl⟩ := h
    refine ⟨rfl, Or.inr ?_⟩
    by_contra hno
    exact hread (by tauto)

/-- A control the agent lets through: its identifier is the descriptor's, and its value is measured
or absent. -/
theorem agentControl_eq_ok {control : ControlDescriptor} {item : Value}
    (h : Agent.Security.validateControl control item = .ok ()) :
    ∃ status value, item = .obj [("control_id", .str control.id), ("read_status", .str status),
        ("value", value)] ∧
      (status = "ok" ∧ measuredValue value = true ∨
        status ∈ unreadStatuses ∧ value = .null) := by
  unfold Agent.Security.validateControl at h
  simp only [bind_eq_ok, throwIf_eq_ok, Classical.not_not] at h
  obtain ⟨fields, hfields, _, _, _, _, id, _, _, hid, _, _, status, _, value, _, observed, hobs, heq⟩ := h
  have hitem := Agent.Security.asObj_eq_ok.mp hfields
  obtain ⟨hshape, hvalue⟩ := observation_eq_ok hobs
  exact ⟨status, value, by rw [hitem, ← heq, hshape, hid], hvalue⟩

/-- The server accepts such a control exactly when its value has no long item. -/
theorem validateControl_eq_ok {manifest : Manifest} {seen : List String} {id status : String}
    (hid : id ∈ manifest.controls) (hseen : id ∉ seen)
    (hvalue : status = "ok" ∧ measuredValue value = true ∨
      status ∈ unreadStatuses ∧ value = .null) : validateControl manifest seen
        (.obj [("control_id", .str id), ("read_status", .str status), ("value", value)]) =
      if shortValue value then .ok id else .error rejected := by
  have hstatus : readStatuses.contains status = true := by
    rcases hvalue with ⟨rfl, _⟩ | ⟨hmem, _⟩
    · decide
    · exact List.contains_iff_mem.mpr (List.mem_cons_of_mem _ hmem)
  have hvalid : validValue value = shortValue value := by
    rcases hvalue with ⟨_, hmeasured⟩ | ⟨_, rfl⟩
    · exact measuredValue_valid hmeasured
    · rfl
  have hnull : (status != "ok" && value != .null) = false := by
    rcases hvalue with ⟨rfl, _⟩ | ⟨_, rfl⟩
    · rfl
    · simp
  have hkeys : keysAre [("control_id", .str id), ("read_status", .str status), ("value", value)]
      ["control_id", "read_status", "value"] = true := by
    simp [keysAre]
  have hmember : manifest.controls.contains id = true := List.contains_iff_mem.mpr hid
  have hfresh : seen.contains id = false := by
    rw [Bool.eq_false_iff]
    exact fun h => hseen (List.contains_iff_mem.mp h)
  have hget₁ : (obj [("control_id", .str id), ("read_status", .str status),
      ("value", value)]).get? "control_id" = some (.str id) := rfl
  have hget₂ : (obj [("control_id", .str id), ("read_status", .str status),
      ("value", value)]).get? "read_status" = some (.str status) := rfl
  have hget₃ : (obj [("control_id", .str id), ("read_status", .str status),
      ("value", value)]).get? "value" = some value := rfl
  simp only [validateControl, hkeys, hget₁, hget₂, hget₃, hmember, hfresh, hstatus, hvalid, hnull]
  cases shortValue value <;> rfl

/-- Whether a control's value has no long item. -/
def shortControl (control : Value) : Bool := ((control.get? "value").map shortValue).getD true

theorem validateControls_eq_ok {manifest : Manifest} : (controls : List ControlDescriptor) →
    (items : List Value) → (seen : List String) →
    Agent.Security.validateControls controls items = .ok () →
    (controls.map ControlDescriptor.id).Nodup →
    (∀ control ∈ controls, control.id ∈ manifest.controls ∧ control.id ∉ seen) →
    (validateControls manifest seen items = .ok () ↔ items.all shortControl = true)
  | _, [], _, _, _, _ => by simp [validateControls]
  | [], _ :: _, _, h, _, _ => by simp [Agent.Security.validateControls] at h
  | control :: controls, item :: items, seen, h, hnodup, hknown => by
    rw [Agent.Security.validateControls, bind_eq_ok] at h
    obtain ⟨_, hitem, hitems⟩ := h
    obtain ⟨status, value, rfl, hvalue⟩ := agentControl_eq_ok hitem
    obtain ⟨hid, hseen⟩ := hknown control List.mem_cons_self
    rw [List.map_cons, List.nodup_cons] at hnodup
    have hrest := @validateControls_eq_ok manifest controls items
      (control.id :: seen) hitems hnodup.2 fun other hother =>
        ⟨(hknown other (List.mem_cons_of_mem _ hother)).1, by
          rw [List.mem_cons, not_or]
          refine ⟨fun heq => hnodup.1 ?_, (hknown other (List.mem_cons_of_mem _ hother)).2⟩
          rw [← heq]
          exact List.mem_map_of_mem hother⟩
    have hshort : shortControl (.obj [("control_id", .str control.id),
        ("read_status", .str status), ("value", value)]) = shortValue value := rfl
    rw [validateControls, validateControl_eq_ok hid hseen hvalue, List.all_cons, hshort]
    cases shortValue value with
    | true => simpa [bind_eq_ok] using hrest
    | false => simp [bind_eq_ok]

/-- What the agent knows of a scanned system that matches the descriptor. -/
structure SystemFacts (baseline : BaselineDescriptor) (system : Object) : Prop where
  length : system.length = 4
  osBuild : (Value.obj system).get? "os_build" = some (.str baseline.osBuild)
  operatingSystem : ∃ name, (Value.obj system).get? "operating_system" = some (.str name)
  joinState : ∃ join, (Value.obj system).get? "join_state" = some (.str join) ∧
    (join = "domain" ∨ join = "workgroup" ∨ join = "unknown")
  productType : ∃ type, (Value.obj system).get? "product_type" = some (.int type) ∧
    productType baseline.profile = .ok type

theorem productType_injective {a b : String} {type : Int} (ha : productType a = .ok type)
    (hb : productType b = .ok type) : a = b := by
  unfold productType at ha hb
  split_ifs at ha hb <;> simp_all <;> omega

variable {baseline : BaselineDescriptor}

theorem scopeMatches_eq_true {system : Object}
    (h : scopeMatches baseline system = .ok true) : SystemFacts baseline system := by
  unfold scopeMatches at h
  by_cases hvalid : validSystem system = true
  · rw [hvalid] at h
    simp only [validSystem, Bool.and_eq_true, beq_iff_eq] at hvalid
    obtain ⟨hlength, hfields⟩ := hvalid
    cases hread : systemFields system with
    | error e =>
      rw [hread] at hfields
      exact absurd hfields (by simp)
    | ok valid =>
      rw [hread] at hfields
      simp only at hfields
      subst hfields
      simp only [systemFields, bind_eq_ok, pure_eq_ok, at!_eq_ok,
        asStr_eq_ok, asInt_eq_ok] at hread
      obtain ⟨_, hbuild, build, rfl, _, hname, name, rfl, _, hjoin, join, rfl, _, hproduct, type,
        rfl, hall⟩ := hread
      simp only [Bool.and_eq_true, Bool.or_eq_true, beq_iff_eq] at hall
      have hbuild' := at!_eq_ok.mpr hbuild
      have hproduct' := at!_eq_ok.mpr hproduct
      by_cases hsame : build = baseline.osBuild
      · subst hsame
        simp only [Bool.not_true, Bool.false_eq_true, if_false, hbuild', hproduct', bind, pure,
          Except.bind, Except.pure, asStr, asInt, ne_eq, not_true_eq_false,
          Except.ok.injEq, Bool.or_eq_true, Bool.and_eq_true, beq_iff_eq] at h
        refine ⟨hlength, hbuild, ⟨name, hname⟩, ⟨join, hjoin, or_assoc.mp hall.2⟩, type, hproduct, ?_⟩
        rcases h with (⟨hprofile, rfl⟩ | ⟨hprofile, rfl⟩) | ⟨hprofile, rfl⟩ <;>
          rw [hprofile] <;> rfl
      · simp [hbuild', bind, pure, Except.bind, Except.pure, asStr, hsame] at h
  · rw [Bool.not_eq_true] at hvalid
    rw [hvalid] at h
    simp at h

/-- The server accepts such a system exactly for a job with its profile, operating system and
earlier evidence. -/
theorem validateSystem_eq_ok {system : Object} (h : SystemFacts baseline system)
    (row : BaselineScanJob) : validateSystem row (manifestOf baseline) (.obj system) = .ok () ↔
      row.profile = baseline.profile ∧
        (obj system).get? "operating_system" = some (.str row.operatingSystem) ∧
        (row.evidenceSystem = [] ∨ row.evidenceSystem = system) := by
  obtain ⟨name, hname⟩ := h.operatingSystem
  obtain ⟨join, hjoin, hknown⟩ := h.joinState
  obtain ⟨type, htype, hproduct⟩ := h.productType
  have hkeys : keysAre system ["os_build", "product_type", "operating_system", "join_state"] = true := by
    refine keysAre_of_length (by decide) h.length fun name hmem => ?_
    simp only [List.mem_cons, List.not_mem_nil, or_false] at hmem
    rcases hmem with rfl | rfl | rfl | rfl
    · exact ⟨_, h.osBuild⟩
    · exact ⟨_, htype⟩
    · exact ⟨_, hname⟩
    · exact ⟨_, hjoin⟩
  have hstate : (obj system).get? "join_state" ∈
      [some (.str "domain"), some (.str "workgroup"), some (.str "unknown")] := by
    rw [hjoin]
    rcases hknown with rfl | rfl | rfl <;> simp
  have hprofile : productType row.profile = .ok type ↔ row.profile = baseline.profile := by
    constructor
    · exact fun heq => productType_injective heq hproduct
    · rintro heq
      rw [heq, hproduct]
  have hevidence : (¬ (row.evidenceSystem ≠ [] ∧ row.evidenceSystem ≠ system)) ↔
      (row.evidenceSystem = [] ∨ row.evidenceSystem = system) := by tauto
  simp only [validateSystem, hkeys, h.osBuild, hname, htype, hstate, manifestOf, bind_eq_ok,
    throwIf_eq_ok, hevidence, Bool.true_eq_false, ne_eq, not_true_eq_false, not_false_eq_true,
    Classical.not_not, exists_const, true_and]
  constructor
  · rintro ⟨hos, _, hrow, rfl, hold⟩
    exact ⟨hprofile.mp hrow, hos, hold⟩
  · rintro ⟨hrow, hos, hold⟩
    exact ⟨hos, type, hprofile.mpr hrow, rfl, hold⟩

/-- What the agent knows of a page it lets through. -/
structure PageFacts (baseline : BaselineDescriptor) (count index seen : Nat) (page : Object) where
  system : Object
  controls : List Value
  pageIndex : (Value.obj page).get? "page_index" = some (.int index)
  pageCount : (Value.obj page).get? "page_count" = some (.int count)
  systemMember : (Value.obj page).get? "system" = some (.obj system)
  systemFacts : SystemFacts baseline system
  controlsMember : (Value.obj page).get? "controls" = some (.arr controls)
  controlsCount : controls.length = min 32 (baseline.controls.length - seen)
  controlsValid : Agent.Security.validateControls (baseline.controls.drop seen) controls = .ok ()

theorem agentPage_eq_ok {job : ScanJob} {first page : Object} {count index seen seen' : Nat}
    (htotal : job.totalControls = baseline.controls.length)
    (h : Agent.Security.validatePage job baseline first count index seen page = .ok seen') :
    Nonempty (PageFacts baseline count index seen page) ∧
      seen' = seen + min 32 (baseline.controls.length - seen) := by
  unfold Agent.Security.validatePage at h
  simp only [bind_eq_ok, throwIf_eq_ok, pure_eq_ok, at!_eq_ok, asStr_eq_ok,
    asInt_eq_ok, asArr_eq_ok, Agent.Security.asObj_eq_ok, Classical.not_not] at h
  simp only [exists_const] at h
  obtain ⟨_, _, _, _, rfl, _, _, _, _, rfl, _, _, _, _, rfl, _, _, hindex, _, rfl, rfl, _, hcount, _,
    rfl, rfl, _, hsystem, system, rfl, matched, hscope, hmatched, _, _, _, _, _, _, hcontrols, controls,
    rfl, hlength, _, hvalid, rfl⟩ := h
  rw [Bool.not_eq_false] at hmatched
  subst hmatched
  rw [htotal] at hlength
  refine ⟨⟨system, controls, hindex, hcount, hsystem, scopeMatches_eq_true hscope, hcontrols,
    hlength, hvalid⟩, ?_⟩
  rw [hlength]
  rfl

/-- Which pages the server accepts, of those the agent lets through. -/
theorem accepts_iff {count index seen : Nat} {page : Object}
    (hvalid : validDescriptor baseline = true)
    (h : PageFacts baseline count index seen page) (hindex : index < count)
    (hcount : count = (baseline.controls.length + 31) / 32)
    (hseen : seen < baseline.controls.length) (row : BaselineScanJob) :
    accepts row (manifestOf baseline) page = true ↔
      (row.pageCount = 0 ∨ row.pageCount = count) ∧
        (row.profile = baseline.profile ∧
          (obj h.system).get? "operating_system" = some (.str row.operatingSystem) ∧
          (row.evidenceSystem = [] ∨ row.evidenceSystem = h.system)) ∧
        shortItems page = true := by
  simp only [validDescriptor, Bool.and_eq_true, decide_eq_true_eq] at hvalid
  obtain ⟨⟨⟨_, hmax⟩, hnodup⟩, _⟩ := hvalid
  simp only [maxControls] at hmax
  have hdocument : PageDocument.ofPage page =
      some ⟨.int index, .int count, .obj h.system, .arr h.controls⟩ := by
    simp only [PageDocument.ofPage, h.pageIndex, h.pageCount, h.systemMember, h.controlsMember]
    rfl
  have hnumbers : (∃ numbers, validatePageNumbers row (manifestOf baseline)
      ⟨.int index, .int count, .obj h.system, .arr h.controls⟩ = .ok numbers) ↔
      (row.pageCount = 0 ∨ row.pageCount = count) := by
    have htotal : (manifestOf baseline).controls.length = baseline.controls.length := by
      simp only [manifestOf, List.length_map]
    have hrange : (!(decide (0 ≤ (index : Int)) && decide ((index : Int) < count) &&
        decide ((count : Int) ≤ (min 64 baseline.controls.length : Nat))) ||
        decide ((count : Int) < ((baseline.controls.length + 31) / 32 : Nat))) = false := by
      simp only [Bool.or_eq_false_iff, Bool.not_eq_false', Bool.and_eq_true, decide_eq_true_eq,
        decide_eq_false_iff_not]
      omega
    simp only [validatePageNumbers, htotal, hrange, Bool.false_or]
    by_cases hzero : row.pageCount = 0
    · simp [hzero]
    · by_cases hsame : row.pageCount = count
      · simp [hsame]
      · have hne : ¬ (row.pageCount : Int) = count := by omega
        simp [hzero, hsame, hne]
  have hsystem := validateSystem_eq_ok h.systemFacts row
  have hcontrols := @validateControls_eq_ok (manifestOf baseline) _ _ []
    h.controlsValid ((List.drop_sublist seen baseline.controls).map ControlDescriptor.id |>.nodup hnodup)
    fun control hmem => ⟨List.mem_map_of_mem (List.mem_of_mem_drop hmem), List.not_mem_nil⟩
  have hshort : shortItems page = h.controls.all shortControl := by
    simp only [shortItems, h.controlsMember]
    rfl
  have hlength : 1 ≤ h.controls.length ∧ h.controls.length ≤ 32 := by
    rw [h.controlsCount]
    omega
  rw [hshort, ← hcontrols, ← hsystem, ← hnumbers]
  unfold accepts
  rw [hdocument]
  have hok : ∀ x : Except ServerError (String × String), x.isOk = true ↔ ∃ r, x = .ok r := by
    intro x
    cases x <;> simp [Except.isOk, Except.toBool]
  simp only [hok, validatePage, bind_eq_ok, throwIf_eq_ok, hlength, not_true_eq_false,
    not_false_eq_true, exists_const, true_and, and_self, pure_eq_ok]
  constructor
  · rintro ⟨_, numbers, hn, _, hs, _, hc, _⟩
    exact ⟨⟨numbers, hn⟩, hs, hc⟩
  · rintro ⟨⟨numbers, hn⟩, hs, hc⟩
    exact ⟨_, numbers, hn, (), hs, (), hc, rfl⟩

/-! ## Runs over the pages -/

theorem agentPages_eq_ok {job : ScanJob} {baseline : BaselineDescriptor} {first : Object}
    {count : Nat} (htotal : job.totalControls = baseline.controls.length) :
    (pages : List Object) → (index total seen' : Nat) →
    validatePagesFrom job baseline first count index
      (min (32 * index) baseline.controls.length) total pages = .ok seen' →
    ∀ page ∈ pages, ∃ i, index ≤ i ∧ i < index + pages.length ∧
      Nonempty (PageFacts baseline count i (min (32 * i) baseline.controls.length) page)
  | [], _, _, _, _ => by simp
  | page :: pages, index, total, seen', h => by
    simp only [validatePagesFrom, bind_eq_ok, throwIf_eq_ok] at h
    obtain ⟨_, _, _, _, seen, hpage, hrest⟩ := h
    obtain ⟨hfacts, rfl⟩ := agentPage_eq_ok htotal hpage
    have hseen : min (32 * index) baseline.controls.length +
        min 32 (baseline.controls.length - min (32 * index) baseline.controls.length) =
        min (32 * (index + 1)) baseline.controls.length := by omega
    rw [hseen] at hrest
    have hothers := agentPages_eq_ok htotal pages (index + 1) _ seen' hrest
    intro other hother
    rcases List.mem_cons.mp hother with rfl | hother
    · exact ⟨index, Nat.le_refl _, by simp, hfacts⟩
    · obtain ⟨i, hlow, hhigh, hi⟩ := hothers other hother
      exact ⟨i, by omega, by simp only [List.length_cons]; omega, hi⟩

/-- For every descriptor and every list of pages the agent lets through, the server accepts each
page for a job with the same fields exactly when no measured list has an item of more than 512
characters. -/
theorem validatePages_accepts_iff (job : ScanJob) (baseline : BaselineDescriptor)
    (pages : List Object) (h : Agent.Security.validatePages job baseline pages = .ok ())
    (row : BaselineScanJob) :
    (∀ page ∈ pages, accepts row (manifestOf baseline) page = true) ↔
      row.isFor baseline pages ∧ ∀ page ∈ pages, shortItems page = true := by
  simp only [validatePages, bind_eq_ok, throwIf_eq_ok, not_or] at h
  obtain ⟨_, ⟨hmatch, hnonempty, _, hcount⟩, seen, hrun, _⟩ := h
  simp only [matchesManifest, Bool.not_eq_false, Bool.and_eq_true, beq_iff_eq] at hmatch
  obtain ⟨⟨⟨⟨hvalid, _⟩, _⟩, _⟩, htotal⟩ := hmatch
  have hcount' : pages.length = (baseline.controls.length + 31) / 32 := by
    rw [Classical.not_not, htotal] at hcount
    simpa [Agent.Security.controlsPerPage] using hcount
  have hpages := agentPages_eq_ok htotal pages 0 0 seen (by simpa using hrun)
  have heach : ∀ page ∈ pages, ∃ system, (obj page).get? "system" = some (.obj system) ∧
      (accepts row (manifestOf baseline) page = true ↔
        (row.pageCount = 0 ∨ row.pageCount = pages.length) ∧
          (row.profile = baseline.profile ∧
            (obj system).get? "operating_system" = some (.str row.operatingSystem) ∧
            (row.evidenceSystem = [] ∨ row.evidenceSystem = system)) ∧
          shortItems page = true) := by
    intro page hpage
    obtain ⟨i, _, hi, ⟨facts⟩⟩ := hpages page hpage
    exact ⟨facts.system, facts.systemMember,
      accepts_iff hvalid facts (by omega) hcount' (by omega) row⟩
  constructor
  · intro hall
    refine ⟨⟨?_, ?_, ?_⟩, ?_⟩
    · obtain ⟨page, hpage⟩ := List.exists_mem_of_ne_nil pages hnonempty
      obtain ⟨_, _, hiff⟩ := heach page hpage
      exact (hiff.mp (hall page hpage)).2.1.1
    · obtain ⟨page, hpage⟩ := List.exists_mem_of_ne_nil pages hnonempty
      obtain ⟨_, _, hiff⟩ := heach page hpage
      exact (hiff.mp (hall page hpage)).1
    · intro page hpage
      obtain ⟨system, hsystem, hiff⟩ := heach page hpage
      obtain ⟨_, ⟨_, hos, hold⟩, _⟩ := hiff.mp (hall page hpage)
      exact ⟨system, hsystem, hos, hold⟩
    · intro page hpage
      obtain ⟨_, _, hiff⟩ := heach page hpage
      exact (hiff.mp (hall page hpage)).2.2
  · rintro ⟨⟨hprofile, hnumber, hsystems⟩, hshort⟩ page hpage
    obtain ⟨system, hsystem, hiff⟩ := heach page hpage
    obtain ⟨system', hsystem', hos, hold⟩ := hsystems page hpage
    rw [hsystem, Option.some.injEq, obj.injEq] at hsystem'
    subst hsystem'
    exact hiff.mpr ⟨hnumber, ⟨hprofile, hos, hold⟩, hshort page hpage⟩

/-- A descriptor with one control. -/
def sampleBaseline : BaselineDescriptor :=
  { baselineId := "example"
    profile := "server"
    manifestSha256 := String.ofList (List.replicate 64 'a')
    osBuild := "26100"
    controls := [⟨"setting-a", .registryValue, "machine", "SOFTWARE", "Setting", "string_list"⟩] }

/-- The agent's job for the descriptor. -/
def sampleJob : ScanJob :=
  { jobId := "11111111-1111-4111-8111-111111111111"
    attemptId := "22222222-2222-4222-8222-222222222222"
    baselineId := "example"
    profile := "server"
    manifestSha256 := sampleBaseline.manifestSha256
    totalControls := 1
    expiresAt := "2099-01-01T12:00:00Z" }

/-- The scanned system. -/
def sampleSystem : Object :=
  [("join_state", .str "domain"), ("operating_system", .str "Windows Server 2025"),
    ("os_build", .str "26100"), ("product_type", .int 3)]

/-- The page of a scan that measured a list with one item. -/
def samplePage (item : String) : Object :=
  [("attempt_id", .str sampleJob.attemptId),
    ("controls", .arr [.obj [("control_id", .str "setting-a"), ("read_status", .str "ok"),
      ("value", .arr [.str item])]]),
    ("job_id", .str sampleJob.jobId), ("manifest_sha256", .str sampleJob.manifestSha256),
    ("page_count", .int 1), ("page_index", .int 0), ("system", .obj sampleSystem)]

/-- The job of the control plane for the scan. -/
def sampleRow : BaselineScanJob :=
  { profile := "server"
    operatingSystem := "Windows Server 2025"
    pageCount := 0
    evidenceSystem := [] }

/-- An item of `n` characters. -/
def repeated (n : Nat) : String := String.ofList (List.replicate n 'x')

theorem repeated_chars (n : Nat) : ∀ c ∈ (repeated n).toList, c = 'x' := by
  intro c hc
  rw [repeated, String.toList_ofList] at hc
  exact List.eq_of_mem_replicate hc

theorem repeated_len (n : Nat) : len (repeated n) = n := by
  rw [len, repeated, String.toList_ofList, List.length_replicate]

theorem repeated_size (n : Nat) : (utf8 (repeated n)).length = n := by
  have h : String.utf8EncodeChar 'x' = [120] := by decide
  rw [repeated, utf8_ofList, List.flatMap_replicate, h]
  simp

theorem repeated_text (n : Nat) : (renderString (repeated n)).length = n + 2 := by
  have h : escape 'x' = [120] := by decide
  rw [renderString, repeated, String.toList_ofList, List.flatMap_replicate, h]
  simp

variable {n : Nat}

theorem repeated_clean (hn : n ≤ 1024) : clean (repeated n) 1024 = true := by
  simp only [clean, Agent.Gpo.size, repeated_size, Bool.and_eq_true, decide_eq_true_eq,
    List.all_eq_true]
  refine ⟨hn, fun c hc => ?_⟩
  rw [repeated_chars n c hc]
  decide

theorem samplePage_fits (hn : n ≤ 1000) :
    fits (.obj (samplePage (repeated n))) pageLimits = true := by
  have hshort : fits (.obj (samplePage "")) pageLimits = true := by decide +kernel
  have hsize : (render (.obj (samplePage ""))).length ≤ 1000 := by decide +kernel
  have hempty : (renderString "").length = 2 := by decide
  have htext : (render (.obj (samplePage (repeated n)))).length =
      (render (.obj (samplePage ""))).length + n := by
    simp only [samplePage, render, renderItems, renderMembers, List.length_append, List.length_cons,
      List.length_nil, if_true, if_false, Bool.false_eq_true, repeated_text, hempty]
    omega
  simp only [fits, Bool.and_eq_true, decide_eq_true_eq] at hshort ⊢
  obtain ⟨⟨⟨hvalid, hin⟩, _⟩, hnodes⟩ := hshort
  refine ⟨⟨⟨hvalid, ?_⟩, ?_⟩, hnodes⟩
  · simp only [samplePage, within, withinItems, withinMembers, Bool.and_eq_true] at hin ⊢
    simp only [hin, repeated_size, and_self, and_true, true_and]
    exact decide_eq_true (Nat.le_trans hn (by decide))
  · rw [htext, show pageLimits.documentBytes = 49152 from rfl]
    omega

/-- A scan with one item of up to 1000 characters passes the agent's check. -/
theorem samplePage_validates (hn : n ≤ 1000) :
    validatePages sampleJob sampleBaseline [samplePage (repeated n)] = .ok () := by
  have hmatch : matchesManifest sampleJob sampleBaseline = true := by decide +kernel
  have hserialize : ∃ bytes, serialize (.obj (samplePage (repeated n))) pageLimits =
      .ok bytes ∧ bytes.length ≤ 49152 := by
    have hfits := samplePage_fits hn
    refine ⟨_, by rw [serialize_eq, if_pos hfits], ?_⟩
    simp only [fits, Bool.and_eq_true, decide_eq_true_eq] at hfits
    exact hfits.1.2
  have hvalue : serialize (.arr [.str (repeated n)]) =
      .ok (render (.arr [.str (repeated n)])) ∧ (render (.arr [.str (repeated n)])).length = n + 4 := by
    have hlength : (render (.arr [.str (repeated n)])).length = n + 4 := by
      simp [render, renderItems, repeated_text]
    refine ⟨?_, hlength⟩
    rw [serialize_eq, if_pos]
    simp only [fits, hlength, within, withinItems, repeated_size, nodeCount, nodeCountItems,
      Bool.and_eq_true, decide_eq_true_eq]
    refine ⟨⟨⟨by decide, by decide, ?_, trivial⟩, ?_⟩, by simp⟩
    · exact Nat.le_trans hn (by decide)
    · omega
  have hobservation : observation "setting-a" "ok" (.arr [.str (repeated n)]) =
      .ok [("control_id", .str "setting-a"), ("read_status", .str "ok"),
        ("value", .arr [.str (repeated n)])] := by
    have htoken : token "setting-a" = true := by decide
    have hmeasured : measuredValue (.arr [.str (repeated n)]) = true := by
      simp [measuredValue, measuredItem,
        repeated_clean (Nat.le_trans hn (by decide))]
    have hlength : ¬ (render (.arr [.str (repeated n)])).length > 1024 := by
      rw [hvalue.2]
      omega
    simp [observation, htoken, hmeasured, hvalue.1, hlength, throwIf, bind, pure,
      Except.bind, Except.pure]
  have hscope : scopeMatches sampleBaseline sampleSystem = .ok true := by
    rfl
  have hcontrol : Agent.Security.validateControl ⟨"setting-a", .registryValue, "machine", "SOFTWARE",
      "Setting", "string_list"⟩ (.obj [("control_id", .str "setting-a"), ("read_status", .str "ok"),
      ("value", .arr [.str (repeated n)])]) = .ok () := by
    simp [Agent.Security.validateControl, Agent.Security.asObj, at!, asStr, List.lookup,
      hobservation, throwIf, bind, pure, Except.bind, Except.pure]
  have hcontrols : sampleBaseline.controls =
      [⟨"setting-a", .registryValue, "machine", "SOFTWARE", "Setting", "string_list"⟩] := rfl
  have htotal : sampleJob.totalControls = 1 := rfl
  have hpage : Agent.Security.validatePage sampleJob sampleBaseline (samplePage (repeated n)) 1 0 0
      (samplePage (repeated n)) = .ok 1 := by
    simp [Agent.Security.validatePage, Agent.Security.validateControls, samplePage, at!,
      asStr, asInt, asArr, Agent.Security.asObj, List.lookup, hscope, hcontrol,
      hcontrols, htotal, Agent.Security.controlsPerPage, throwIf, bind, pure, Except.bind,
      Except.pure]
  obtain ⟨bytes, hbytes, hsmall⟩ := hserialize
  have hroom : ¬ maxOutputBytes < bytes.length + 1 := by
    rw [show maxOutputBytes = 2097152 from rfl]
    omega
  simp [validatePages, validatePagesFrom, hmatch, hbytes, hroom, hpage,
    htotal, maxPages, Agent.Security.controlsPerPage, throwIf, bind, pure,
    Except.bind, Except.pure]

theorem sampleRow_isFor (item : String) : sampleRow.isFor sampleBaseline [samplePage item] := by
  refine ⟨rfl, Or.inl rfl, fun page hpage => ⟨sampleSystem, ?_, rfl, Or.inl rfl⟩⟩
  rw [List.mem_singleton] at hpage
  rw [hpage]
  rfl

/-- A list item of three characters reaches the evidence. -/
theorem validatePages_accepts_sample :
    accepts sampleRow (manifestOf sampleBaseline) (samplePage (repeated 3)) = true :=
  (validatePages_accepts_iff sampleJob sampleBaseline [samplePage (repeated 3)]
    (samplePage_validates (by decide)) sampleRow).mpr
    ⟨sampleRow_isFor _, fun page hpage => by
      rw [List.mem_singleton] at hpage
      rw [hpage]
      rfl⟩ _ List.mem_cons_self

/-- A list item of 513 characters passes the agent's check, and the control plane rejects its page. -/
theorem long_item_rejected :
    Agent.Security.validatePages sampleJob sampleBaseline [samplePage (repeated 513)] = .ok () ∧
      sampleRow.isFor sampleBaseline [samplePage (repeated 513)] ∧
      accepts sampleRow (manifestOf sampleBaseline) (samplePage (repeated 513)) = false := by
  refine ⟨samplePage_validates (by decide), sampleRow_isFor _, ?_⟩
  have hitem : validItem (.str (repeated 513)) = false := by
    rw [validItem, repeated_len]
    rfl
  have hvalue : validValue (.arr [.str (repeated 513)]) = false := by
    rw [validValue, List.all_cons, hitem]
    rfl
  have hcontrol : validateControl (manifestOf sampleBaseline) [] (.obj [("control_id", .str "setting-a"),
      ("read_status", .str "ok"), ("value", .arr [.str (repeated 513)])]) = .error rejected := by
    simp [validateControl, hvalue, keysAre, get?, List.lookup]
  have hcontrols : validateControls (manifestOf sampleBaseline) [] [.obj
      [("control_id", .str "setting-a"), ("read_status", .str "ok"),
        ("value", .arr [.str (repeated 513)])]] = .error rejected := by
    rw [validateControls, hcontrol]
    rfl
  rw [Bool.eq_false_iff]
  intro haccepts
  have hdocument : PageDocument.ofPage (samplePage (repeated 513)) =
      some ⟨.int 0, .int 1, .obj sampleSystem, .arr [.obj [("control_id", .str "setting-a"),
        ("read_status", .str "ok"), ("value", .arr [.str (repeated 513)])]]⟩ := rfl
  rw [accepts, hdocument] at haccepts
  cases hrun : validatePage sampleRow (manifestOf sampleBaseline) ⟨.int 0, .int 1, .obj sampleSystem,
      .arr [.obj [("control_id", .str "setting-a"), ("read_status", .str "ok"),
        ("value", .arr [.str (repeated 513)])]]⟩ with
  | error e =>
    simp only [hrun] at haccepts
    exact absurd haccepts (by simp [Except.isOk, Except.toBool])
  | ok r =>
    simp only [validatePage, bind_eq_ok, hcontrols] at hrun
    simp at hrun

end Ipms.Server.Security
