import Ipms.Server.Security.PageRuns

/-
  Ipms.Server.Security.PageOrder

  The order of the pages of an attempt.  Pages that are all accepted in one
  order are all accepted in every other one, however often they are repeated,
  and the job ends with the same status and the same evaluation.
-/

namespace Ipms.Server.Security

open Ipms.ManagementJson Ipms.Lib PageDocument
open Ipms.Agent.Security (Object)
open List (Subset append_subset cons_subset length_append mem_append_right mem_cons mem_cons_self mem_map mem_map_of_mem nil_subset)

variable {manifest : ScanManifest} {row row' : ScanRow} {documents : List PageDocument}
  {d : PageDocument} {now : Time} {reply : Reply} {c : Circumstances} {attempt : Uuid}

/-! ## Pages in steady circumstances -/

/-- Nothing ends the attempt: the request is authorised, the scope is current and neither the job
nor its lease has run out. -/
structure Steady (row : ScanRow) (c : Circumstances) : Prop where
  authorised : c.authorised = true
  scopeCurrent : c.scopeCurrent = true
  age : c.now < row.expiresAt
  lease : ∀ lease, row.leaseExpiresAt = some lease → c.now < lease

/-- The request that brings a page of an attempt. -/
def ScanRow.page (row : ScanRow) (attempt : Uuid) (document : PageDocument) : Exchange :=
  .result (.str row.id.val) (.str attempt.val) (.str row.manifestSha256) document

/-- The job after pages have arrived, unless one of them was rejected. -/
def ScanRow.receivePages (manifest : ScanManifest) (attempt : Uuid) (row : ScanRow) :
    List (Circumstances × PageDocument) → Except ServerError ScanRow
  | [] => .ok row
  | (c, document) :: rest => do
    let (_, row) ← securityExchange manifest c row (row.page attempt document)
    row.receivePages manifest attempt rest

theorem Steady.congr (h : Steady row c) (hsame : SameAttempt row row') : Steady row' c :=
  ⟨h.authorised, h.scopeCurrent, hsame.expires ▸ h.age, by
    rw [hsame.lease]
    exact h.lease⟩

theorem Steady.expireJobs (h : Steady row c) : row.expireJobs c.now = row := by
  have hage := h.age
  unfold ScanRow.expireJobs
  rw [if_neg]
  unfold ScanRow.overdue
  rw [Bool.and_eq_true, Bool.or_eq_true, Bool.and_eq_true, decide_eq_true_eq]
  rintro ⟨_, hold | ⟨_, hlease⟩⟩
  · exact Int.not_lt.mpr hold hage
  · obtain ⟨lease, hsome, hle⟩ := (Option.any_eq_true _ _).mp hlease
    exact Int.not_lt.mpr (decide_eq_true_eq.mp hle) (h.lease lease hsome)

theorem uuidField_val (id : Uuid) : uuidField (.str id.val) = .ok id := by
  unfold uuidField
  exact dif_pos id.property

theorem securityExchange_page (h : Steady row c) (hattempt : row.attemptId = some attempt) :
    securityExchange manifest c row (row.page attempt d) = recordPage manifest c.now row d := by
  unfold securityExchange ScanRow.page
  dsimp only
  rw [h.expireJobs]
  unfold addressed
  rw [uuidField_val, uuidField_val]
  simp [throwIf, h.authorised, h.scopeCurrent, hattempt, bind, Except.bind, pure, Except.pure]

/-- What a run of accepted pages leaves: the pages of before, and those that arrived. -/
theorem receivePages_collects {arrivals : List (Circumstances × PageDocument)}
    (h : Collected manifest row documents) (hs : Settled manifest row documents)
    (hattempt : row.attemptId = some attempt) (hsteady : ∀ a ∈ arrivals, Steady row a.1)
    (hr : row.receivePages manifest attempt arrivals = .ok row') :
    ∃ more, more ⊆ arrivals.map (·.2) ∧
      (∀ a ∈ arrivals, a.2.key ∈ (documents ++ more).map key) ∧
      SameAttempt row row' ∧ Collected manifest row' (documents ++ more) ∧
      Settled manifest row' (documents ++ more) := by
  induction arrivals generalizing row documents with
  | nil =>
    cases hr
    rw [← List.append_nil documents] at h hs
    exact ⟨[], nil_subset _, (fun _ ha => nomatch ha), .refl _, h, hs⟩
  | cons arrival rest ih =>
    obtain ⟨c, d⟩ := arrival
    unfold ScanRow.receivePages at hr
    rw [securityExchange_page (hsteady _ mem_cons_self) hattempt] at hr
    obtain ⟨⟨reply, next⟩, hpage, hrest⟩ := bind_eq_ok.mp hr
    have hlater (hsame : SameAttempt row next) (a : Circumstances × PageDocument) (ha : a ∈ rest) :
        Steady next a.1 := (hsteady a (List.mem_cons_of_mem _ ha)).congr hsame
    rcases recordPage_step h hs hpage with ⟨rfl, hkey⟩ | ⟨_, hsame, hcollected, hsettled⟩
    · obtain ⟨more, hmore, hkeys, hsame, hcollected, hsettled⟩ :=
        ih h hs hattempt (hlater (.refl _)) hrest
      refine ⟨more, Subset.trans hmore (List.subset_cons_self _ _), fun a ha => ?_, hsame, hcollected, hsettled⟩
      rcases mem_cons.mp ha with rfl | hother
      · rw [List.map_append]
        exact List.mem_append_left _ hkey
      · exact hkeys a hother
    · obtain ⟨more, hmore, hkeys, hsame', hcollected, hsettled⟩ :=
        ih hcollected hsettled (hsame.attempt.trans hattempt) (hlater hsame) hrest
      rw [List.append_assoc] at hkeys hcollected hsettled
      refine ⟨[d] ++ more, ?_, fun a ha => ?_, hsame.trans hsame', hcollected, hsettled⟩
      · exact cons_subset.mpr ⟨mem_cons_self, Subset.trans hmore (List.subset_cons_self _ _)⟩
      · rcases mem_cons.mp ha with rfl | hother
        · exact mem_map_of_mem (mem_append_right _ mem_cons_self)
        · exact hkeys a hother

/-! ## The same pages in another order -/

/-- Pages an attempt can hold all of, measured alike. -/
structure Whole (manifest : ScanManifest) (row : ScanRow) (count : Nat) (system : Object)
    (whole : List PageDocument) : Prop where
  fits : Fits row.toBaselineScanJob manifest.checked whole
  measures : ∀ d ∈ whole, d.pageCount = .int count ∧ d.system = .obj system
  bounded : whole.length ≤ count
  full : whole.length = count → whole ≠ [] →
    complete manifest (whole.map PageDocument.controls) = true ∧
      ∃ result, evaluate manifest (observations (whole.map PageDocument.controls)) (.obj system) =
        .ok result

theorem Fits.same {job : BaselineScanJob} {m : Manifest} (h : Fits job m documents) {e : PageDocument}
    (hd : d ∈ documents) (he : e ∈ documents) (hkey : d.key = e.key) : d = e :=
  List.inj_on_of_nodup_map h.keys hd he hkey

theorem Fits.controls {job : BaselineScanJob} {m : Manifest} (h : Fits job m documents) :
    ((documents.map controls).flatMap controlIds).Nodup := by
  rw [List.flatMap_map]
  exact h.ids

/-- The next page of a set of pages an attempt can hold is accepted. -/
theorem recordPage_whole {count : Nat} {system : Object} {whole : List PageDocument}
    (hwhole : Whole manifest row count system whole) (h : Collected manifest row documents)
    (hs : Settled manifest row documents)
    (hopen : row.status = .running ∨ row.status = .completed)
    (hsub : documents ⊆ whole) (hd : d ∈ whole) :
    ∃ reply row', recordPage manifest now row d = .ok (reply, row') := by
  by_cases hkey : d.key ∈ documents.map key
  · obtain ⟨e, he, heq⟩ := mem_map.mp hkey
    obtain rfl := hwhole.fits.same (hsub he) hd heq
    exact ⟨_, _, recordPage_repeated h he⟩
  · have hnodup : (documents ++ [d]).Nodup := by
      refine List.nodup_append.mpr ⟨h.fits.nodup, List.nodup_singleton _, ?_⟩
      rintro e he _ hsingle rfl
      rw [List.mem_singleton] at hsingle
      exact hkey (hsingle ▸ mem_map_of_mem he)
    have hsubset : documents ++ [d] ⊆ whole :=
      append_subset.mpr ⟨hsub, cons_subset.mpr ⟨hd, nil_subset _⟩⟩
    have hmany : (documents ++ [d]).Subperm whole := List.subperm_of_subset hnodup hsubset
    have hlength := hmany.length_le
    rw [length_append, List.length_singleton] at hlength
    have hbounded := hwhole.bounded
    obtain ⟨hcount, hsystem⟩ := hwhole.measures d hd
    have hcontinues : row.toBaselineScanJob.continues d ∧ (documents ≠ [] → row.pageCount = count) := by
      cases hdocuments : documents with
      | nil =>
        obtain ⟨hzero, hnone⟩ := h.blank hdocuments
        exact ⟨⟨.inl hzero, .inl hnone⟩, fun hne => absurd rfl hne⟩
      | cons e rest =>
        have he : e ∈ documents := by
          rw [hdocuments]
          exact mem_cons_self
        obtain ⟨hc, hsys⟩ := hwhole.measures e (hsub he)
        obtain ⟨hc', hsys'⟩ := h.measures e he
        have hcounts := Value.int.inj (hc.symm.trans hc')
        have hsystems := Value.obj.inj (hsys.symm.trans hsys')
        refine ⟨⟨.inr ?_, .inr ?_⟩, fun _ => by omega⟩
        · rw [hcount, hcounts]
        · rw [hsystem, hsystems]
    have hrun : row.status = .running := by
      rcases hopen with hrun | hdone
      · exact hrun
      · obtain ⟨hne, hall⟩ := hs.completed_iff.mp hdone
        have hc := hcontinues.2 hne
        omega
    have hfits := hwhole.fits.subperm hmany
    unfold Settled at hs
    rw [hrun] at hs
    obtain ⟨hpages, _, hsome⟩ := hs
    have hrecording := recording_pages hpages hkey
    have hmeasured : (row.recording d.key d.digest d).pageCount = count ∧
        (row.recording d.key d.digest d).evidenceSystem = system := by
      unfold ScanRow.recording
      dsimp only
      rw [hcount, hsystem]
      exact ⟨rfl, rfl⟩
    -- the last page of the whole set completes the job, any other one does not
    have hsettle : ∃ r, settlePage manifest now (row.recording d.key d.digest d) = .ok r := by
      have hcontrols : (row.recording d.key d.digest d).pages.map (·.2) =
          (documents ++ [d]).map controls := by
        rw [hrecording, List.map_map]
        rfl
      unfold settlePage
      rw [hcontrols, hmeasured.1, hmeasured.2, hrecording, List.length_map]
      split
      · rename_i hfull
        rw [length_append, List.length_singleton] at hfull
        have hperm : (documents ++ [d]).Perm whole := hmany.perm_of_length_le (by
          rw [length_append, List.length_singleton]
          omega)
        have hpermuted := hperm.map controls
        obtain ⟨hcomplete, result, hresult⟩ := hwhole.full (by omega) (List.ne_nil_of_mem hd)
        rw [← complete_perm manifest hpermuted] at hcomplete
        rw [← evaluate_perm manifest _ hpermuted hfits.controls] at hresult
        refine ⟨_, bind_eq_ok.mpr ⟨(), throwIf_eq_ok.mpr ?_, bind_eq_ok.mpr ⟨result, hresult, rfl⟩⟩⟩
        rw [hcomplete]
        decide
      · exact ⟨_, rfl⟩
    obtain ⟨⟨reply, row'⟩, hsettle⟩ := hsettle
    exact ⟨reply, row', (recordPage_new_iff h hrun hpages hkey).mpr ⟨hfits, hcontinues.1, hsettle⟩⟩

/-- All the pages of such a set are accepted, in any order and any number of times. -/
theorem receivePages_whole {count : Nat} {system : Object} {whole : List PageDocument}
    {arrivals : List (Circumstances × PageDocument)}
    (hwhole : Whole manifest row count system whole) (h : Collected manifest row documents)
    (hs : Settled manifest row documents)
    (hopen : row.status = .running ∨ row.status = .completed)
    (hattempt : row.attemptId = some attempt) (hsteady : ∀ a ∈ arrivals, Steady row a.1)
    (hsub : documents ⊆ whole) (hall : ∀ a ∈ arrivals, a.2 ∈ whole) :
    ∃ row', row.receivePages manifest attempt arrivals = .ok row' := by
  induction arrivals generalizing row documents with
  | nil => exact ⟨row, rfl⟩
  | cons arrival rest ih =>
    obtain ⟨c, d⟩ := arrival
    obtain ⟨reply, next, hpage⟩ : ∃ reply next, recordPage manifest c.now row d = .ok (reply, next) :=
      recordPage_whole hwhole h hs hopen hsub (hall _ mem_cons_self)
    have hnext : ∃ documents', documents' ⊆ whole ∧ SameAttempt row next ∧
        Collected manifest next documents' ∧ Settled manifest next documents' := by
      rcases recordPage_step h hs hpage with ⟨rfl, _⟩ | ⟨_, hsame, hcollected, hsettled⟩
      · exact ⟨documents, hsub, .refl _, h, hs⟩
      · exact ⟨documents ++ [d], append_subset.mpr
          ⟨hsub, cons_subset.mpr ⟨hall _ mem_cons_self, nil_subset _⟩⟩, hsame,
          hcollected, hsettled⟩
    obtain ⟨documents', hsub', hsame, hcollected, hsettled⟩ := hnext
    have hopen' : next.status = .running ∨ next.status = .completed := by
      rcases hopen with hrun | hdone
      · exact (hsame.running hrun).imp And.left id
      · exact .inr (hsame.completed hdone)
    have hnext : Whole manifest next count system whole :=
      ⟨hwhole.fits.of_blank hsame.blank, hwhole.measures, hwhole.bounded, hwhole.full⟩
    obtain ⟨row', hrest⟩ := ih hnext hcollected hsettled hopen'
      (hsame.attempt.trans hattempt)
      (fun a ha => (hsteady a (List.mem_cons_of_mem _ ha)).congr hsame) hsub'
      fun a ha => hall a (List.mem_cons_of_mem _ ha)
    refine ⟨row', ?_⟩
    unfold ScanRow.receivePages
    rw [securityExchange_page (hsteady _ mem_cons_self) hattempt, hpage]
    exact hrest

theorem Collected.whole (h : Collected manifest row documents) (hs : Settled manifest row documents)
    (hopen : row.status = .running ∨ row.status = .completed) :
    Whole manifest row row.pageCount row.evidenceSystem documents := by
  refine ⟨h.fits, h.measures, ?_, fun hfull hne => ?_⟩
  · rcases hopen with hrun | hdone
    · rcases hs.short (by rw [hrun]; decide) with rfl | hlt
      · exact Nat.zero_le _
      · omega
    · exact Nat.le_of_eq (hs.completed_iff.mp hdone).2
  · have hdone := hs.completed_iff.mpr ⟨hne, hfull⟩
    unfold Settled at hs
    rw [hdone] at hs
    obtain ⟨_, _, hcomplete, a, _, hresult⟩ := hs
    exact ⟨hcomplete, _, hresult⟩

/-- Two orders of the same pages end alike. -/
theorem receivePages_same {arrivals arrivals' : List (Circumstances × PageDocument)}
    (h : Collected manifest row documents) (hs : Settled manifest row documents)
    (hrun : row.status = .running) (hattempt : row.attemptId = some attempt)
    (hsteady : ∀ a ∈ arrivals ++ arrivals', Steady row a.1)
    (hsame : ∀ d, d ∈ arrivals.map (·.2) ↔ d ∈ arrivals'.map (·.2))
    (hkeys : ∀ d ∈ documents ++ arrivals.map (·.2), ∀ e ∈ documents ++ arrivals.map (·.2),
      d.key = e.key → d = e)
    (hr : row.receivePages manifest attempt arrivals = .ok row') :
    ∃ row'', row.receivePages manifest attempt arrivals' = .ok row'' ∧ row''.status = row'.status ∧
      row''.assessment.map BaselineAssessment.toEvaluation =
        row'.assessment.map BaselineAssessment.toEvaluation := by
  obtain ⟨more, hmore, hall, hstep, hcollected, hsettled⟩ := receivePages_collects h hs hattempt
    (fun a ha => hsteady a (List.mem_append_left _ ha)) hr
  have hopen : row'.status = .running ∨ row'.status = .completed :=
    (hstep.running hrun).imp And.left fun hdone => hdone
  have hwhole := hcollected.whole hsettled hopen
  have hfirst : Whole manifest row row'.pageCount row'.evidenceSystem (documents ++ more) :=
    ⟨hwhole.fits.of_blank hstep.blank.symm, hwhole.measures, hwhole.bounded, hwhole.full⟩
  -- a page that arrived is the page the job has under its key
  have harrived : ∀ a ∈ arrivals', a.2 ∈ documents ++ more := by
    intro a ha
    have hmem := (hsame a.2).mpr (mem_map_of_mem ha)
    obtain ⟨b, hb, heq⟩ := mem_map.mp hmem
    obtain ⟨e, he, hkey⟩ := mem_map.mp (hall b hb)
    have hunion : e ∈ documents ++ arrivals.map (·.2) := by
      rcases List.mem_append.mp he with hold | hnew
      · exact List.mem_append_left _ hold
      · exact mem_append_right _ (hmore hnew)
    rw [← heq, ← hkeys e hunion b.2 (mem_append_right _ (mem_map_of_mem hb)) hkey]
    exact he
  obtain ⟨row'', hr'⟩ := receivePages_whole hfirst h hs (.inl hrun) hattempt
    (fun a ha => hsteady a (mem_append_right _ ha)) (List.subset_append_left _ _) harrived
  obtain ⟨more', hmore', hall', hstep', hcollected', hsettled'⟩ := receivePages_collects h hs hattempt
    (fun a ha => hsteady a (mem_append_right _ ha)) hr'
  have hsub : documents ++ more' ⊆ documents ++ more := by
    refine append_subset.mpr ⟨List.subset_append_left _ _, fun d hd => ?_⟩
    obtain ⟨a, ha, heq⟩ := mem_map.mp (hmore' hd)
    exact heq ▸ harrived a ha
  have hsub' : documents ++ more ⊆ documents ++ more' := by
    refine append_subset.mpr ⟨List.subset_append_left _ _, fun d hd => ?_⟩
    obtain ⟨a, ha, heq⟩ := mem_map.mp ((hsame d).mp (hmore hd))
    obtain ⟨e, he, hkey⟩ := mem_map.mp (hall' a ha)
    have hsame := hcollected.fits.same (hsub he) (mem_append_right _ hd) (heq ▸ hkey)
    exact hsame ▸ he
  have hperm : (documents ++ more').Perm (documents ++ more) :=
    (List.subperm_of_subset hcollected'.fits.nodup hsub).antisymm
      (List.subperm_of_subset hcollected.fits.nodup hsub')
  have hmeasured : row''.pageCount = row'.pageCount ∧ row''.evidenceSystem = row'.evidenceSystem := by
    cases hdocuments : documents ++ more with
    | nil =>
      rw [hdocuments] at hperm
      have hnil := hperm.eq_nil
      obtain ⟨hc, hsys⟩ := hcollected.blank hdocuments
      obtain ⟨hc', hsys'⟩ := hcollected'.blank hnil
      exact ⟨hc'.trans hc.symm, hsys'.trans hsys.symm⟩
    | cons d rest =>
      have hd : d ∈ documents ++ more := by
        rw [hdocuments]
        exact mem_cons_self
      obtain ⟨hc, hsys⟩ := hcollected.measures d hd
      obtain ⟨hc', hsys'⟩ := hcollected'.measures d (hperm.mem_iff.mpr hd)
      have hcounts := Value.int.inj (hc'.symm.trans hc)
      exact ⟨by omega, Value.obj.inj (hsys'.symm.trans hsys)⟩
  have hdone : row''.status = .completed ↔ row'.status = .completed := by
    rw [hsettled.completed_iff, hsettled'.completed_iff, hperm.length_eq, hmeasured.1]
    have hnil : documents ++ more' = [] ↔ documents ++ more = [] := by
      rw [← List.length_eq_zero_iff, ← List.length_eq_zero_iff, hperm.length_eq]
    rw [ne_eq, ne_eq, hnil]
  refine ⟨row'', hr', ?_⟩
  rcases hstep.running hrun with ⟨hrun', hkept⟩ | hdone'
  · rcases hstep'.running hrun with ⟨hrun'', hkept'⟩ | hdone''
    · exact ⟨hrun''.trans hrun'.symm, by rw [hkept, hkept']⟩
    · rw [hdone.mp hdone''] at hrun'
      cases hrun'
  · have hdone'' := hdone.mpr hdone'
    refine ⟨hdone''.trans hdone'.symm, ?_⟩
    unfold Settled at hsettled hsettled'
    rw [hdone'] at hsettled
    rw [hdone''] at hsettled'
    obtain ⟨_, _, _, a, ha, hresult⟩ := hsettled
    obtain ⟨_, _, _, a', ha', hresult'⟩ := hsettled'
    rw [hmeasured.2, evaluate_perm manifest _ (hperm.map controls)
      hcollected'.fits.controls, hresult] at hresult'
    rw [ha, ha', Option.map_some, Option.map_some, Except.ok.inj hresult']

/-- For every run of requests about one job: it is completed exactly when as many pages as were
announced are accepted; these then cover the manifest, and the assessment is their evaluation in
any order.  A repeated page changes nothing, and the same pages end alike in any order, with any
repetitions. -/
theorem scan_pages_order_independent (manifest : ScanManifest) (id : Uuid)
    (manifestSha256 profile operatingSystem : String) (now : Time)
    (requests : List (Circumstances × Exchange)) (t : Attempt)
    (ht : t = Attempt.receiveAll manifest
      ⟨.queued id manifestSha256 profile operatingSystem now, []⟩ requests) :
    (t.row.status = .completed ↔ t.accepted ≠ [] ∧ t.accepted.length = t.row.pageCount) ∧
    (t.row.status = .completed →
      (∀ key, key ∈ manifest.controls.map ManifestControl.id ↔
        ∃ d ∈ t.accepted, key ∈ controlIds d.controls) ∧
      ∃ a, t.row.assessment = some a ∧
        ∀ pages, pages.Perm (t.accepted.map PageDocument.controls) →
          evaluate manifest (observations pages) (.obj t.row.evidenceSystem) = .ok a.toEvaluation) ∧
    (∀ attempt c, t.row.attemptId = some attempt → Steady t.row c → ∀ d ∈ t.accepted,
      securityExchange manifest c t.row (t.row.page attempt d) =
        .ok (.accepted (t.row.status == .completed), t.row)) ∧
    (∀ attempt arrivals arrivals' row, t.row.status = .running → t.row.attemptId = some attempt →
      (∀ a ∈ arrivals ++ arrivals', Steady t.row a.1) →
      (∀ d, d ∈ arrivals.map (·.2) ↔ d ∈ arrivals'.map (·.2)) →
      (∀ d ∈ t.accepted ++ arrivals.map (·.2), ∀ e ∈ t.accepted ++ arrivals.map (·.2),
        d.key = e.key → d = e) →
      t.row.receivePages manifest attempt arrivals = .ok row →
      ∃ row', t.row.receivePages manifest attempt arrivals' = .ok row' ∧ row'.status = row.status ∧
        row'.assessment.map BaselineAssessment.toEvaluation =
          row.assessment.map BaselineAssessment.toEvaluation) := by
  have hholds : t.Holds manifest := ht ▸ receiveAll_holds (queued_holds _ _ _ _ _) requests
  obtain ⟨hcollected, hsettled⟩ := hholds
  refine ⟨hsettled.completed_iff, fun hdone => ?_, fun attempt c hattempt hsteady d hd => ?_,
    fun attempt arrivals arrivals' row hrun hattempt hsteady hsame hkeys hr =>
      receivePages_same hcollected hsettled hrun hattempt hsteady hsame hkeys hr⟩
  · unfold Settled at hsettled
    rw [hdone] at hsettled
    obtain ⟨_, _, hcomplete, a, ha, hresult⟩ := hsettled
    refine ⟨fun key => ?_, a, ha, fun pages hperm => ?_⟩
    · have hcover := complete_iff.mp hcomplete key
      rw [List.flatMap_map, List.mem_flatMap] at hcover
      exact hcover
    · have hnodup := (hperm.symm.flatMap_right controlIds).nodup_iff.mp hcollected.fits.controls
      rw [evaluate_perm manifest _ hperm hnodup, hresult]
  · rw [securityExchange_page hsteady hattempt]
    exact recordPage_repeated hcollected hd

/-! ## Samples -/

/-- A control of a sample manifest. -/
def dwordControl (id : String) : ManifestControl :=
  { id, label := id, scope := "machine", kind := "registry", comparison := "equals"
    valueType := "dword", expected := .int 1 }

def twoControls : ScanManifest :=
  { osBuild := "26100", controls := [dwordControl "first", dwordControl "second"] }

/-- The identifier of a sample job and of its attempt. -/
def sampleUuid : Uuid := ⟨"00000000-0000-4000-8000-000000000000", by decide⟩

/-- A time at which nothing has run out. -/
def sampleCircumstances : Circumstances :=
  { now := 0, authorised := true, supported := true, reached := true, scopeCurrent := true
    uuid := sampleUuid }

/-- A page of two that observed these controls. -/
def sampleEvidence (index : Int) (ids : List String) : PageDocument :=
  { pageIndex := .int index, pageCount := .int 2
    system := .obj [("join_state", .str "workgroup"), ("operating_system", .str "Windows"),
      ("os_build", .str "26100"), ("product_type", .int 3)]
    controls := .arr (ids.map fun id =>
      .obj [("control_id", .str id), ("read_status", .str "ok"), ("value", .int 1)]) }

/-- A sample job is polled for, and these pages arrive. -/
def sampleRequests (documents : List PageDocument) : List (Circumstances × Exchange) :=
  (sampleCircumstances, .poll) :: documents.map fun d =>
    (sampleCircumstances, .result (.str sampleUuid.val) (.str sampleUuid.val) (.str "sha") d)

/-- The sample job after these pages. -/
def sampleAttempt (documents : List PageDocument) : Attempt :=
  Attempt.receiveAll twoControls ⟨.queued sampleUuid "sha" "server" "Windows" 0, []⟩
    (sampleRequests documents)

/-- Two pages complete the sample job, the second one first. -/
theorem scan_pages_order_independent_sample :
    ∃ a, (sampleAttempt [sampleEvidence 1 ["second"], sampleEvidence 0 ["first"]]).row.assessment = some a ∧
      evaluate twoControls
          (observations [(sampleEvidence 0 ["first"]).controls, (sampleEvidence 1 ["second"]).controls])
          (.obj (sampleAttempt
            [sampleEvidence 1 ["second"], sampleEvidence 0 ["first"]]).row.evidenceSystem) =
        .ok a.toEvaluation := by
  obtain ⟨_, hcompleted, _⟩ := scan_pages_order_independent twoControls sampleUuid "sha" "server"
    "Windows" 0 (sampleRequests [sampleEvidence 1 ["second"], sampleEvidence 0 ["first"]])
    (sampleAttempt [sampleEvidence 1 ["second"], sampleEvidence 0 ["first"]]) rfl
  obtain ⟨_, a, ha, hall⟩ := hcompleted (by decide +kernel)
  have haccepted : (sampleAttempt
      [sampleEvidence 1 ["second"], sampleEvidence 0 ["first"]]).accepted.map controls =
        [(sampleEvidence 1 ["second"]).controls, (sampleEvidence 0 ["first"]).controls] := by decide +kernel
  refine ⟨a, ha, hall _ ?_⟩
  rw [haccepted]
  exact List.Perm.swap _ _ _

/-- One page of two that covers the manifest leaves the job running. -/
theorem covered_job_running : ¬∀ (manifest : ScanManifest) (id : Uuid)
    (manifestSha256 profile operatingSystem : String) (now : Time)
    (requests : List (Circumstances × Exchange)) (t : Attempt),
    t = Attempt.receiveAll manifest
      ⟨.queued id manifestSha256 profile operatingSystem now, []⟩ requests →
    (t.row.status = .completed ↔ ∀ key ∈ manifest.controls.map ManifestControl.id,
      ∃ d ∈ t.accepted, key ∈ controlIds d.controls) := by
  intro h
  have hcovered := h twoControls sampleUuid "sha" "server" "Windows" 0
    (sampleRequests [sampleEvidence 0 ["first", "second"]])
    (sampleAttempt [sampleEvidence 0 ["first", "second"]]) rfl
  have hrunning : (sampleAttempt [sampleEvidence 0 ["first", "second"]]).row.status ≠ .completed := by
    decide +kernel
  have hall : ∀ key ∈ twoControls.controls.map ManifestControl.id,
      ∃ d ∈ (sampleAttempt [sampleEvidence 0 ["first", "second"]]).accepted,
        key ∈ controlIds d.controls := by decide +kernel
  exact hrunning (hcovered.mpr hall)

end Ipms.Server.Security
