import Ipms.Server.Security.Pages

/-
  Ipms.Server.Security.PageRuns

  One scan job over the requests of its agent.  The pages it has accepted in
  its current attempt stand beside it; one step keeps what its status says of
  them, and so does every run.
-/

namespace Ipms.Server.Security

open Ipms.ManagementJson Ipms.Lib Ipms.Crypto PageDocument

variable {manifest : ScanManifest} {row row' : ScanRow} {documents : List PageDocument}
  {d : PageDocument} {now : Time} {reply : Reply}

/-! ## What a job has collected -/

/-- A page was measured as the job's earlier pages were. -/
def ScanRow.measures (row : ScanRow) (document : PageDocument) : Prop :=
  document.pageCount = .int row.pageCount ∧ document.system = .obj row.evidenceSystem

/-- A job holds these pages of its attempt. -/
structure Collected (manifest : ScanManifest) (row : ScanRow) (documents : List PageDocument) :
    Prop where
  fits : Fits row.toBaselineScanJob manifest.checked documents
  hashes : row.pageHashes = documents.map fun d => (d.key, d.digest)
  measures : ∀ d ∈ documents, row.measures d
  blank : documents = [] → row.pageCount = 0 ∧ row.evidenceSystem = []

/-- The assessment of a job is the evaluation of these pages. -/
def Evaluated (manifest : ScanManifest) (row : ScanRow) (documents : List PageDocument) : Prop :=
  ∃ a, row.assessment = some a ∧
    evaluate manifest (observations (documents.map PageDocument.controls)) (.obj row.evidenceSystem) =
      .ok a.toEvaluation

/-- Fewer pages than were announced. -/
def Short (row : ScanRow) (documents : List PageDocument) : Prop :=
  documents = [] ∨ documents.length < row.pageCount

/-- What the status of a job says of the pages it has collected. -/
def Settled (manifest : ScanManifest) (row : ScanRow) (documents : List PageDocument) : Prop :=
  match row.status with
  | .queued => documents = []
  | .running => row.pages = documents.map PageDocument.entry ∧ Short row documents ∧
      row.assessment.isSome = true
  | .completed => documents ≠ [] ∧ documents.length = row.pageCount ∧
      complete manifest (documents.map PageDocument.controls) = true ∧ Evaluated manifest row documents
  | .failed | .expired => Short row documents

theorem Settled.short (h : Settled manifest row documents) (hs : row.status ≠ .completed) :
    Short row documents := by
  unfold Settled at h
  cases hstatus : row.status with
  | queued => rw [hstatus] at h; exact .inl h
  | running => rw [hstatus] at h; exact h.2.1
  | completed => exact absurd hstatus hs
  | failed | expired => rw [hstatus] at h; exact h

theorem Settled.completed_iff (h : Settled manifest row documents) :
    row.status = .completed ↔ documents ≠ [] ∧ documents.length = row.pageCount := by
  constructor
  · intro hs
    unfold Settled at h
    rw [hs] at h
    exact ⟨h.1, h.2.1⟩
  · rintro ⟨hne, hlength⟩
    by_contra hs
    rcases h.short hs with hnil | hlt
    · exact hne hnil
    · omega

theorem Collected.keyed (h : Collected manifest row documents) (hd : d ∈ documents) :
    row.pageHashes.lookup d.key = some d.digest := by
  rw [h.hashes]
  refine (lookup_eq_some_iff ?_).mpr ?_
  · rw [List.map_map]
    exact h.fits.keys
  · exact List.mem_map_of_mem hd

theorem recordPage_repeated (h : Collected manifest row documents) (hd : d ∈ documents) :
    recordPage manifest now row d = .ok (.accepted (row.status == .completed), row) := by
  obtain ⟨r, hr⟩ := h.fits.valid d hd
  have hvalid : validatePage row.toBaselineScanJob manifest.checked d = .ok r := by
    obtain ⟨hcount, hsystem⟩ := h.measures d hd
    exact validatePage_iff.mpr ⟨hr, .inr hcount, .inr hsystem⟩
  obtain ⟨rfl, _⟩ := validatePage_facts hvalid
  unfold recordPage
  rw [bind_eq_ok]
  refine ⟨_, hvalid, ?_⟩
  simp only [h.keyed hd, bind_eq_ok, throwIf_eq_ok, pure_eq_ok]
  exact ⟨(), fun hne => hne rfl, trivial⟩

theorem recordPage_known {r : Reply × ScanRow} (h : Collected manifest row documents)
    (hkey : d.key ∈ documents.map key) (hr : recordPage manifest now row d = .ok r) :
    r = (.accepted (row.status == .completed), row) := by
  obtain ⟨e, he, heq⟩ := List.mem_map.mp hkey
  unfold recordPage at hr
  obtain ⟨_, hvalid, hr⟩ := bind_eq_ok.mp hr
  obtain ⟨rfl, _⟩ := validatePage_facts hvalid
  simp only [← heq, h.keyed he, bind_eq_ok, throwIf_eq_ok, pure_eq_ok] at hr
  obtain ⟨_, _, hr⟩ := hr
  exact hr.symm

/-! ## A page with a new key -/

theorem Fits.of_blank {job job' : BaselineScanJob} {m : Manifest} (h : Fits job m documents)
    (hblank : job'.blank = job.blank) : Fits job' m documents := by
  refine ⟨?_, h.keys, h.ids, h.size⟩
  rw [hblank]
  exact h.valid

theorem lookup_fresh (h : Collected manifest row documents)
    (hnew : d.key ∉ documents.map key) : row.pageHashes.lookup d.key = none := by
  rw [h.hashes, List.lookup_eq_none_iff]
  intro p hp
  obtain ⟨e, he, rfl⟩ := List.mem_map.mp hp
  rw [bne_iff_ne]
  exact fun heq => hnew (heq ▸ List.mem_map_of_mem he)

theorem setItem_fresh {pages : List (String × Value)} {key : String} {controls : Value}
    (hnew : key ∉ pages.map (·.1)) : setItem pages key controls = pages ++ [(key, controls)] := by
  unfold setItem
  rw [if_neg]
  rw [List.any_eq_true]
  rintro ⟨p, hp, heq⟩
  exact hnew (beq_iff_eq.mp heq ▸ List.mem_map_of_mem hp)

theorem recording_pages (hpages : row.pages = documents.map entry)
    (hnew : d.key ∉ documents.map key) :
    (row.recording d.key d.digest d).pages = (documents ++ [d]).map entry := by
  show setItem row.pages d.key d.controls = _
  rw [hpages, setItem_fresh, List.map_append]
  · rfl
  · rw [List.map_map]
    exact hnew

/-- A new page is accepted when it fits with the others and was measured as they were. -/
theorem recordPage_new_iff {r : Reply × ScanRow} (h : Collected manifest row documents)
    (hrun : row.status = .running) (hpages : row.pages = documents.map entry)
    (hnew : d.key ∉ documents.map key) :
    recordPage manifest now row d = .ok r ↔
      Fits row.toBaselineScanJob manifest.checked (documents ++ [d]) ∧
        row.toBaselineScanJob.continues d ∧
        settlePage manifest now (row.recording d.key d.digest d) = .ok r := by
  have hoverlap : (row.pages.flatMap (controlIds ·.2)).any (controlIds d.controls).contains = true ↔
      ∃ id ∈ documents.flatMap fun e => controlIds e.controls, id ∈ controlIds d.controls := by
    rw [hpages, List.flatMap_map]
    simp only [List.any_eq_true, List.contains_iff_mem]
    rfl
  have hids : (∀ e ∈ [d], (controlIds e.controls).Nodup) →
      (((documents ++ [d]).flatMap fun e => controlIds e.controls).Nodup ↔
      ¬∃ id ∈ documents.flatMap fun e => controlIds e.controls, id ∈ controlIds d.controls) := by
    intro hd
    rw [List.flatMap_append, List.flatMap_singleton, List.nodup_append]
    constructor
    · rintro ⟨_, _, hdisjoint⟩ ⟨id, hid, hmem⟩
      exact hdisjoint id hid id hmem rfl
    · intro hno
      exact ⟨h.fits.ids, hd d List.mem_cons_self, fun id hid id' hid' heq =>
        hno ⟨id, hid, heq ▸ hid'⟩⟩
  have hkeys : ((documents ++ [d]).map key).Nodup := by
    rw [List.map_append, List.nodup_append]
    refine ⟨h.fits.keys, List.nodup_singleton _, ?_⟩
    rintro key hkey _ hsingle rfl
    exact hnew (List.mem_singleton.mp hsingle ▸ hkey)
  unfold recordPage
  rw [bind_eq_ok]
  constructor
  · rintro ⟨keyed, hvalid, hr⟩
    obtain ⟨rfl, hchecked⟩ := validatePage_facts hvalid
    simp only [lookup_fresh h hnew, bind_eq_ok, throwIf_eq_ok] at hr
    obtain ⟨_, _, _, hdisjoint, _, hsize, hr⟩ := hr
    rw [hoverlap] at hdisjoint
    rw [recording_pages hpages hnew] at hsize
    obtain ⟨hblank, hcontinues⟩ := validatePage_iff.mp hvalid
    refine ⟨⟨?_, hkeys, ?_, by omega⟩, hcontinues, hr⟩
    · intro e he
      rcases List.mem_append.mp he with hold | hsingle
      · exact h.fits.valid e hold
      · exact List.mem_singleton.mp hsingle ▸ ⟨_, hblank⟩
    · exact (hids fun e he => List.mem_singleton.mp he ▸ hchecked.nodup).mpr hdisjoint
  · rintro ⟨hfits, hcontinues, hr⟩
    obtain ⟨keyed, hblank⟩ := hfits.valid d (List.mem_append_right _ List.mem_cons_self)
    have hvalid := validatePage_iff.mpr ⟨hblank, hcontinues⟩
    obtain ⟨rfl, hchecked⟩ := validatePage_facts hvalid
    refine ⟨_, hvalid, ?_⟩
    simp only [lookup_fresh h hnew, bind_eq_ok, throwIf_eq_ok]
    refine ⟨(), fun hno => hno hrun, (), ?_, (), ?_, hr⟩
    · rw [hoverlap]
      exact (hids fun e he => List.mem_singleton.mp he ▸ hchecked.nodup).mp hfits.ids
    · have hsize := hfits.size
      rw [recording_pages hpages hnew]
      omega

/-- The job with one page more has collected it. -/
theorem Collected.recording (h : Collected manifest row documents)
    (hfits : Fits row.toBaselineScanJob manifest.checked (documents ++ [d]))
    (hcontinues : row.toBaselineScanJob.continues d) :
    Collected manifest (row.recording d.key d.digest d) (documents ++ [d]) := by
  obtain ⟨_, hvalid⟩ := hfits.valid d (List.mem_append_right _ List.mem_cons_self)
  obtain ⟨_, hchecked⟩ := validatePage_facts hvalid
  obtain ⟨count, hcount, _⟩ := hchecked.count
  obtain ⟨system, hsystem, _⟩ := hchecked.system
  have hnext : (row.recording d.key d.digest d).pageCount = count ∧
      (row.recording d.key d.digest d).evidenceSystem = system := by
    unfold ScanRow.recording
    dsimp only
    rw [hcount, hsystem]
    exact ⟨rfl, rfl⟩
  refine ⟨hfits.of_blank rfl, ?_, fun e he => ?_, fun hnil => ?_⟩
  · show row.pageHashes ++ [(d.key, d.digest)] = _
    rw [h.hashes, List.map_append]
    rfl
  · unfold ScanRow.measures
    rw [hnext.1, hnext.2]
    rcases List.mem_append.mp he with hold | hsingle
    · -- the pages before were measured as the new one
      obtain ⟨_, hvalid⟩ := h.fits.valid e hold
      obtain ⟨_, hbefore⟩ := validatePage_facts hvalid
      obtain ⟨ecount, hecount, hpositive⟩ := hbefore.count
      obtain ⟨esystem, hesystem, hne⟩ := hbefore.system
      obtain ⟨hmcount, hmsystem⟩ := h.measures e hold
      rw [hecount, Value.int.injEq] at hmcount
      rw [hesystem, Value.obj.injEq] at hmsystem
      obtain ⟨hc, hs⟩ := hcontinues
      rcases hc with hzero | hc
      · omega
      rcases hs with hnone | hs
      · exact absurd (hmsystem.trans hnone) hne
      rw [hcount, Value.int.injEq] at hc
      rw [hsystem, Value.obj.injEq] at hs
      rw [hecount, hesystem, hmcount, hc, hmsystem, hs]
      exact ⟨rfl, rfl⟩
    · rw [List.mem_singleton.mp hsingle]
      exact ⟨hcount, hsystem⟩
  · exact absurd hnil (by simp)

theorem Collected.congr (h : Collected manifest row documents)
    (hbase : row'.toBaselineScanJob = row.toBaselineScanJob) (hhashes : row'.pageHashes = row.pageHashes) :
    Collected manifest row' documents := by
  refine ⟨?_, by rw [hhashes, h.hashes], ?_, ?_⟩
  · rw [hbase]
    exact h.fits
  · unfold ScanRow.measures
    rw [hbase]
    exact h.measures
  · rw [hbase]
    exact h.blank

/-- What a job's pages leave alone, and where they lead. -/
structure SameAttempt (row row' : ScanRow) : Prop where
  blank : row'.toBaselineScanJob.blank = row.toBaselineScanJob.blank
  id : row'.id = row.id
  manifest : row'.manifestSha256 = row.manifestSha256
  attempt : row'.attemptId = row.attemptId
  expires : row'.expiresAt = row.expiresAt
  lease : row'.leaseExpiresAt = row.leaseExpiresAt
  running : row.status = .running →
    row'.status = .running ∧ row'.assessment = row.assessment ∨ row'.status = .completed
  completed : row.status = .completed → row'.status = .completed

theorem SameAttempt.refl (row : ScanRow) : SameAttempt row row :=
  ⟨rfl, rfl, rfl, rfl, rfl, rfl, fun h => .inl ⟨h, rfl⟩, fun h => h⟩

theorem SameAttempt.trans {a b c : ScanRow} (h : SameAttempt a b) (h' : SameAttempt b c) :
    SameAttempt a c := by
  refine ⟨h'.blank.trans h.blank, h'.id.trans h.id, h'.manifest.trans h.manifest, h'.attempt.trans h.attempt,
    h'.expires.trans h.expires, h'.lease.trans h.lease, fun hrun => ?_,
    fun hdone => h'.completed (h.completed hdone)⟩
  rcases h.running hrun with ⟨hb, hkept⟩ | hb
  · rcases h'.running hb with ⟨hc, hkept'⟩ | hc
    · exact .inl ⟨hc, hkept'.trans hkept⟩
    · exact .inr hc
  · exact .inr (h'.completed hb)

/-- Settling a page keeps the pages and settles the job by their number. -/
theorem settlePage_spec (hrun : row.status = .running)
    (hpages : row.pages = documents.map entry) (hsome : row.assessment.isSome = true)
    (hne : documents ≠ []) (hle : documents.length ≤ row.pageCount)
    (h : settlePage manifest now row = .ok (reply, row')) :
    row'.toBaselineScanJob = row.toBaselineScanJob ∧ row'.pageHashes = row.pageHashes ∧
      SameAttempt row row' ∧ Settled manifest row' documents := by
  have hcontrols : row.pages.map (·.2) = documents.map controls := by
    rw [hpages, List.map_map]
    rfl
  have hlength : row.pages.length = documents.length := by rw [hpages, List.length_map]
  unfold settlePage at h
  rw [hlength, hcontrols] at h
  split at h
  · rename_i hfull
    simp only [bind_eq_ok, throwIf_eq_ok, pure_eq_ok] at h
    obtain ⟨_, hcomplete, result, hresult, heq⟩ := h
    cases heq
    obtain ⟨a, ha⟩ := Option.isSome_iff_exists.mp hsome
    refine ⟨rfl, rfl, ⟨rfl, rfl, rfl, rfl, rfl, rfl, fun _ => .inr rfl, fun _ => rfl⟩, hne, hfull,
      by simpa using hcomplete,
      { a with toEvaluation := result, observedAt := now }, ?_, hresult⟩
    show row.assessment.map _ = _
    rw [ha]
    rfl
  · rename_i hmore
    cases h
    refine ⟨rfl, rfl, .refl _, ?_⟩
    unfold Settled
    rw [hrun]
    exact ⟨hpages, .inr (by omega), hsome⟩

/-- A result page is a repetition, or one page more. -/
theorem recordPage_step (h : Collected manifest row documents) (hs : Settled manifest row documents)
    (hr : recordPage manifest now row d = .ok (reply, row')) :
    row' = row ∧ d.key ∈ documents.map key ∨
      d.key ∉ documents.map key ∧ SameAttempt row row' ∧
        Collected manifest row' (documents ++ [d]) ∧ Settled manifest row' (documents ++ [d]) := by
  by_cases hkey : d.key ∈ documents.map key
  · have heq := recordPage_known h hkey hr
    exact .inl ⟨(Prod.mk.inj heq).2, hkey⟩
  · refine .inr ⟨hkey, ?_⟩
    have hrun : row.status = .running := by
      unfold recordPage at hr
      obtain ⟨_, hvalid, hr⟩ := bind_eq_ok.mp hr
      obtain ⟨rfl, _⟩ := validatePage_facts hvalid
      simp only [lookup_fresh h hkey, bind_eq_ok, throwIf_eq_ok] at hr
      obtain ⟨_, hrun, _⟩ := hr
      exact Decidable.not_not.mp hrun
    unfold Settled at hs
    rw [hrun] at hs
    obtain ⟨hpages, hshort, hsome⟩ := hs
    obtain ⟨hfits, hcontinues, hsettle⟩ := (recordPage_new_iff h hrun hpages hkey).mp hr
    have hnext := h.recording hfits hcontinues
    have hle : (documents ++ [d]).length ≤ (row.recording d.key d.digest d).pageCount := by
      obtain ⟨hcount, _⟩ := hnext.measures d (List.mem_append_right _ List.mem_cons_self)
      obtain ⟨_, hvalid⟩ := hfits.valid d (List.mem_append_right _ List.mem_cons_self)
      obtain ⟨n, hn, hpositive⟩ := (validatePage_facts hvalid).2.count
      rw [hn, Value.int.injEq] at hcount
      rw [List.length_append, List.length_singleton]
      rcases hshort with rfl | hlt
      · rw [List.length_nil]
        omega
      · -- the announced count stays
        have hsame : (n : Int) = row.pageCount := by
          rcases hcontinues.1 with hzero | hsame
          · omega
          · exact Value.int.inj (hn.symm.trans hsame)
        omega
    have hnextrun : (row.recording d.key d.digest d).status = .running := hrun
    obtain ⟨hbase, hhashes, hsame, hsettled⟩ := settlePage_spec hnextrun
      (recording_pages hpages hkey) hsome (by simp) hle hsettle
    have hkept : SameAttempt row (row.recording d.key d.digest d) :=
      ⟨rfl, rfl, rfl, rfl, rfl, rfl, fun h => .inl ⟨h, rfl⟩, fun h => h⟩
    exact ⟨hkept.trans hsame, hnext.congr hbase hhashes, hsettled⟩

/-! ## A job and the pages it has accepted -/

/-- A job beside the pages accepted in its current attempt. -/
structure Attempt where
  row : ScanRow
  accepted : List PageDocument

/-- A request changes the job when it is accepted; a new attempt has no pages, and a page the job
records is one more. -/
def Attempt.receive (manifest : ScanManifest) (t : Attempt) (c : Circumstances) (request : Exchange) :
    Attempt :=
  match securityExchange manifest c t.row request with
  | .error _ => t
  | .ok (reply, row) =>
    { row
      accepted := match request, reply with
        | .poll, .offer .. => []
        | .result _ _ _ document, _ =>
          if t.row.pageHashes.length < row.pageHashes.length then t.accepted ++ [document]
          else t.accepted
        | _, _ => t.accepted }

/-- One request after another. -/
def Attempt.receiveAll (manifest : ScanManifest) (t : Attempt) :
    List (Circumstances × Exchange) → Attempt
  | [] => t
  | (c, request) :: rest => (t.receive manifest c request).receiveAll manifest rest

/-- What holds of a job and its pages. -/
structure Attempt.Holds (manifest : ScanManifest) (t : Attempt) : Prop where
  collected : Collected manifest t.row t.accepted
  settled : Settled manifest t.row t.accepted

theorem collected_nil (hhashes : row.pageHashes = []) (hcount : row.pageCount = 0)
    (hsystem : row.evidenceSystem = []) : Collected manifest row [] where
  fits :=
    { valid := fun _ hd => nomatch hd
      keys := List.nodup_nil
      ids := List.nodup_nil
      size := by
        rw [List.map_nil, pagesSize_eq]
        decide }
  hashes := hhashes
  measures := fun _ hd => nomatch hd
  blank := fun _ => ⟨hcount, hsystem⟩

theorem finishFailed_holds {t : Attempt} (h : t.Holds manifest) (hs : t.row.status.active = true)
    (code : String) (expired : Bool) (now : Time) :
    Attempt.Holds manifest ⟨t.row.finishFailed code expired now, t.accepted⟩ := by
  refine ⟨h.collected.congr rfl rfl, ?_⟩
  have hshort : Short t.row t.accepted := h.settled.short fun hc => by rw [hc] at hs; cases hs
  unfold Settled ScanRow.finishFailed
  cases expired <;> exact hshort

theorem expireJobs_holds {t : Attempt} (h : t.Holds manifest) (now : Time) :
    Attempt.Holds manifest ⟨t.row.expireJobs now, t.accepted⟩ := by
  unfold ScanRow.expireJobs
  by_cases hdue : t.row.overdue now = true
  · rw [if_pos hdue]
    unfold ScanRow.overdue at hdue
    exact finishFailed_holds h (Bool.and_eq_true_iff.mp hdue).1 _ _ _
  · rw [if_neg hdue]
    exact h

theorem poll_holds {t : Attempt} (h : t.Holds manifest) (c : Circumstances) :
    (∃ jobId attemptId total expires, (poll manifest c t.row).1 = .offer jobId attemptId total expires ∧
        Attempt.Holds manifest ⟨(poll manifest c t.row).2, []⟩) ∨
      (poll manifest c t.row).1 = .noOffer ∧
        Attempt.Holds manifest ⟨(poll manifest c t.row).2, t.accepted⟩ := by
  unfold poll
  split
  · exact .inr ⟨rfl, h⟩
  · rename_i hactive
    simp only [Bool.or_eq_true, Bool.not_eq_true', not_or, Bool.not_eq_false] at hactive
    split
    · exact .inr ⟨rfl, finishFailed_holds h hactive.2 _ _ _⟩
    · exact .inl ⟨_, _, _, _, rfl, collected_nil rfl rfl rfl, rfl, .inl rfl, rfl⟩

theorem addressed_eq_ok {c : Circumstances} {jobId attemptId manifestSha256 : Value}
    {handle : Except ServerError (Reply × ScanRow)}
    (h : addressed c row jobId attemptId manifestSha256 handle = .ok (reply, row')) :
    handle = .ok (reply, row') ∨ row' = row ∨
      row.status.active = true ∧ row' = row.finishFailed "scope_changed" false c.now := by
  unfold addressed at h
  simp only [bind_eq_ok, throwIf_eq_ok] at h
  obtain ⟨_, _, _, _, _, _, _, _, _, _, h⟩ := h
  split at h
  · rw [pure_eq_ok, Prod.mk.injEq] at h
    obtain ⟨_, rfl⟩ := h
    by_cases hs : row.status.active = true
    · exact .inr (.inr ⟨hs, if_pos hs⟩)
    · exact .inr (.inl (if_neg hs))
  · exact .inl h

/-- One request keeps what holds of a job and its pages. -/
theorem receive_holds {t : Attempt} (h : t.Holds manifest) (c : Circumstances) (request : Exchange) :
    (t.receive manifest c request).Holds manifest := by
  have hexpired := expireJobs_holds h c.now
  have hhashes : (t.row.expireJobs c.now).pageHashes = t.row.pageHashes := by
    unfold ScanRow.expireJobs
    split <;> rfl
  unfold Attempt.receive
  split
  · exact h
  · rename_i reply row hr
    unfold securityExchange at hr
    obtain ⟨_, _, hr⟩ := bind_eq_ok.mp hr
    have hfailed (hs : (t.row.expireJobs c.now).status.active = true) (code : String) :=
      finishFailed_holds hexpired hs code false c.now
    cases request with
    | poll =>
      have hpoll := pure_eq_ok.mp hr
      have hholds := poll_holds hexpired c
      rw [hpoll] at hholds
      rcases hholds with ⟨_, _, _, _, hreply, hholds⟩ | ⟨hreply, hholds⟩
      · rw [show reply = _ from hreply]
        exact hholds
      · rw [show reply = _ from hreply]
        exact hholds
    | result jobId attemptId manifestSha256 document =>
      dsimp only at hr ⊢
      rcases addressed_eq_ok hr with hpage | hsame | ⟨hs, hfail⟩
      · rcases recordPage_step hexpired.collected hexpired.settled hpage with
          ⟨heq, _⟩ | ⟨_, _, hcollected, hsettled⟩
        · rw [heq, hhashes, if_neg (Nat.lt_irrefl _)]
          exact hexpired
        · have hmore : t.row.pageHashes.length < row.pageHashes.length := by
            rw [h.collected.hashes, hcollected.hashes]
            simp
          rw [if_pos hmore]
          exact ⟨hcollected, hsettled⟩
      · rw [hsame, hhashes, if_neg (Nat.lt_irrefl _)]
        exact hexpired
      · rw [hfail]
        have hkept : ((t.row.expireJobs c.now).finishFailed "scope_changed" false c.now).pageHashes =
            t.row.pageHashes := hhashes
        rw [hkept, if_neg (Nat.lt_irrefl _)]
        exact hfailed hs _
    | failed jobId attemptId manifestSha256 errorCode =>
      dsimp only at hr ⊢
      rcases addressed_eq_ok hr with hcode | hsame | ⟨hs, hfail⟩
      · unfold recordFailed at hcode
        cases errorCode with
        | str code =>
          obtain ⟨_, _, hcode⟩ := bind_eq_ok.mp hcode
          split at hcode
          · rename_i hrun
            cases hcode
            exact hfailed (by rw [hrun]; rfl) _
          · obtain ⟨_, _, hcode⟩ := bind_eq_ok.mp hcode
            cases hcode
            exact hexpired
        | _ => cases hcode
      · rw [hsame]
        exact hexpired
      · rw [hfail]
        exact hfailed hs _
    | other =>
      cases hr
      exact hexpired

theorem receiveAll_holds {t : Attempt} (h : t.Holds manifest)
    (requests : List (Circumstances × Exchange)) : (t.receiveAll manifest requests).Holds manifest := by
  induction requests generalizing t with
  | nil => exact h
  | cons request rest ih => exact ih (receive_holds h request.1 request.2)

theorem queued_holds (id : Uuid) (manifestSha256 profile operatingSystem : String) (now : Time) :
    Attempt.Holds manifest ⟨.queued id manifestSha256 profile operatingSystem now, []⟩ :=
  ⟨collected_nil rfl rfl rfl, rfl⟩

end Ipms.Server.Security
