import Ipms.Agent.Hgs.LocalFence

/-
  Ipms.Agent.Hgs.FenceRuns

  The local fence over whole runs of cycles: what one cycle preserves, from
  whatever files an earlier cycle or a crash left, and from it what every run
  preserves.
-/

namespace Ipms.Agent.Hgs

open Ipms.Lib Ipms.ManagementJson Prog

section
variable {W : Type} (jobs : Job → Prop) (base : Disk)

/-! ## The station between two steps of a cycle -/

/-- Whatever was executed, every fence that was open then permits. -/
def Permitted (executed : List (Job × Disk)) : Prop :=
  ∀ b e, (b, e) ∈ executed → Grown base e ∧ ∀ r, Open e r → permittedWhileFenced r b = true

/-- What holds of a station after every write of a cycle. -/
structure Guarded (s : Station W) : Prop where
  kept : Kept jobs base s.store
  permitted : Permitted base s.executed

/-- Behind the retained journal the fence is raised. -/
structure Armed (s : Station W) : Prop extends Guarded jobs base s where
  raised : Raised s.store.disk

/-- While an assignment is executed or recovered, it is the current one. -/
structure Busy (assignment : Job) (s : Station W) : Prop extends Armed jobs base s where
  current : CurrentIs s.store.disk assignment

end

section
variable {W : Type} {net : Network W} {jobs : Job → Prop} {base : Disk} {assignment : Job}

/-! ## Calls to the control plane -/

/-- A property of a station that calls to the world and the deadline do not touch. -/
structure Local (J : Station W → Prop) : Prop where
  world : ∀ s w, J s → J { s with world := w }
  deadline : ∀ s n, J s → J { s with deadline := n }

theorem local_armed : Local (Armed (W := W) jobs base) where
  world _ _ hs := ⟨⟨hs.kept, hs.permitted⟩, hs.raised⟩
  deadline _ _ hs := ⟨⟨hs.kept, hs.permitted⟩, hs.raised⟩

theorem local_busy : Local (Busy (W := W) jobs base assignment) where
  world s w hs := ⟨local_armed.world s w hs.toArmed, hs.current⟩
  deadline s n hs := ⟨local_armed.deadline s n hs.toArmed, hs.current⟩

section
variable {J : Station W → Prop}

theorem Local.call (hJ : Local J) {α : Type} (f : Call W α) : Keeps J (Work.call f) :=
  fun s hs => Work.wp_call f (fun _ w _ => hJ.world s w hs) (fun _ w _ => hJ.world s w hs)

theorem Local.report (hJ : Local J) (record : Journal) : Keeps J (report net record) := by
  refine Keeps.bind (keeps_ofExcept _) fun _ => ?_
  refine Keeps.bind (hJ.call _) fun _ => ?_
  exact Keeps.bind (keeps_ofExcept _) fun _ => keeps_throwIf _

theorem keeps_tick : Keeps J (Work.tick net) :=
  Keeps.bind keeps_get fun _ => keeps_pure _

theorem Local.claim (hJ : Local J) : Keeps J (claim net assignment) := by
  have hgrant : ∀ deadline, Keeps J
      (modify fun s => { s with deadline } : Work W PUnit) :=
    fun deadline s hs => hJ.deadline s deadline hs
  unfold Hgs.claim
  refine Keeps.bind keeps_tick fun started => ?_
  refine Keeps.bind (hJ.call _) fun _ => ?_
  refine Keeps.bind (keeps_ofExcept _) fun _ => ?_
  refine Keeps.ite (keeps_pure _) ?_
  refine Keeps.bind (keeps_ofExcept _) fun _ => ?_
  refine Keeps.bind (keeps_throwIf _) fun _ => ?_
  refine Keeps.bind (hgrant (started + 60000)) fun _ => ?_
  exact Keeps.bind keeps_tick fun _ => keeps_pure _

theorem Local.authority (hJ : Local J) : Keeps J (authority net) := by
  refine Keeps.bind (hJ.call _) fun _ => ?_
  refine Keeps.ite (keeps_pure _) ?_
  refine Keeps.bind keeps_get fun _ => ?_
  exact Keeps.ite (keeps_pure _) (Keeps.bind keeps_tick fun _ => keeps_pure _)

end

/-! ## Executing and recovering -/

variable {k : Journal}

theorem busy_save (hissued : Issued jobs) (hk : Retained jobs k) :
    Keeps (Busy (W := W) jobs base k.assignment) (Work.files (saveJournal k)) := by
  intro s hs
  rw [Work.wp_files]
  refine wp_mono (wp_saveJournal hissued hs.kept
      ⟨hk, fun r hr => hs.kept.disk.admits hs.current hr, fun _ => hs.current, .inl hs.raised⟩)
    (fun _ t ht => ?_) (fun _ t ht => ?_)
  · exact ⟨⟨⟨ht.1.kept, hs.permitted⟩, ht.1.raised⟩, ht.1.currentIs ht.2⟩
  · rw [ht.1]
    exact hs

theorem Unclaimed.fits {r : Receipt} (hr : Unclaimed r) (a : Job) (before : Object) :
    Fits a before r := .failed hr.valid hr.status

theorem staged_of_early (hphase : earlyPhase k.state)
    (houtcome : ∀ r, k.outcome = some r → Unclaimed r) : Staged k := by
  unfold Staged
  rcases hphase with hstate | hstate
  · rw [hstate]
    exact houtcome
  · rw [hstate]
    exact fun r hr => (houtcome r hr).fits _ _

theorem staged_of_late (hphase : latePhase k.assignment.operation k.state)
    (houtcome : ∀ r, k.outcome = some r → Fits k.assignment k.before r) : Staged k := by
  unfold Staged
  rcases hphase with hstate | hstate | ⟨hstate, hop⟩
  · rw [hstate]
    exact houtcome
  · rw [hstate]
    exact houtcome
  · rw [hstate]
    exact ⟨houtcome, hop⟩

theorem stationHost_claim (s : Station W) :
    ((stationHost net assignment).claim s).2 = (claim net assignment).after s := rfl

theorem stationHost_authority (s : Station W) :
    ((stationHost net assignment).authority s).2 = (authority net).after s := rfl

theorem stationHost_save (k : Journal) (s : Station W) :
    ((stationHost net assignment).save k s).2 = (Work.files (saveJournal k)).after s := rfl

/-- The provider, the claim and the saves of a cycle keep the station busy. -/
theorem grants_stationHost (hissued : Issued jobs) (hjob : jobs assignment) :
    Grants (stationHost net assignment) assignment (Busy jobs base assignment)
      (Busy jobs base assignment) where
  before := {
    terminal := .inr rfl
    inspect := fun s hs => local_busy.world s _ hs
    authority := fun s hs => by
      rw [stationHost_authority]
      exact wp_iff_after.mp (local_busy.authority s hs)
    save := fun k s hk hphase houtcome hs => by
      subst hk
      rw [stationHost_save]
      exact wp_iff_after.mp (busy_save hissued ⟨hjob, staged_of_early hphase houtcome⟩ s hs) }
  behind := {
    terminal := .inr (.inl rfl)
    inspect := fun s hs => local_busy.world s _ hs
    authority := fun s hs => by
      rw [stationHost_authority]
      exact wp_iff_after.mp (local_busy.authority s hs)
    save := fun k s hk hphase houtcome hs => by
      subst hk
      rw [stationHost_save]
      exact wp_iff_after.mp (busy_save hissued ⟨hjob, staged_of_late hphase houtcome⟩ s hs) }
  apply s hs := local_busy.world s _ hs
  granted s hs _ := by
    rw [stationHost_claim]
    exact wp_iff_after.mp (local_busy.claim s hs)
  refused s hs _ := by
    rw [stationHost_claim]
    exact wp_iff_after.mp (local_busy.claim s hs)

variable {s : Station W} {I : Station W → Prop}

theorem inStage_of_retained {j : Journal} (hj : Retained jobs j) (hopen : j.state ≠ .terminal)
    (hs : I s) : InStage j.assignment I I (Run.start j s) := by
  have hstaged := hj.staged
  unfold Staged at hstaged
  unfold InStage
  rw [show (Run.start j s).journal = j from rfl]
  cases hstate : j.state with
  | prepared | claiming | intent =>
    rw [hstate] at hstaged
    exact ⟨rfl, hstaged, hs⟩
  | rebootWait =>
    rw [hstate] at hstaged
    exact ⟨⟨rfl, hstaged.1, hs⟩, hstaged.2⟩
  | terminal => exact absurd hstate hopen

theorem Ended.world {o : Option Receipt} {s : Run (Station W)} (hs : Ended assignment I I o s) :
    I s.world := by
  rcases hs with hs | hs
  · exact hs.world
  · exact hs.world

theorem Interrupted.world {s : Run (Station W)} (hs : Interrupted assignment I I s) :
    I s.world := by
  rcases hs with hs | hs
  · exact hs.1.world
  · exact hs.world

theorem wp_recoverRecord (hissued : Issued jobs) {record : Journal} (hrecord : Retained jobs record)
    (hopen : record.state ≠ .terminal) (hs : Busy jobs base record.assignment s) :
    wp (recoverRecord net record) (fun _ => Armed jobs base) (fun _ => Armed jobs base) s := by
  unfold recoverRecord
  rw [wp_bind, Work.wp_onJournal]
  refine wp_mono
    (wp_recover_stages (grants_stationHost hissued hrecord.issued)
      (inStage_of_retained hrecord hopen hs))
    (fun _ t ht => ?_) (fun _ _ ht => ht.world.toArmed)
  exact (Keeps.bind (local_armed.report _) fun _ => keeps_pure _) _ ht.world.toArmed

theorem wp_settleRecord (hissued : Issued jobs) {record : Journal} (hrecord : Retained jobs record)
    (hs : Busy jobs base record.assignment s) :
    wp (settleRecord net record) (fun _ => Armed jobs base) (fun _ => Armed jobs base) s := by
  have hend : ∀ record' : Journal, Keeps (Armed jobs base)
      (if record'.state ≠ .terminal then
          (pure (some ⟨true, "HGS recovery evidence was delivered."⟩) : Work W (Option CycleResult))
        else do
          report net record'
          pure none) := fun record' =>
    Keeps.ite (keeps_pure _)
      (Keeps.bind (local_armed.report _) fun _ => keeps_pure _)
  unfold settleRecord
  rw [wp_bind, wp_throwIf]
  refine ⟨fun _ => hs.toArmed, fun _ => ?_⟩
  dsimp only
  rw [wp_ite]
  refine ⟨fun hopen => ?_, fun _ => hend _ _ hs.toArmed⟩
  rw [wp_bind]
  exact wp_mono (wp_recoverRecord hissued hrecord hopen hs) (fun _ t ht => hend _ t ht)
    (fun _ _ ht => ht)

/-- A fresh journal of an assignment that every open fence permits is saved and executed. -/
theorem wp_executeOffered (hissued : Issued jobs) (hjob : jobs assignment) (hs : Armed jobs base s)
    (hpermitted : ∀ r, Open s.store.disk r → permittedWhileFenced r assignment = true) :
    wp (executeOffered net assignment) (fun _ => Armed jobs base) (fun _ => Armed jobs base)
      s := by
  have hfresh : Retained jobs { assignment } := ⟨hjob, fun r hr => nomatch hr⟩
  have hopen : ({ assignment } : Journal).state ≠ .terminal := fun h => nomatch h
  have hsavable : Savable jobs s.store.disk { assignment } :=
    ⟨hfresh, fun r hr => .inr ⟨hs.raised r hr, hpermitted r hr⟩, fun h => absurd h hopen,
      .inl hs.raised⟩
  unfold executeOffered
  rw [wp_bind, Work.wp_files]
  refine wp_mono
    (wp_and (wp_saveJournal hissued hs.kept hsavable) (wp_saveJournal_open hopen))
    (fun _ t ht => ?_) (fun _ t ht => ?_)
  swap
  · rw [ht.2]
    exact hs
  obtain ⟨⟨hsaved, hsound⟩, hdisk⟩ := ht
  rw [wp_bind, wp_modify, wp_bind, Work.wp_onJournal]
  -- the assignment is recorded with the files as the execution starts
  have hrecorded : Permitted base (s.executed ++ [(assignment, t.disk)]) := by
    intro b e hmem
    rcases List.mem_append.mp hmem with hmem | hmem
    · exact hs.permitted b e hmem
    · obtain ⟨rfl, rfl⟩ := Prod.mk.inj (List.mem_singleton.mp hmem)
      refine ⟨hsaved.kept.grown, fun r hr => ?_⟩
      rw [hdisk] at hr
      exact hpermitted r (open_withCurrent.mp hr)
  have hbusy : Busy jobs base assignment ({ s with
      store := t, deadline := 0, executed := s.executed ++ [(assignment, t.disk)] } : Station W) :=
    ⟨⟨⟨hsaved.kept, hrecorded⟩, hsaved.raised⟩, hsaved.currentIs hsound⟩
  refine wp_mono
    (wp_execute_stages (grants_stationHost hissued hjob) rfl (inStage_of_retained hfresh hopen hbusy))
    (fun _ u hu => ?_) (fun _ _ hu => hu.world.toArmed)
  exact (Keeps.bind (local_armed.report _) fun _ => keeps_pure _) _ hu.world.toArmed

theorem wp_applyRelease (hissued : Issued jobs) {response : Object}
    (hrelease : ∀ members, (Value.obj response).get? "hgs_reconciliation_release" =
      some (.obj members) → ∃ b, jobs b ∧ members = releaseMembers b.jobId b.planDigest)
    (hs : Armed jobs base s) :
    wp (applyRelease response) (fun _ => Armed jobs base) (fun _ => Armed jobs base) s := by
  unfold applyRelease
  cases hmember : (Value.obj response).get? "hgs_reconciliation_release" with
  | none => exact hs
  | some release =>
    dsimp only
    rw [wp_ite]
    refine ⟨fun _ => hs, fun _ => ?_⟩
    rw [wp_bind, wp_ofExcept]
    refine ⟨fun members hmembers => ?_, fun _ _ => hs⟩
    rw [Value.asObj_eq_ok.mp hmembers] at hmember
    obtain ⟨b, hb, rfl⟩ := hrelease members hmember
    rw [Work.wp_files]
    rcases exec_releaseFence hissued hb hs.kept.disk with ⟨hrun, _⟩ | ⟨d, hrun, rfl, hnone, _⟩
    · rw [wp_of_exec_ok hrun]
      exact hs
    · rw [wp_of_exec_ok hrun]
      refine ⟨⟨hs.kept.write (hs.kept.disk.withRelease hb hnone) fun _ _ h => h, hs.permitted⟩,
        fun r hr => hs.raised r (open_of_withRelease hnone hr)⟩

/-- Polling executes only what the open fence permits. -/
theorem wp_pollStep (hissued : Issued jobs) (hserves : Serves jobs net) (hs : Armed jobs base s) :
    wp (pollStep net) (fun _ => Armed jobs base) (fun _ => Armed jobs base) s := by
  unfold pollStep
  rw [wp_bind]
  refine Work.wp_call _ (fun response w hreply => ?_) (fun _ w _ => local_armed.world s w hs)
  rw [wp_bind]
  refine wp_mono (wp_applyRelease hissued
      (fun members hmember => hserves.releases _ _ _ _ members hreply hmember)
      (local_armed.world s w hs)) (fun _ t ht => ?_) (fun _ _ ht => ht)
  rw [wp_bind, Work.wp_files]
  refine wp_mono (wp_loadFence hissued ht.kept.disk) (fun fence _ hfence => ?_)
    (fun _ _ h => h.elim)
  obtain ⟨rfl, hfence⟩ := hfence
  rw [wp_bind, wp_ofExcept]
  refine ⟨fun offered hoffered => ?_, fun _ _ => ht⟩
  rw [wp_ite]
  refine ⟨fun _ => ht, fun _ => ?_⟩
  rw [wp_bind, wp_ofExcept]
  refine ⟨fun assignment hparse => ?_, fun _ _ => ht⟩
  have hjob : jobs assignment :=
    hserves.offers _ _ _ _ offered assignment hreply (Value.at!_eq_ok.mp hoffered) hparse
  rw [wp_bind, wp_throwIf]
  refine ⟨fun _ => ht, fun _ => ?_⟩
  rw [wp_ite]
  refine ⟨fun _ => ht, fun hallowed => ?_⟩
  have hpermitted : ∀ r, Open t.store.disk r → permittedWhileFenced r assignment = true := by
    intro r hr
    have hsome := (hfence r).mpr ⟨hr, ht.raised r hr⟩
    rw [hsome] at hallowed
    simpa using hallowed
  rw [wp_bind, Work.wp_files]
  refine wp_mono (wp_loadReceipt hissued hjob ht.kept.disk) (fun completed _ hcompleted => ?_)
    (fun _ _ h => h.elim)
  obtain ⟨rfl, _⟩ := hcompleted
  cases completed with
  | some completed =>
    exact (Keeps.bind (local_armed.report _) fun _ => keeps_pure _) _ ht
  | none => exact wp_executeOffered hissued hjob ht hpermitted

/-- A cycle keeps the files and executes only what the open fence permits, however it ends. -/
theorem guarded_runCycle (hissued : Issued jobs) (hserves : Serves jobs net)
    (hs : Guarded jobs base s) : Guarded jobs base ((runCycle net).after s) := by
  have hpoll : ∀ t, Armed jobs base t →
      wp (pollStep net) (fun _ => Guarded jobs base) (fun _ => Guarded jobs base) t :=
    fun t ht => wp_mono (wp_pollStep hissued hserves ht) (fun _ _ hu => hu.toGuarded)
      (fun _ _ hu => hu.toGuarded)
  have hcycle : wp (cycle net) (fun _ => Guarded jobs base) (fun _ => Guarded jobs base) s := by
    unfold cycle
    rw [wp_bind]
    refine Work.wp_call _ (fun reason w _ => ?_) (fun _ w _ => ⟨hs.kept, hs.permitted⟩)
    cases reason with
    | some result => exact ⟨hs.kept, hs.permitted⟩
    | none =>
      rw [wp_bind, Work.wp_files]
      refine wp_mono (wp_loadJournal hissued hs.kept) (fun o t ht => ?_)
        (fun _ _ h => h.elim)
      cases o with
      | none =>
        obtain ⟨rfl, hnone⟩ := ht.2 rfl
        exact hpoll _ ⟨⟨hs.kept, hs.permitted⟩, fun r hr => absurd hr (hnone r)⟩
      | some record =>
        have hloaded := ht.1 record rfl
        rw [wp_bind]
        refine wp_mono (wp_settleRecord hissued hloaded.retained
          ⟨⟨⟨hloaded.kept, hs.permitted⟩, hloaded.raised⟩, hloaded.current⟩)
          (fun result u hu => ?_) (fun _ _ hu => hu.toGuarded)
        cases result with
        | some result => exact hu.toGuarded
        | none => exact hpoll u hu
  refine wp_iff_after.mp ?_
  unfold runCycle
  rw [wp_tryCatch]
  exact wp_mono hcycle (fun _ _ ht => ht) (fun _ _ ht => ht)

end

/-! ## Runs of cycles -/

section
variable (jobs : Job → Prop)

/-- The files that cycles of an agent lead to, each served issued assignments: the files behind
any write of a cycle, whether the agent crashed there or went on. -/
inductive Cycles (d : Disk) : Disk → Prop
  | refl : Cycles d d
  | cycle {W : Type} {d' e : Disk} (net : Network W) (w : W) : Cycles d d' → Serves jobs net →
      e ∈ ((runCycle net).after (Station.start d' w)).store.history → Cycles d e

end

section
variable {jobs : Job → Prop}

variable {d : Disk}

theorem guarded_start {W : Type} {base : Disk} (hd : Inv jobs d) (hgrown : Grown base d) (w : W) :
    Guarded jobs base (Station.start d w) :=
  ⟨⟨hd, hgrown, fun _ h => nomatch h⟩, fun _ _ h => nomatch h⟩

theorem Cycles.kept (hissued : Issued jobs) {d' : Disk} (hd : Inv jobs d) (h : Cycles jobs d d') :
    Inv jobs d' ∧ Grown d d' := by
  induction h with
  | refl => exact ⟨hd, fun _ _ h => h⟩
  | cycle net w _ hserves hmem ih =>
    exact (guarded_runCycle hissued hserves (guarded_start ih.1 ih.2 w)).kept.history _ hmem

theorem loadFence_of_open (hissued : Issued jobs) (hd : Inv jobs d) {r : Journal} (hr : Open d r) :
    ∃ c t, loadJournal.exec ⟨d, []⟩ = (.ok (some c), t) ∧
      loadFence.exec t = (.ok (some r), t) := by
  have hkept : Kept jobs d ⟨d, []⟩ := ⟨hd, fun _ _ h => h, fun _ h => nomatch h⟩
  have hwp := wp_and (wp_loadJournal hissued hkept)
    (@keepsReleases_loadJournal d.releases ⟨d, []⟩ rfl)
  unfold wp at hwp
  rcases hrun : loadJournal.exec ⟨d, []⟩ with ⟨e | o, t⟩
  · rw [hrun] at hwp
    exact hwp.1.elim
  rw [hrun] at hwp
  obtain ⟨⟨hsome, hnone⟩, hreleases⟩ := hwp
  cases o with
  | none => exact absurd hr ((hnone rfl).2 r)
  | some c =>
    have hloaded := hsome c rfl
    have hopen : Open t.disk r := by
      obtain ⟨v, hv, hparse⟩ := hr.receipt
      refine ⟨⟨v, hloaded.kept.grown _ v hv, hparse⟩, hr.uncertain, ?_⟩
      rw [show t.disk.releases = d.releases from hreleases]
      exact hr.unreleased
    obtain ⟨o, hload, ho⟩ := exec_loadFence hissued hloaded.kept.disk
    rw [(ho r).mpr ⟨hopen, hloaded.raised r hopen⟩] at hload
    exact ⟨c, t, rfl, hload⟩

/-- Once the receipt of a step asks for reconciliation, then over every run of cycles, and every
crash between two writes, until the release of that step is stored: the next cycle loads its fence,
no cycle executes anything but an inspection of its node, and the release of any other issued step
changes nothing and does not throw. -/
theorem fence_until_released (hissued : Issued jobs) {d d' : Disk} (hd : Cycles jobs {} d)
    (hd' : Cycles jobs d d') {v : Value} {r : Journal}
    (hreceipt : d.receipts r.assignment.jobId = some v) (hparse : parseJournal v = .ok r)
    (huncertain : r.uncertain = true)
    (hunreleased : d'.releases r.assignment.jobId ≠ some r.release) :
    (∃ c t, loadJournal.exec ⟨d', []⟩ = (.ok (some c), t) ∧
      loadFence.exec t = (.ok (some r), t)) ∧
    (∀ (W : Type) (net : Network W) (w : W), Serves jobs net →
      ∀ b e, (b, e) ∈ ((runCycle net).after (Station.start d' w)).executed →
        e.releases r.assignment.jobId ≠ some r.release → permittedWhileFenced r b = true) ∧
    (∀ (W : Type) (s : Station W) (b : Job) (response : Object), s.store.disk = d' → jobs b →
      b ≠ r.assignment →
      (Value.obj response).get? "hgs_reconciliation_release" =
        some (.obj (releaseMembers b.jobId b.planDigest)) →
      (applyRelease response).exec s = (.ok (), s)) := by
  have hinv := (hd.kept hissued Inv.empty).1
  obtain ⟨hinv', hgrown⟩ := hd'.kept hissued hinv
  have hopen : Open d' r := ⟨⟨v, hgrown _ v hreceipt, hparse⟩, huncertain, hunreleased⟩
  refine ⟨loadFence_of_open hissued hinv' hopen, fun W net w hserves b e hmem hstill => ?_,
    fun W s b response hdisk hb hother hmember => ?_⟩
  · have hguarded := guarded_runCycle hissued hserves (guarded_start hinv' hgrown w)
    obtain ⟨hlater, hpermitted⟩ := hguarded.permitted b e hmem
    exact hpermitted r ⟨⟨v, hlater _ v hreceipt, hparse⟩, huncertain, hstill⟩
  · have hrun := exec_releaseFence_other hissued hb (s := s.store) (by rw [hdisk]; exact hinv')
      (by rw [hdisk]; exact hopen) hother
    unfold applyRelease
    rw [hmember]
    have hmembers : Value.obj (releaseMembers b.jobId b.planDigest) ≠ .null := fun h => nomatch h
    dsimp only
    rw [if_neg hmembers]
    show (((releaseFence (releaseMembers b.jobId b.planDigest)).exec s.store).1,
      { s with store := ((releaseFence (releaseMembers b.jobId b.planDigest)).exec s.store).2 }) = _
    rw [hrun]

end

/-! ## A run of one cycle -/

/-- What the sample control plane replies: the step is offered and granted, results are taken. -/
def sampleReply : Object :=
  [("accepted", .bool true), ("hgs_job", (sampleJob .reboot).toJson)]

/-- A network that offers one reboot, on a node where the write throws. -/
def writeThrows : Network Unit where
  inspect _ := fun w => (.ok (sampleObservation true), w)
  apply _ := fun w => (.error providerFailed, w)
  deviceUri := (sampleJob .reboot).deviceUri
  agentVersion := ""
  awaits := fun w => (.ok none, w)
  exchange _ := fun w => (.ok sampleReply, w)
  standing := fun w => (.ok true, w)
  now _ := 0
  tick _ := 0

/-- The receipt that the cycle leaves. -/
def sampleUncertain : Journal where
  assignment := sampleJob .reboot
  state := .terminal
  before := sampleObservation true
  outcome := some ⟨.reconciliationRequired, "hgs_reconciliation_required", []⟩

/-- The files behind every write of the cycle. -/
def sampleHistory : List Disk :=
  ((runCycle writeThrows).after (Station.start {} ())).store.history

/-- Behind the fourth write the receipt is there, and the fence is not. -/
def CrashedUnfenced (d : Disk) : Bool :=
  d.receipts sampleUuid == some (journalDocument sampleUncertain) && d.fence == none &&
    d.releases sampleUuid == none

theorem issued_sample : Issued (· = sampleJob .reboot) where
  valid a ha := by
    subst ha
    decide +kernel
  key a b ha hb _ := ha.trans hb.symm

theorem serves_writeThrows : Serves (· = sampleJob .reboot) writeThrows where
  offers request w reply w' v a hreply hmember hparse := by
    cases hreply
    cases hmember
    have hread := Job.read_toJson a
    rw [← (parseJob_eq_ok.mp hparse).1, Job.read_toJson] at hread
    exact (Option.some.inj hread).symm
  releases request w reply w' members hreply hmember := by
    cases hreply
    cases hmember

/-- The agent crashed between the receipt and the fence of the sample step: the next cycle loads the
fence. -/
theorem fence_until_released_sample : ∃ d, Cycles (· = sampleJob .reboot) {} d ∧ d.fence = none ∧
    ∃ c t, loadJournal.exec ⟨d, []⟩ = (.ok (some c), t) ∧
      loadFence.exec t = (.ok (some sampleUncertain), t) := by
  have hcrash : (sampleHistory[3]?.any CrashedUnfenced) = true := by decide +kernel
  obtain ⟨d, hd, hcrashed⟩ := (Option.any_eq_true _ _).mp hcrash
  unfold CrashedUnfenced at hcrashed
  simp only [Bool.and_eq_true, beq_iff_eq] at hcrashed
  obtain ⟨⟨hreceipt, hfence⟩, hrelease⟩ := hcrashed
  have hcycles : Cycles (· = sampleJob .reboot) {} d :=
    .cycle writeThrows () .refl serves_writeThrows (List.mem_of_getElem? hd)
  have hparse : parseJournal (journalDocument sampleUncertain) = .ok sampleUncertain := by
    decide +kernel
  have hunreleased : d.releases sampleUuid ≠ some sampleUncertain.release := by
    rw [hrelease]
    exact fun h => nomatch h
  exact ⟨d, hcycles, hfence, (fence_until_released issued_sample hcycles .refl hreceipt hparse
    (by decide +kernel) hunreleased).1⟩

end Ipms.Agent.Hgs
