import Ipms.Agent.Hgs.Cycle
import Ipms.Agent.Hgs.Outcomes

/-
  Ipms.Agent.Hgs.LocalFence

  The fence of a step that asks for reconciliation, over every run of cycles
  and every crash between two writes: it is open from the receipt on until the
  release of that very step is stored, and meanwhile nothing is executed but an
  inspection of the same node.
-/

namespace Ipms.Agent.Hgs

open Ipms.Lib Ipms.ManagementJson Prog Journal

/-! ## The control plane of a node -/

/-- The assignments a control plane issues: each is valid, and its identifier is its key. -/
structure Issued (jobs : Job → Prop) : Prop where
  valid : ∀ a, jobs a → a.valid = true
  key : ∀ a b, jobs a → jobs b → a.jobId = b.jobId → a = b

/-- The replies of an exchange offer and release issued assignments only. -/
structure Serves {W : Type} (jobs : Job → Prop) (net : Network W) : Prop where
  offers : ∀ request w reply w' v a, net.exchange request w = (.ok reply, w') →
    (Value.obj reply).get? "hgs_job" = some v → parseJob v = .ok a → jobs a
  releases : ∀ request w reply w' members, net.exchange request w = (.ok reply, w') →
    (Value.obj reply).get? "hgs_reconciliation_release" = some (.obj members) →
      ∃ b, jobs b ∧ members = releaseMembers b.jobId b.planDigest

/-! ## Open fences -/

/-- A receipt that asks for reconciliation, and whose release is not stored. -/
structure Open (d : Disk) (r : Journal) : Prop where
  receipt : ∃ v, d.receipts r.assignment.jobId = some v ∧ parseJournal v = .ok r
  uncertain : r.uncertain = true
  unreleased : d.releases r.assignment.jobId ≠ some r.release

/-- The fence file holds a journal. -/
def Fenced (d : Disk) (r : Journal) : Prop := d.fence = some (journalDocument r)

/-- Every open receipt is in the fence file. -/
def Raised (d : Disk) : Prop := ∀ r, Open d r → Fenced d r

/-- The current journal is of an assignment. -/
def CurrentIs (d : Disk) (assignment : Job) : Prop :=
  ∃ v c, d.current = some v ∧ parseJournal v = .ok c ∧ c.assignment = assignment

/-- What the phase of a journal says of its outcome. -/
def Staged (j : Journal) : Prop :=
  match j.state with
  | .prepared | .claiming => ∀ r, j.outcome = some r → Unclaimed r
  | .intent => ∀ r, j.outcome = some r → Fits j.assignment j.before r
  | .rebootWait => (∀ r, j.outcome = some r → Fits j.assignment j.before r) ∧
      j.assignment.operation = .reboot
  | .terminal => ∀ r, j.outcome = some r → Fits j.assignment j.before r

section
variable (jobs : Job → Prop)

/-- A journal as the agent stores it. -/
structure Retained (j : Journal) : Prop where
  issued : jobs j.assignment
  staged : Staged j

/-- What holds of the files after every write. -/
structure Inv (d : Disk) : Prop where
  current : ∀ v, d.current = some v → ∃ j, parseJournal v = .ok j ∧ Retained jobs j
  receipts : ∀ id v, d.receipts id = some v → ∃ j, parseJournal v = .ok j ∧ Retained jobs j ∧
    j.assignment.jobId = id ∧ j.state = .terminal
  fence : ∀ v, d.fence = some v → ∃ r, parseJournal v = .ok r ∧ r.uncertain = true ∧
    d.receipts r.assignment.jobId = some v
  releases : ∀ id v, d.releases id = some v → ∃ b, jobs b ∧ b.jobId = id ∧
    v = .obj (releaseMembers b.jobId b.planDigest)
  opened : ∀ r, Open d r → ∃ v c, d.current = some v ∧ parseJournal v = .ok c ∧
    (c.assignment = r.assignment ∨ Fenced d r ∧ permittedWhileFenced r c.assignment = true)

/-- Receipts are never replaced or removed. -/
def Grown (d d' : Disk) : Prop :=
  ∀ id v, d.receipts id = some v → d'.receipts id = some v

/-- The files after every write so far, from some files on. -/
structure Kept (base : Disk) (s : Storage) : Prop where
  disk : Inv jobs s.disk
  grown : Grown base s.disk
  history : ∀ d ∈ s.history, Inv jobs d ∧ Grown base d

end

/-! ## Journals -/

variable {v : Value}

theorem parseJournal_document {j : Journal} (h : parseJournal v = .ok j) :
    v = journalDocument j := (parseJournal_eq_ok.mp h).1

theorem Retained.writes {jobs : Job → Prop} {j : Journal} (hj : Retained jobs j)
    (hu : j.uncertain = true) : j.assignment.operation.readOnly = false := by
  unfold uncertain at hu
  rw [Bool.and_eq_true, beq_iff_eq, Option.any_eq_true] at hu
  obtain ⟨hstate, r, hr, hstatus⟩ := hu
  have hfits := hj.staged
  unfold Staged at hfits
  rw [hstate] at hfits
  rw [← Bool.not_eq_true]
  intro hreads
  have hstatus := eq_of_beq hstatus
  rcases (hfits r hr).readOnly hreads with hs | hs
  · rw [hstatus] at hs
    cases hs
  · rw [hstatus] at hs
    cases hs

variable {r : Journal} {a : Job}

theorem readOnly_of_permitted (h : permittedWhileFenced r a = true) :
    a.operation.readOnly = true := by
  simp only [permittedWhileFenced, Bool.and_eq_true, beq_iff_eq] at h
  rw [h.1.1.1]
  rfl

section
variable {jobs : Job → Prop} {base : Disk}

theorem Inv.empty : Inv jobs {} where
  current _ hv := nomatch hv
  receipts _ _ hv := nomatch hv
  fence _ hv := nomatch hv
  releases _ _ hv := nomatch hv
  opened _ hr := by
    obtain ⟨v, hv, _⟩ := hr.receipt
    cases hv

variable {d : Disk}

theorem Inv.retained (hd : Inv jobs d) (hr : Open d r) : Retained jobs r ∧ r.state = .terminal := by
  obtain ⟨v, hv, hparse⟩ := hr.receipt
  obtain ⟨j, hj, hretained, _, hterminal⟩ := hd.receipts _ v hv
  rw [hparse] at hj
  cases hj
  exact ⟨hretained, hterminal⟩

theorem open_unique {r' : Journal} (hr : Open d r) (hr' : Open d r')
    (hsame : r.assignment.jobId = r'.assignment.jobId) : r = r' := by
  obtain ⟨v, hv, hparse⟩ := hr.receipt
  obtain ⟨v', hv', hparse'⟩ := hr'.receipt
  rw [hsame, hv'] at hv
  cases hv
  rw [hparse] at hparse'
  exact Except.ok.inj hparse'

theorem Inv.admits (hd : Inv jobs d) (ha : CurrentIs d a) (hr : Open d r) :
    a = r.assignment ∨ Fenced d r ∧ permittedWhileFenced r a = true := by
  obtain ⟨v, c, hv, hc, rfl⟩ := ha
  obtain ⟨v', c', hv', hc', hcase⟩ := hd.opened r hr
  rw [hv] at hv'
  cases hv'
  rw [hc] at hc'
  cases hc'
  exact hcase

theorem Inv.open_of_current (hd : Inv jobs d) (ha : CurrentIs d a)
    (hwrites : a.operation.readOnly = false) (hr : Open d r) : a = r.assignment := by
  rcases hd.admits ha hr with hsame | ⟨_, hpermitted⟩
  · exact hsame
  · exact absurd (hwrites.symm.trans (readOnly_of_permitted hpermitted)) (by decide)

/-! ## The writes -/

theorem open_withCurrent : Open (d.withCurrent v) r ↔ Open d r :=
  ⟨fun h => ⟨h.receipt, h.uncertain, h.unreleased⟩, fun h => ⟨h.receipt, h.uncertain, h.unreleased⟩⟩

theorem open_withFence : Open (d.withFence v) r ↔ Open d r :=
  ⟨fun h => ⟨h.receipt, h.uncertain, h.unreleased⟩, fun h => ⟨h.receipt, h.uncertain, h.unreleased⟩⟩

variable {k : Journal}

theorem Inv.withCurrent (hd : Inv jobs d) (hk : Retained jobs k) (hsound : k.Sound)
    (hadmits : ∀ r, Open d r →
      k.assignment = r.assignment ∨ Fenced d r ∧ permittedWhileFenced r k.assignment = true) :
    Inv jobs (d.withCurrent (journalDocument k)) where
  current v hv := by
    cases hv
    exact ⟨k, closed_iff.mpr hsound, hk⟩
  receipts := hd.receipts
  fence := hd.fence
  releases := hd.releases
  opened r hr := ⟨_, k, rfl, closed_iff.mpr hsound, hadmits r (open_withCurrent.mp hr)⟩

variable {id : String}

theorem receipts_withReceipt_ne {id' : String} (h : id' ≠ id) :
    (d.withReceipt id v).receipts id' = d.receipts id' := Function.update_of_ne h _ _

theorem receipts_withReceipt_self :
    (d.withReceipt id v).receipts id = some v := Function.update_self _ _ _

/-- Creating the receipt of the current assignment. -/
theorem Inv.withReceipt (hd : Inv jobs d) (hk : Retained jobs k) (hsound : k.Sound)
    (hterminal : k.state = .terminal) (hcurrent : CurrentIs d k.assignment)
    (hnone : d.receipts k.assignment.jobId = none) :
    Inv jobs (d.withReceipt k.assignment.jobId (journalDocument k)) := by
  have hparse : parseJournal (journalDocument k) = .ok k := closed_iff.mpr hsound
  refine ⟨hd.current, fun id v hv => ?_, fun v hv => ?_, hd.releases, fun r hr => ?_⟩
  · by_cases hid : id = k.assignment.jobId
    · subst hid
      rw [receipts_withReceipt_self] at hv
      cases hv
      exact ⟨k, hparse, hk, rfl, hterminal⟩
    · rw [receipts_withReceipt_ne hid] at hv
      exact hd.receipts id v hv
  · obtain ⟨r, hr, hu, hreceipt⟩ := hd.fence v hv
    refine ⟨r, hr, hu, ?_⟩
    have hid : r.assignment.jobId ≠ k.assignment.jobId := by
      intro heq
      rw [heq, hnone] at hreceipt
      cases hreceipt
    rw [receipts_withReceipt_ne hid]
    exact hreceipt
  · by_cases hid : r.assignment.jobId = k.assignment.jobId
    · obtain ⟨v, hv, hr'⟩ := hr.receipt
      rw [hid, receipts_withReceipt_self] at hv
      cases hv
      rw [hparse] at hr'
      cases hr'
      obtain ⟨v, c, hv, hc, hsame⟩ := hcurrent
      exact ⟨v, c, hv, hc, .inl hsame⟩
    · obtain ⟨v, hv, hr'⟩ := hr.receipt
      rw [receipts_withReceipt_ne hid] at hv
      exact hd.opened r ⟨⟨v, hv, hr'⟩, hr.uncertain, hr.unreleased⟩

theorem Inv.withFence (hd : Inv jobs d) (hk : Retained jobs k) (hsound : k.Sound)
    (hu : k.uncertain = true) (hcurrent : CurrentIs d k.assignment)
    (hreceipt : d.receipts k.assignment.jobId = some (journalDocument k)) :
    Inv jobs (d.withFence (journalDocument k)) where
  current := hd.current
  receipts := hd.receipts
  fence v hv := by
    cases hv
    exact ⟨k, closed_iff.mpr hsound, hu, hreceipt⟩
  releases := hd.releases
  opened r hr := by
    have hsame := hd.open_of_current hcurrent (hk.writes hu) (open_withFence.mp hr)
    obtain ⟨v, c, hv, hc, hca⟩ := hcurrent
    exact ⟨v, c, hv, hc, .inl (hca.trans hsame)⟩

theorem open_of_withRelease (hnone : d.releases id = none) (hr : Open (d.withRelease id v) r) :
    Open d r := by
  refine ⟨hr.receipt, hr.uncertain, fun hreleased => hr.unreleased ?_⟩
  have hid : r.assignment.jobId ≠ id := by
    rintro rfl
    rw [hnone] at hreleased
    cases hreleased
  rw [show (d.withRelease id v).releases r.assignment.jobId = d.releases _ from
    Function.update_of_ne hid _ _]
  exact hreleased

variable {b : Job}

theorem Inv.withRelease (hd : Inv jobs d) (hb : jobs b) (hnone : d.releases b.jobId = none) :
    Inv jobs (d.withRelease b.jobId (.obj (releaseMembers b.jobId b.planDigest))) where
  current := hd.current
  receipts := hd.receipts
  fence := hd.fence
  releases id v hv := by
    by_cases hid : id = b.jobId
    · subst hid
      rw [show (d.withRelease b.jobId _).releases b.jobId = some _ from Function.update_self _ _ _]
        at hv
      cases hv
      exact ⟨b, hb, rfl, rfl⟩
    · rw [show (d.withRelease b.jobId _).releases id = d.releases id from
        Function.update_of_ne hid _ _] at hv
      exact hd.releases id v hv
  opened r hr := hd.opened r (open_of_withRelease hnone hr)

theorem grown_withReceipt (hnone : d.receipts id = none) : Grown d (d.withReceipt id v) := by
  intro id' v' hv'
  have hid : id' ≠ id := by
    rintro rfl
    rw [hnone] at hv'
    cases hv'
  rw [receipts_withReceipt_ne hid]
  exact hv'

variable {s : Storage}

theorem Kept.write (hs : Kept jobs base s) (hd : Inv jobs d) (hgrown : Grown s.disk d) :
    Kept jobs base ⟨d, s.history ++ [d]⟩ := by
  have hbase : Grown base d := fun id v hv => hgrown id v (hs.grown id v hv)
  refine ⟨hd, hbase, fun e he => ?_⟩
  rcases List.mem_append.mp he with he | he
  · exact hs.history e he
  · rw [List.mem_singleton.mp he]
    exact ⟨hd, hbase⟩

/-- What `load_hgs_fence` returns: the open receipt that the fence file holds. -/
theorem wp_loadFence (hissued : Issued jobs) (hs : Inv jobs s.disk) :
    wp loadFence (fun o t => t = s ∧ ∀ r, o = some r ↔ Open s.disk r ∧ Fenced s.disk r)
      (fun _ _ => False) s := by
  unfold loadFence
  rw [wp_bind, Files.wp_disk]
  cases hfence : s.disk.fence with
  | none =>
    refine ⟨rfl, fun r => ⟨fun h => (nomatch h), fun h => ?_⟩⟩
    have hfenced : s.disk.fence = some (journalDocument r) := h.2
    rw [hfence] at hfenced
    cases hfenced
  | some v =>
    obtain ⟨record, hparse, hu, hreceipt⟩ := hs.fence v hfence
    have hdocument := parseJournal_document hparse
    dsimp only
    rw [wp_bind, hparse, wp_ofExcept_ok, wp_bind, wp_throwIf]
    refine ⟨fun hno => absurd (hno.symm.trans hu) (by decide), fun _ => ?_⟩
    have hsame : ∀ r, Open s.disk r → Fenced s.disk r → r = record := by
      intro r hr hfenced
      unfold Fenced at hfenced
      rw [hfence, hdocument] at hfenced
      have hclosed : parseJournal (journalDocument r) = .ok r := by
        obtain ⟨v', _, hv'⟩ := hr.receipt
        rw [← parseJournal_document hv']
        exact hv'
      rw [← Option.some.inj hfenced, ← hdocument, hparse] at hclosed
      exact (Except.ok.inj hclosed).symm
    cases hrelease : s.disk.releases record.assignment.jobId with
    | none =>
      refine ⟨rfl, fun r => ⟨fun h => ?_, fun h => ?_⟩⟩
      · cases h
        refine ⟨⟨⟨v, hreceipt, hparse⟩, hu, ?_⟩, ?_⟩
        · rw [hrelease]
          exact fun h => nomatch h
        · unfold Fenced
          rw [hfence, hdocument]
      · rw [hsame r h.1 h.2]
    | some release =>
      obtain ⟨b, hb, hid, hbrelease⟩ := hs.releases _ release hrelease
      obtain ⟨j, hj, hretained, _, _⟩ := hs.receipts _ v hreceipt
      rw [hparse] at hj
      cases hj
      have hkey : b = record.assignment := hissued.key _ _ hb hretained.issued hid
      have hrecord : release = record.release := by
        rw [hbrelease, hkey]
        rfl
      dsimp only
      rw [wp_bind, wp_throwIf]
      refine ⟨fun hne => hne hrecord, fun _ => ⟨rfl, fun r => ⟨fun h => (nomatch h), fun h => ?_⟩⟩⟩
      refine absurd ?_ h.1.unreleased
      rw [hsame r h.1 h.2, hrelease, hrecord]

theorem exec_loadFence (hissued : Issued jobs) (hs : Inv jobs s.disk) :
    ∃ o, loadFence.exec s = (.ok o, s) ∧ ∀ r, o = some r ↔ Open s.disk r ∧ Fenced s.disk r := by
  have hwp := wp_loadFence hissued hs
  unfold wp at hwp
  rcases hrun : loadFence.exec s with ⟨e | o, t⟩
  · rw [hrun] at hwp
    exact hwp.elim
  · rw [hrun] at hwp
    obtain ⟨rfl, ho⟩ := hwp
    exact ⟨o, rfl, ho⟩

/-! ## Saving -/

/-- What a save needs: every open fence admits the journal, and a terminal journal is of the
current assignment. -/
structure Savable (jobs : Job → Prop) (d : Disk) (k : Journal) : Prop where
  retained : Retained jobs k
  admitted : ∀ r, Open d r →
    k.assignment = r.assignment ∨ Fenced d r ∧ permittedWhileFenced r k.assignment = true
  current : k.state = .terminal → CurrentIs d k.assignment
  raised : Raised d ∨ k.uncertain = true

/-- What a save leaves. -/
structure Saved (jobs : Job → Prop) (base : Disk) (k : Journal) (s : Storage) : Prop where
  kept : Kept jobs base s
  raised : Raised s.disk
  current : s.disk.current = some (journalDocument k)

theorem Saved.currentIs (hs : Saved jobs base k s) (hk : k.Sound) : CurrentIs s.disk k.assignment :=
  ⟨_, k, hs.current, closed_iff.mpr hk, rfl⟩

/-- The receipt of a terminal journal is there behind `saveReceipt`. -/
theorem wp_saveReceipt (hk : Retained jobs k) (hsound : k.Sound) (hterminal : k.state = .terminal)
    (hs : Kept jobs base s) (hcurrent : CurrentIs s.disk k.assignment) : wp (saveReceipt k)
      (fun _ t => Kept jobs base t ∧ CurrentIs t.disk k.assignment ∧
        t.disk.receipts k.assignment.jobId = some (journalDocument k) ∧
        (Raised s.disk → ∀ r, Open t.disk r → Fenced t.disk r ∨ r = k))
      (fun _ t => t = s ∧ s.disk.receipts k.assignment.jobId ≠ some (journalDocument k)) s := by
  unfold saveReceipt
  dsimp only
  rw [wp_bind, Files.wp_disk]
  cases hreceipt : s.disk.receipts k.assignment.jobId with
  | some existing =>
    dsimp only
    rw [wp_throwIf]
    refine ⟨fun hother => ⟨rfl, ?_⟩,
      fun hsame => ⟨hs, hcurrent, ?_, fun hraised r hr => .inl (hraised r hr)⟩⟩
    · exact fun h => hother (Option.some.inj h)
    · rw [hreceipt, not_ne_iff.mp hsame]
  | none =>
    dsimp only
    rw [Files.wp_write]
    refine ⟨hs.write (hs.disk.withReceipt hk hsound hterminal hcurrent hreceipt)
      (grown_withReceipt hreceipt), hcurrent,
      receipts_withReceipt_self, fun hraised r hr => ?_⟩
    by_cases hid : r.assignment.jobId = k.assignment.jobId
    · obtain ⟨v, hv, hr'⟩ := hr.receipt
      rw [hid, receipts_withReceipt_self] at hv
      cases hv
      have hclosed : parseJournal (journalDocument k) = .ok k := closed_iff.mpr hsound
      rw [hclosed] at hr'
      exact .inr (Except.ok.inj hr').symm
    · obtain ⟨v, hv, hr'⟩ := hr.receipt
      rw [receipts_withReceipt_ne hid] at hv
      exact .inl (hraised r ⟨⟨v, hv, hr'⟩, hr.uncertain, hr.unreleased⟩)

theorem wp_saveFence (hissued : Issued jobs) (hk : Retained jobs k) (hsound : k.Sound)
    (hu : k.uncertain = true) (hs : Kept jobs base s) (hcurrent : CurrentIs s.disk k.assignment)
    (hreceipt : s.disk.receipts k.assignment.jobId = some (journalDocument k)) :
    wp (saveFence k)
      (fun _ t => Kept jobs base t ∧ CurrentIs t.disk k.assignment ∧ Raised t.disk)
      (fun _ _ => False) s := by
  have hclosed : parseJournal (journalDocument k) = .ok k := closed_iff.mpr hsound
  have honly : ∀ r, Open s.disk r → k.assignment = r.assignment :=
    fun r hr => hs.disk.open_of_current hcurrent (hk.writes hu) hr
  unfold saveFence
  rw [wp_bind]
  refine wp_mono (wp_loadFence hissued hs.disk) (fun o t ht => ?_) (fun _ _ h => h.elim)
  obtain ⟨rfl, ho⟩ := ht
  rw [wp_bind, wp_throwIf]
  refine ⟨fun hother => ?_, fun _ => ?_⟩
  · obtain ⟨r, hr, hne⟩ := (Option.any_eq_true _ _).mp hother
    exact of_decide_eq_true hne (honly r ((ho r).mp hr).1).symm
  · rw [Files.wp_write]
    refine ⟨hs.write (hs.disk.withFence hk hsound hu hcurrent hreceipt) fun _ _ h => h, hcurrent,
      fun r hr => ?_⟩
    have hr := open_withFence.mp hr
    obtain ⟨v, hv, hparse⟩ := hr.receipt
    rw [← honly r hr, hreceipt] at hv
    cases hv
    rw [hclosed] at hparse
    cases hparse
    rfl

/-- A save keeps the files and raises the fence; a save that throws leaves them as they were, and
the save of a receipt that is there never throws. -/
theorem wp_saveJournal (hissued : Issued jobs) {k : Journal} {s : Storage} (hs : Kept jobs base s)
    (hk : Savable jobs s.disk k) :
    wp (saveJournal k) (fun _ t => Saved jobs base k t ∧ k.Sound)
      (fun _ t => t = s ∧
        (k.Sound → s.disk.receipts k.assignment.jobId ≠ some (journalDocument k))) s := by
  unfold saveJournal
  dsimp only
  rw [wp_bind, wp_ofExcept]
  refine ⟨fun j hj => ?_, fun e he => ⟨rfl, fun hsound => ?_⟩⟩
  swap
  · rw [closed_iff.mpr hsound] at he
    cases he
  have hsound : k.Sound := sound_of_parse hj
  have hclosed : parseJournal (journalDocument k) = .ok k := closed_iff.mpr hsound
  -- the write of the current journal ends every path
  have hwrite : ∀ t, Kept jobs base t → Raised t.disk → (∀ r, Open t.disk r → k.assignment = r.assignment ∨
        Fenced t.disk r ∧ permittedWhileFenced r k.assignment = true) →
      wp (Files.write fun d => d.withCurrent (journalDocument k))
        (fun _ t => Saved jobs base k t ∧ k.Sound)
        (fun _ t => t = s ∧
          (k.Sound → s.disk.receipts k.assignment.jobId ≠ some (journalDocument k))) t := by
    intro t ht hraised hadmits
    rw [Files.wp_write]
    refine ⟨⟨ht.write (ht.disk.withCurrent hk.retained hsound hadmits) fun _ _ h => h,
      fun r hr => ?_, rfl⟩, hsound⟩
    exact hraised r (open_withCurrent.mp hr)
  rw [wp_ite]
  refine ⟨fun hterminal => ?_, fun hopen => ?_⟩
  · have hcurrent := hk.current hterminal
    rw [wp_bind]
    refine wp_mono (wp_saveReceipt hk.retained hsound hterminal hs hcurrent)
      (fun _ t ht => ?_) (fun _ _ ht => ⟨ht.1, fun _ => ht.2⟩)
    obtain ⟨hkept, hcurrent, hreceipt, hraised⟩ := ht
    rw [wp_ite]
    refine ⟨fun hu => ?_, fun hno => ?_⟩
    · rw [wp_bind]
      refine wp_mono (wp_saveFence hissued hk.retained hsound hu hkept hcurrent hreceipt)
        (fun _ u hu' => ?_) (fun _ _ h => h.elim)
      exact hwrite u hu'.1 hu'.2.2 fun r hr => hu'.1.disk.admits hu'.2.1 hr
    · have hstill : Raised t.disk := by
        intro r hr
        rcases hraised (hk.raised.resolve_right hno) r hr with hfenced | rfl
        · exact hfenced
        · exact absurd hr.uncertain hno
      exact hwrite t hkept hstill fun r hr => hkept.disk.admits hcurrent hr
  · have hraised : Raised s.disk := by
      refine hk.raised.resolve_right fun hu => hopen ?_
      unfold uncertain at hu
      rw [Bool.and_eq_true, beq_iff_eq] at hu
      exact hu.1
    exact hwrite s hs hraised hk.admitted

section
variable {releases : String → Option Value}

/-- Nothing but a release touches the releases. -/
def KeepsReleases (releases : String → Option Value) (s : Storage) : Prop :=
  s.disk.releases = releases

theorem keepsReleases_loadFence : Keeps (KeepsReleases releases) loadFence := by
  intro s hs
  unfold loadFence
  rw [wp_bind, Files.wp_disk]
  cases s.disk.fence with
  | none => exact hs
  | some v =>
    refine (keeps_ofExcept _).bind (fun record => ?_) s hs
    refine (keeps_throwIf _).bind fun _ => ?_
    cases s.disk.releases record.assignment.jobId with
    | none => exact keeps_pure _
    | some release => exact (keeps_throwIf _).bind fun _ => keeps_pure _

theorem keepsReleases_saveReceipt (k : Journal) :
    Keeps (KeepsReleases releases) (saveReceipt k) := by
  intro s hs
  unfold saveReceipt
  dsimp only
  rw [wp_bind, Files.wp_disk]
  cases s.disk.receipts k.assignment.jobId with
  | none => exact hs
  | some existing => exact keeps_throwIf _ s hs

theorem keepsReleases_saveJournal (k : Journal) :
    Keeps (KeepsReleases releases) (saveJournal k) := by
  refine (keeps_ofExcept _).bind fun _ => ?_
  refine Keeps.ite ((keepsReleases_saveReceipt k).bind fun _ => ?_) fun _ hs => hs
  refine Keeps.ite (Keeps.bind ?_ fun _ _ hs => hs) fun _ hs => hs
  exact keepsReleases_loadFence.bind fun _ => (keeps_throwIf _).bind fun _ _ hs => hs

theorem keepsReleases_loadJournal : Keeps (KeepsReleases releases) loadJournal := by
  intro s hs
  unfold loadJournal
  rw [wp_bind, Files.wp_disk]
  cases s.disk.current with
  | none => exact hs
  | some v =>
    refine (keeps_ofExcept _).bind (fun record => ?_) s hs
    refine Keeps.bind ?_ fun o => ?_
    · intro t ht
      unfold loadReceipt
      rw [wp_bind, Files.wp_disk]
      cases t.disk.receipts record.assignment.jobId with
      | none => exact ht
      | some document =>
        exact ((keeps_ofExcept _).bind fun _ => (keeps_throwIf _).bind fun _ =>
          keeps_pure _) t ht
    · cases o with
      | none => exact keeps_pure _
      | some receipt =>
        exact Keeps.ite ((keepsReleases_saveJournal receipt).bind fun _ => keeps_pure _)
          (keeps_pure _)

end

theorem wp_saveJournal_open (hopen : k.state ≠ .terminal) :
    wp (saveJournal k) (fun _ t => t.disk = s.disk.withCurrent (journalDocument k))
      (fun _ t => t = s) s := by
  unfold saveJournal
  dsimp only
  rw [wp_bind, wp_ofExcept]
  refine ⟨fun _ _ => ?_, fun _ _ => rfl⟩
  rw [wp_ite]
  exact ⟨fun hterminal => absurd hterminal hopen, fun _ => rfl⟩

theorem wp_loadReceipt (hissued : Issued jobs) {assignment : Job} (hjob : jobs assignment)
    (hs : Inv jobs s.disk) : wp (loadReceipt assignment)
      (fun o t => t = s ∧ (o = none → s.disk.receipts assignment.jobId = none) ∧
        ∀ k, o = some k → Retained jobs k ∧ k.Sound ∧ k.assignment = assignment ∧
          k.state = .terminal ∧
          s.disk.receipts assignment.jobId = some (journalDocument k))
      (fun _ _ => False) s := by
  unfold loadReceipt
  rw [wp_bind, Files.wp_disk]
  cases hreceipt : s.disk.receipts assignment.jobId with
  | none => exact ⟨rfl, fun _ => rfl, fun _ hk => nomatch hk⟩
  | some v =>
    dsimp only
    obtain ⟨j, hparse, hretained, hid, hterminal⟩ := hs.receipts _ v hreceipt
    have hsame : j.assignment = assignment := hissued.key _ _ hretained.issued hjob hid
    rw [wp_bind, hparse, wp_ofExcept_ok, wp_bind, wp_throwIf]
    refine ⟨fun hother => ?_, fun _ => ⟨rfl, fun h => (nomatch h), fun k hk => ?_⟩⟩
    · rcases hother with hother | hother
      · exact hother hsame
      · exact hother hterminal
    · cases hk
      exact ⟨hretained, (parseJournal_eq_ok.mp hparse).2, hsame, hterminal,
        congrArg some (parseJournal_document hparse)⟩

/-- What is loaded after any crash: the current journal or its receipt, and the fence is raised. -/
structure Loaded (jobs : Job → Prop) (base : Disk) (k : Journal) (s : Storage) : Prop where
  kept : Kept jobs base s
  raised : Raised s.disk
  retained : Retained jobs k
  current : CurrentIs s.disk k.assignment

theorem Inv.raised_or (hd : Inv jobs d) {c : Journal} (hv : d.current = some v)
    (hc : parseJournal v = .ok c) (hr : Open d r) :
    Fenced d r ∨ c.assignment = r.assignment ∧ d.receipts c.assignment.jobId =
      some (journalDocument r) := by
  rcases hd.admits ⟨v, c, hv, hc, rfl⟩ hr with hsame | ⟨hfenced, _⟩
  · obtain ⟨w, hw, hparse⟩ := hr.receipt
    rw [hsame, hw, parseJournal_document hparse]
    exact .inr ⟨rfl, rfl⟩
  · exact .inl hfenced

/-- Loading the retained journal raises whatever fence a crash left lowered, and never throws. -/
theorem wp_loadJournal (hissued : Issued jobs) {s : Storage} (hs : Kept jobs base s) :
    wp loadJournal
      (fun o t => (∀ k, o = some k → Loaded jobs base k t) ∧
        (o = none → t = s ∧ ∀ r, ¬Open s.disk r))
      (fun _ _ => False) s := by
  unfold loadJournal
  rw [wp_bind, Files.wp_disk]
  cases hcurrent : s.disk.current with
  | none =>
    refine ⟨fun _ h => (nomatch h), fun _ => ⟨rfl, fun r hr => ?_⟩⟩
    obtain ⟨v, _, hv, _⟩ := hs.disk.opened r hr
    rw [hcurrent] at hv
    cases hv
  | some v =>
    obtain ⟨c, hparse, hc⟩ := hs.disk.current v hcurrent
    have hcurrentIs : CurrentIs s.disk c.assignment := ⟨v, c, hcurrent, hparse, rfl⟩
    dsimp only
    rw [wp_bind, hparse, wp_ofExcept_ok, wp_bind]
    refine wp_mono (wp_loadReceipt hissued hc.issued hs.disk) (fun o t ht => ?_)
      (fun _ _ h => h.elim)
    obtain ⟨rfl, hnone, hsome⟩ := ht
    cases o with
    | none =>
      refine ⟨fun k hk => ?_, fun h => (nomatch h)⟩
      cases hk
      refine ⟨hs, fun r hr => ?_, hc, hcurrentIs⟩
      rcases hs.disk.raised_or hcurrent hparse hr with hfenced | ⟨_, hreceipt⟩
      · exact hfenced
      · rw [hnone rfl] at hreceipt
        cases hreceipt
    | some k =>
      obtain ⟨hk, hsound, hsame, hterminal, hreceipt⟩ := hsome k rfl
      rw [← hsame] at hcurrentIs
      dsimp only
      rw [wp_ite]
      refine ⟨fun hu => ?_, fun hno => ⟨fun k' hk' => ?_, fun h => (nomatch h)⟩⟩
      · rw [wp_bind]
        refine wp_mono (wp_saveJournal hissued hs
            ⟨hk, fun r hr => hs.disk.admits hcurrentIs hr, fun _ => hcurrentIs, .inr hu⟩)
          (fun _ t ht => ⟨fun k' hk' => ?_, fun h => (nomatch h)⟩)
          (fun _ _ ht => ht.2 hsound (by rw [hsame]; exact hreceipt))
        cases hk'
        exact ⟨ht.1.kept, ht.1.raised, hk, ht.1.currentIs hsound⟩
      · cases hk'
        refine ⟨hs, fun r hr => ?_, hk, hcurrentIs⟩
        rcases hs.disk.raised_or hcurrent hparse hr with hfenced | ⟨_, hopen⟩
        · exact hfenced
        · rw [hreceipt] at hopen
          rw [journalDocument_inj (Option.some.inj hopen)] at hno
          exact absurd hr.uncertain hno

/-- A release of an issued step is stored if it is that of the open fence, and otherwise nothing
happens. -/
theorem exec_releaseFence (hissued : Issued jobs) (hb : jobs b) (hs : Inv jobs s.disk) :
    ((releaseFence (releaseMembers b.jobId b.planDigest)).exec s = (.ok (), s) ∧
        ∀ r, Open s.disk r → Fenced s.disk r → r.assignment ≠ b) ∨
      ∃ d, (releaseFence (releaseMembers b.jobId b.planDigest)).exec s =
          (.ok (), ⟨d, s.history ++ [d]⟩) ∧
        d = s.disk.withRelease b.jobId (.obj (releaseMembers b.jobId b.planDigest)) ∧
        s.disk.releases b.jobId = none ∧ ∃ r, Open s.disk r ∧ Fenced s.disk r ∧ r.assignment = b := by
  have hvalid := hissued.valid b hb
  unfold Job.valid at hvalid
  simp only [Bool.and_eq_true] at hvalid
  have huuid : Gpo.validUuid b.jobId = true := hvalid.1.1.1.1.1.1.1.1.1
  have hshape : ¬((releaseMembers b.jobId b.planDigest).length ≠ 2 ∨
      ((Value.obj (releaseMembers b.jobId b.planDigest)).get? "job_id").isNone ∨
      ((Value.obj (releaseMembers b.jobId b.planDigest)).get? "plan_digest").isNone) := by
    simp [releaseMembers, Value.get?, List.lookup]
  have htext : text (releaseMembers b.jobId b.planDigest) "job_id" = .ok b.jobId := rfl
  obtain ⟨o, hload, ho⟩ := exec_loadFence hissued hs
  unfold releaseFence
  simp only [exec_bind, throwIf, if_neg hshape, exec_pure, htext, exec_ofExcept,
    huuid, Bool.true_eq_false, if_false, Files.exec_disk]
  cases hreleased : s.disk.releases b.jobId with
  | some existing =>
    obtain ⟨b', hb', hid, hv⟩ := hs.releases _ _ hreleased
    cases hissued.key _ _ hb' hb hid
    refine .inl ⟨by simp [hv], fun r hr _ heq => hr.unreleased ?_⟩
    rw [heq, hreleased, hv, ← heq]
    rfl
  | none =>
    dsimp only
    rw [exec_bind, hload]
    cases o with
    | none =>
      refine .inl ⟨rfl, fun r hr hfenced _ => ?_⟩
      have := (ho r).mpr ⟨hr, hfenced⟩
      cases this
    | some fence =>
      have hfence := (ho fence).mp rfl
      dsimp only
      by_cases hmatches : releaseMatches fence (releaseMembers b.jobId b.planDigest) = true
      · rw [if_pos hmatches]
        refine .inr ⟨_, rfl, rfl, rfl, fence, hfence.1, hfence.2, ?_⟩
        unfold releaseMatches at hmatches
        rw [Bool.and_eq_true, beq_iff_eq] at hmatches
        simp only [releaseMembers, List.cons.injEq, Prod.mk.injEq, Value.str.injEq, and_true,
          true_and] at hmatches
        exact hissued.key _ _ (hs.retained hfence.1).1.issued hb hmatches.2.1.symm
      · rw [if_neg hmatches]
        refine .inl ⟨rfl, fun r hr hfenced heq => hmatches ?_⟩
        have hsame : fence = r := Option.some.inj ((ho r).mpr ⟨hr, hfenced⟩)
        unfold releaseMatches
        rw [hsame, hr.uncertain, heq, beq_self_eq_true]
        rfl

theorem Inv.raised_or_only (hd : Inv jobs d) {r' : Journal} (hr : Open d r) (hr' : Open d r') :
    Fenced d r ∨ r' = r := by
  obtain ⟨v, c, hv, hc, hsame | ⟨hfenced, _⟩⟩ := hd.opened r hr
  · have hwrites := (hd.retained hr).1.writes hr.uncertain
    rw [← hsame] at hwrites
    have hother := hd.open_of_current ⟨v, c, hv, hc, rfl⟩ hwrites hr'
    exact .inr (open_unique hr' hr (by rw [← hother, hsame]))
  · exact .inl hfenced

theorem exec_releaseFence_other (hissued : Issued jobs) (hb : jobs b) (hs : Inv jobs s.disk)
    (hr : Open s.disk r) (hother : b ≠ r.assignment) :
    (releaseFence (releaseMembers b.jobId b.planDigest)).exec s = (.ok (), s) := by
  rcases exec_releaseFence hissued hb hs with ⟨hrun, _⟩ | ⟨_, _, _, _, r', hr', hfenced', rfl⟩
  · exact hrun
  · rcases hs.raised_or_only hr hr' with hfenced | rfl
    · obtain ⟨o, _, ho⟩ := exec_loadFence hissued hs
      have hsame : r' = r := Option.some.inj
        (((ho r').mpr ⟨hr', hfenced'⟩).symm.trans ((ho r).mpr ⟨hr, hfenced⟩))
      exact absurd (by rw [hsame]) hother
    · exact absurd rfl hother

end

end Ipms.Agent.Hgs
