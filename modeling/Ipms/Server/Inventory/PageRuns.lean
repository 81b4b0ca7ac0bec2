import Mathlib.Data.List.Dedup
import Mathlib.Data.List.Perm.Subperm
import Ipms.Lib.Run
import Ipms.Server.AgentPki.IssuerRuns
import Ipms.Server.Inventory.Software

/-
  Ipms.Server.Inventory.PageRuns

  Software inventories over whole runs.  The pages that count are those accepted
  since the last completion of another snapshot of their agent.  The tables hold
  exactly these: a snapshot is completed when its pages are all among them, and its
  packages are the packages of these pages, none of them twice.
-/

namespace Ipms.Server.Inventory

open Ipms.Lib Ipms.ManagementJson Txn Table
open Ipms.Server.AgentPki (AgentEnrollment Platform inserted inserted_ok)
open List (Nodup filter_filter length_map map_map mem_cons mem_filter mem_map mem_range range)

/-! ## Pages that count -/

/-- A page that was accepted. -/
structure Accepted where
  enrollment : String
  snapshot : String
  pageIndex : Nat
  pageCount : Nat
  packages : List SoftwarePackage
  deriving DecidableEq

/-- The page of an agent, once it is accepted. -/
def Page.accepted (page : Page) (enrollment : AgentEnrollment) : Accepted where
  enrollment := enrollment.id
  snapshot := page.snapshotId
  pageIndex := page.pageIndex
  pageCount := page.pageCount
  packages := page.packages

def pagesOf (snapshot : String) (pages : List Accepted) : List Accepted :=
  pages.filter fun a => a.snapshot == snapshot

/-- A page that the completion of a snapshot leaves. -/
def Accepted.survives (a : Accepted) (b : Accepted) : Bool :=
  b.enrollment != a.enrollment || b.snapshot == a.snapshot

/-- Of the pages that were accepted, the last one first, those that still count: the page that
completes a snapshot drops the pages of the agent's other snapshots. -/
def live : List Accepted → List Accepted
  | [] => []
  | a :: past =>
    let pages := a :: live past
    if (pagesOf a.snapshot pages).length = a.pageCount then pages.filter a.survives else pages

theorem live_cons (a : Accepted) (past : List Accepted) :
    live (a :: past) = if (pagesOf a.snapshot (a :: live past)).length = a.pageCount
      then (a :: live past).filter a.survives else a :: live past := rfl

variable {a : Accepted}

theorem mem_pagesOf {snapshot : String} {pages : List Accepted} :
    a ∈ pagesOf snapshot pages ↔ a ∈ pages ∧ a.snapshot = snapshot := by
  unfold pagesOf
  rw [mem_filter, beq_iff_eq]

theorem pagesOf_cons_self (a : Accepted) (pages : List Accepted) :
    pagesOf a.snapshot (a :: pages) = a :: pagesOf a.snapshot pages := by
  unfold pagesOf
  rw [List.filter_cons_of_pos (by simp)]

theorem pagesOf_cons_ne {snapshot : String} (h : a.snapshot ≠ snapshot) (pages : List Accepted) :
    pagesOf snapshot (a :: pages) = pagesOf snapshot pages := by
  unfold pagesOf
  rw [List.filter_cons_of_neg (by simpa using h)]

theorem pagesOf_survives {snapshot : String} {pages : List Accepted}
    (h : ∀ b ∈ pagesOf snapshot pages, a.survives b = true) :
    pagesOf snapshot (pages.filter a.survives) = pagesOf snapshot pages := by
  unfold pagesOf at h ⊢
  rw [filter_filter, ← filter_filter, filter_filter]
  apply List.filter_congr
  intro b hb
  cases hof : b.snapshot == snapshot with
  | false => simp
  | true =>
    rw [h b (mem_filter.mpr ⟨hb, hof⟩)]
    rfl

/-! ## One page -/

variable {s : SoftwareInventorySnapshot} {document : Value}

section
variable {py : Python} {now : Time} {db db' : Db} {enrollment : AgentEnrollment} {a : Accepted}

/-- The tables after a page was accepted: `base` is its snapshot as it was, opened by the page if
it is new, and `full` says that the page was the last one it waited for. -/
structure Received (db : Db) (a : Accepted) (base final : SoftwareInventorySnapshot) (db' : Db) :
    Prop where
  found : db.snapshots.get? a.snapshot = some base ∨
    db.snapshots.get? a.snapshot = none ∧ base.receivedPages = []
  opened : base.id = a.snapshot ∧ base.enrollment = a.enrollment ∧ base.pageCount = a.pageCount ∧
    base.status = .receiving
  index : a.pageIndex ∉ base.receivedPages ∧ a.pageIndex < a.pageCount
  kept : final.id = a.snapshot ∧ final.enrollment = a.enrollment ∧ final.pageCount = a.pageCount
  received : final.receivedPages.Perm (a.pageIndex :: base.receivedPages)
  status : final.status = .completed ↔ base.receivedPages.length + 1 = a.pageCount
  counts : final.status = .completed → final.packageCount = (db'.packagesOf a.snapshot).length ∧
    final.updatesAvailable =
      (db'.packagesOf a.snapshot).countP fun p => p.updateState == .available
  rows : ∀ s, s ∈ db'.snapshots.rows ↔ s = final ∨ s ∈ db.snapshots.rows ∧ s.id ≠ a.snapshot ∧
    (base.receivedPages.length + 1 = a.pageCount → s.enrollment ≠ a.enrollment)
  packages : ∀ s ∈ db'.snapshots.rows, db'.packagesOf s.id =
    if s.id = a.snapshot then a.packages.reverse ++ db.packagesOf s.id else db.packagesOf s.id
  cascade : (∀ r ∈ db.packages.rows, ∃ s ∈ db.snapshots.rows, s.id = r.snapshot) →
    ∀ r ∈ db'.packages.rows, ∃ s ∈ db'.snapshots.rows, s.id = r.snapshot

theorem bulkCreate_ok {tenant snapshot : String} {packages : List SoftwarePackage}
    {stored stored' : Table PackageRow (String × String) PackageRow.key}
    (h : bulkCreate tenant snapshot packages stored = .ok stored') :
    stored'.rows = packages.reverse.map (⟨tenant, snapshot, ·⟩) ++ stored.rows := by
  induction packages generalizing stored with
  | nil =>
    cases pure_eq_ok.mp h
    rfl
  | cons p packages ih =>
    obtain ⟨middle, hinserted, h⟩ := bind_eq_ok.mp h
    rw [ih h, (insert_eq_some (inserted_ok hinserted).1).2]
    simp

/-- The snapshot a page belongs to, and the table it is in from then on. -/
theorem getOrCreateSnapshot_yields (opened : SoftwareInventorySnapshot) :
    (getOrCreateSnapshot opened).Yields (fun base t =>
      ∃ snapshots, t = { db with snapshots } ∧ snapshots.get? opened.id = some base ∧
        (∀ s, s ∈ snapshots.rows ∧ s.id ≠ opened.id ↔ s ∈ db.snapshots.rows ∧ s.id ≠ opened.id) ∧
        (base.continuedBy opened ∧ db.snapshots.get? opened.id = some base ∨
          base = opened ∧ db.snapshots.get? opened.id = none)) db := by
  unfold getOrCreateSnapshot
  rw [yields_bind, yields_get]
  split
  · next base hfound =>
      rw [yields_bind, yields_throwIf]
      intro hcontinued
      rw [yields_pure]
      exact ⟨db.snapshots, rfl, hfound, fun s => Iff.rfl, .inl ⟨not_not.mp hcontinued, hfound⟩⟩
  · next hnone =>
      rw [yields_bind, yields_ofExcept]
      intro snapshots hinserted
      rw [yields_bind, yields_set, yields_pure]
      obtain ⟨hinsert, -⟩ := inserted_ok hinserted
      refine ⟨snapshots, rfl, (get?_insert hinsert _).trans (if_pos rfl), fun s => ?_,
        .inr ⟨rfl, hnone⟩⟩
      rw [(insert_eq_some hinsert).2, mem_cons]
      constructor
      · rintro ⟨rfl | hs, hne⟩
        · exact absurd rfl hne
        · exact ⟨hs, hne⟩
      · rintro ⟨hs, hne⟩
        exact ⟨.inr hs, hne⟩

theorem required_ok {α : Type} {found : Option α} {message : String} {x : α}
    (h : required found message = .ok x) : found = some x := by
  unfold required at h
  split at h
  · next hfound => rw [pure_eq_ok.mp h]
  · cases h

theorem pageNumbers_lt {index count : Nat} (h : pageNumbers document = some (index, count)) :
    index < count := by
  unfold pageNumbers at h
  split at h
  · split at h
    · next hbounds =>
        obtain ⟨rfl, rfl⟩ := Prod.mk.inj (Option.some.inj h)
        omega
    · cases h
  · cases h

theorem readPage_index {agentVersion : String} {page : Page}
    (h : readPage py enrollment document agentVersion = .ok page) :
    page.pageIndex < page.pageCount := by
  unfold readPage at h
  obtain ⟨_, -, h⟩ := bind_eq_ok.mp h
  obtain ⟨_, -, h⟩ := bind_eq_ok.mp h
  obtain ⟨_, -, h⟩ := bind_eq_ok.mp h
  obtain ⟨_, -, h⟩ := bind_eq_ok.mp h
  obtain ⟨_, -, h⟩ := bind_eq_ok.mp h
  obtain ⟨_, -, h⟩ := bind_eq_ok.mp h
  obtain ⟨_, -, h⟩ := bind_eq_ok.mp h
  obtain ⟨numbers, hnumbers, h⟩ := bind_eq_ok.mp h
  obtain ⟨_, -, h⟩ := bind_eq_ok.mp h
  obtain ⟨_, -, h⟩ := bind_eq_ok.mp h
  obtain ⟨_, -, h⟩ := bind_eq_ok.mp h
  obtain ⟨_, -, h⟩ := bind_eq_ok.mp h
  rw [← pure_eq_ok.mp h]
  exact pageNumbers_lt (required_ok hnumbers)

variable {snapshot : SoftwareInventorySnapshot}

theorem mem_dropSuperseded : s ∈ (db.dropSuperseded snapshot).snapshots.rows ↔
      s ∈ db.snapshots.rows ∧ (s.enrollment = snapshot.enrollment → s.id = snapshot.id) := by
  unfold Db.dropSuperseded SoftwareInventorySnapshot.supersededBy
  simp only [mem_filter, Bool.not_eq_true', Bool.and_eq_false_iff, beq_eq_false_iff_ne,
    bne_eq_false_iff_eq]
  refine and_congr_right fun _ => ?_
  constructor
  · rintro (hne | hid) henrollment
    · exact absurd henrollment hne
    · exact hid
  · intro h
    by_cases henrollment : s.enrollment = snapshot.enrollment
    · exact .inr (h henrollment)
    · exact .inl henrollment

theorem supersededBy_of_mem (h : s ∈ (db.dropSuperseded snapshot).snapshots.rows) :
    snapshot.supersededBy s = false := by
  have hnot := (mem_filter.mp h).2
  simpa using hnot

theorem packagesOf_dropSuperseded (h : s ∈ (db.dropSuperseded snapshot).snapshots.rows) :
    (db.dropSuperseded snapshot).packagesOf s.id = db.packagesOf s.id := by
  have hget : db.snapshots.get? s.id = some s := get?_of_mem (mem_dropSuperseded.mp h).1
  unfold Db.packagesOf
  congr 1
  show (db.packages.rows.filter _).filter _ = _
  rw [filter_filter]
  apply List.filter_congr
  intro r _
  cases hof : r.snapshot == s.id with
  | false => simp
  | true =>
    rw [beq_iff_eq.mp hof, hget]
    simp [supersededBy_of_mem h]

theorem cascade_dropSuperseded
    (h : ∀ r ∈ db.packages.rows, ∃ s ∈ db.snapshots.rows, s.id = r.snapshot) :
    ∀ r ∈ (db.dropSuperseded snapshot).packages.rows,
      ∃ s ∈ (db.dropSuperseded snapshot).snapshots.rows, s.id = r.snapshot := by
  intro r hr
  obtain ⟨hr, hkept⟩ := mem_filter.mp hr
  obtain ⟨s, hs, hid⟩ := h r hr
  refine ⟨s, mem_filter.mpr ⟨hs, ?_⟩, hid⟩
  rw [← hid, get?_of_mem hs] at hkept
  simpa using hkept

theorem packagesOf_insert {tenant snapshot sid : String} {packages : List SoftwarePackage}
    {stored : Table PackageRow (String × String) PackageRow.key}
    (h : stored.rows = packages.reverse.map (⟨tenant, snapshot, ·⟩) ++ db.packages.rows) :
    ({ db with packages := stored } : Db).packagesOf sid =
      if sid = snapshot then packages.reverse ++ db.packagesOf sid else db.packagesOf sid := by
  unfold Db.packagesOf
  rw [h, List.filter_append, List.map_append]
  by_cases hid : sid = snapshot
  · subst hid
    rw [if_pos rfl, List.filter_eq_self.mpr]
    · simp [Function.comp_def]
    · intro r hr
      obtain ⟨_, -, rfl⟩ := mem_map.mp hr
      simp
  · rw [if_neg hid, List.filter_eq_nil_iff.mpr]
    · rfl
    · intro r hr
      obtain ⟨_, -, rfl⟩ := mem_map.mp hr
      simpa using Ne.symm hid

theorem confirmSoftwareInventory_yields (document : Value) (agentVersion : String) :
    (confirmSoftwareInventory py now enrollment document agentVersion).Yields (fun _ db' =>
      ∃ page base final, readPage py enrollment document agentVersion = .ok page ∧
        Received db (page.accepted enrollment) base final db') db := by
  unfold confirmSoftwareInventory
  simp only [yields_bind, yields_get, yields_ofExcept, yields_throwIf]
  intro _ _ page hpage _ scanAt _ installAt _
  refine (getOrCreateSnapshot_yields _).mono fun base t ht => ?_
  obtain ⟨snapshots, rfl, hget, hothers, hbase⟩ := ht
  replace hothers : ∀ s, s ∈ snapshots.rows ∧ s.id ≠ page.snapshotId ↔
      s ∈ db.snapshots.rows ∧ s.id ≠ page.snapshotId := hothers
  have hopened : base.id = page.snapshotId ∧ base.enrollment = enrollment.id ∧
      base.pageCount = page.pageCount ∧ base.status = .receiving := by
    refine ⟨get?_key hget, ?_⟩
    rcases hbase with ⟨⟨_, henrollment, _, hcount, hstatus, _⟩, -⟩ | ⟨rfl, -⟩
    · exact ⟨henrollment, hcount, hstatus⟩
    · exact ⟨rfl, rfl, rfl⟩
  have hfound : db.snapshots.get? page.snapshotId = some base ∨
      db.snapshots.get? page.snapshotId = none ∧ base.receivedPages = [] := by
    rcases hbase with ⟨-, hold⟩ | ⟨rfl, hnone⟩
    · exact .inl hold
    · exact .inr ⟨hnone, rfl⟩
  simp only [yields_bind, yields_get, yields_ofExcept, yields_throwIf,
    yields_set, yields_ite, yields_modify]
  intro hindex _ stored hstored
  have hrows := bulkCreate_ok hstored
  rw [hopened.1] at hrows
  -- the snapshot with the new page among its pages
  generalize hsnapshot : ({ base with
      receivedPages := List.insertionSort (· ≤ ·) (base.receivedPages ++ [page.pageIndex]) } :
    SoftwareInventorySnapshot) = snapshot
  have hreceived : snapshot.receivedPages.Perm (page.pageIndex :: base.receivedPages) := by
    rw [← hsnapshot]
    refine (List.perm_insertionSort _ _).trans ?_
    exact (List.perm_append_singleton _ _)
  have hlength : (List.insertionSort (· ≤ ·) (base.receivedPages ++ [page.pageIndex])).length =
      base.receivedPages.length + 1 := by
    rw [List.length_insertionSort, List.length_append, List.length_singleton]
  have hsame : snapshot.id = page.snapshotId ∧ snapshot.enrollment = enrollment.id ∧
      snapshot.pageCount = page.pageCount ∧ snapshot.status = .receiving := by
    rw [← hsnapshot]
    exact hopened
  have hsaved : ∀ s, s ∈ (snapshots.save snapshot).rows ↔
      s = snapshot ∨ s ∈ db.snapshots.rows ∧ s.id ≠ page.snapshotId := by
    intro s
    rw [mem_save, hsame.1, ← hothers s]
    constructor
    · rintro (hs | ⟨rfl, -⟩)
      · exact .inr hs
      · exact .inl rfl
    · rintro (rfl | hs)
      · exact .inr ⟨rfl, base, get?_mem hget, hopened.1⟩
      · exact .inl hs
  have hcascade : (∀ r ∈ db.packages.rows, ∃ s ∈ db.snapshots.rows, s.id = r.snapshot) →
      ∀ r ∈ stored.rows, ∃ s ∈ (snapshots.save snapshot).rows, s.id = r.snapshot := by
    intro h r hr
    rw [hrows] at hr
    by_cases hid : r.snapshot = page.snapshotId
    · exact ⟨snapshot, (hsaved _).mpr (.inl rfl), hsame.1.trans hid.symm⟩
    · rcases List.mem_append.mp hr with hnew | hold
      · obtain ⟨_, -, rfl⟩ := mem_map.mp hnew
        exact absurd rfl hid
      · obtain ⟨s, hs, hsid⟩ := h r hold
        exact ⟨s, (hsaved s).mpr (.inr ⟨hs, by rw [hsid]; exact hid⟩), hsid⟩
  have hpackages : ∀ sid, ({ db with packages := stored } : Db).packagesOf sid =
      if sid = page.snapshotId then page.packages.reverse ++ db.packagesOf sid
      else db.packagesOf sid := fun sid => packagesOf_insert hrows
  rw [hlength, hopened.2.2.1]
  refine ⟨fun hfull => ?_, fun hfull => ?_⟩
  · -- the last page: the snapshot is completed, the agent's others are dropped
    generalize hcompleted : Db.completed _ now snapshot = final
    have hfinal : final.id = page.snapshotId ∧ final.enrollment = enrollment.id ∧
        final.pageCount = page.pageCount ∧ final.status = .completed ∧
        final.receivedPages = snapshot.receivedPages := by
      rw [← hcompleted]
      exact ⟨hsame.1, hsame.2.1, hsame.2.2.1, rfl, rfl⟩
    have hmem : ∀ s, s ∈ ((snapshots.save snapshot).save final).rows ↔
        s = final ∨ s ∈ db.snapshots.rows ∧ s.id ≠ page.snapshotId := by
      intro s
      rw [mem_save, hfinal.1, hsaved]
      constructor
      · rintro (⟨rfl | hs, hne⟩ | ⟨rfl, -⟩)
        · exact absurd hsame.1 hne
        · exact .inr hs
        · exact .inl rfl
      · rintro (rfl | hs)
        · exact .inr ⟨rfl, snapshot, (hsaved _).mpr (.inl rfl), hsame.1⟩
        · exact .inl ⟨.inr hs, hs.2⟩
    have hkept : final ∈ (Db.dropSuperseded
        { db with packages := stored, snapshots := (snapshots.save snapshot).save final }
        snapshot).snapshots.rows :=
      mem_dropSuperseded.mpr ⟨(hmem _).mpr (.inl rfl), fun _ => hfinal.1.trans hsame.1.symm⟩
    refine ⟨page, base, final, hpage, hfound, hopened, ⟨hindex, readPage_index hpage⟩,
      ⟨hfinal.1, hfinal.2.1, hfinal.2.2.1⟩, by rw [hfinal.2.2.2.2]; exact hreceived,
      ⟨fun _ => hfull, fun _ => hfinal.2.2.2.1⟩, fun _ => ?_, fun s => ?_, fun s hs => ?_,
      fun h => ?_⟩
    · have hof := packagesOf_dropSuperseded hkept
      rw [hfinal.1] at hof
      show _ = (Db.packagesOf (Db.dropSuperseded _ _) page.snapshotId).length ∧
        _ = (Db.packagesOf (Db.dropSuperseded _ _) page.snapshotId).countP _
      rw [hof, ← hcompleted]
      exact ⟨by rw [← hsame.1]; rfl, by rw [← hsame.1]; rfl⟩
    · refine mem_dropSuperseded.trans ?_
      rw [hsame.1, hsame.2.1, hmem]
      constructor
      · rintro ⟨rfl | ⟨hs, hne⟩, hother⟩
        · exact .inl rfl
        · exact .inr ⟨hs, hne, fun _ henrollment => hne (hother henrollment)⟩
      · rintro (rfl | ⟨hs, hne, hother⟩)
        · exact ⟨.inl rfl, fun _ => hfinal.1⟩
        · exact ⟨.inr ⟨hs, hne⟩, fun henrollment => absurd henrollment (hother hfull)⟩
    · exact (packagesOf_dropSuperseded hs).trans (hpackages s.id)
    · refine cascade_dropSuperseded fun r hr => ?_
      obtain ⟨s, hs, hid⟩ := hcascade h r hr
      rcases (hsaved s).mp hs with rfl | hold
      · exact ⟨final, (hmem _).mpr (.inl rfl), by rw [hfinal.1, ← hsame.1]; exact hid⟩
      · exact ⟨s, (hmem _).mpr (.inr hold), hid⟩
  · refine ⟨page, base, snapshot, hpage, hfound, hopened, ⟨hindex, readPage_index hpage⟩,
      ⟨hsame.1, hsame.2.1, hsame.2.2.1⟩, hreceived, ⟨fun hstatus => ?_, fun hfull' => ?_⟩,
      fun hstatus => ?_, fun s => ?_, fun s _ => hpackages s.id, hcascade⟩
    · rw [hsame.2.2.2] at hstatus
      cases hstatus
    · exact absurd hfull' hfull
    · rw [hsame.2.2.2] at hstatus
      cases hstatus
    · refine (hsaved s).trans (or_congr_right (and_congr_right fun _ => ?_))
      exact ⟨fun hne => ⟨hne, fun hfull' => absurd hfull' hfull⟩, fun h => h.1⟩

end

/-! ## The invariant -/

/-- The number of packages among some that have an update. -/
def updatesAmong (packages : List SoftwarePackage) : Nat :=
  packages.countP fun p => p.updateState == .available

/-- A stored snapshot is what its pages that count say. -/
structure Holds (pages : List Accepted) (db : Db) (s : SoftwareInventorySnapshot) : Prop where
  owned : ∀ a ∈ pagesOf s.id pages, a.enrollment = s.enrollment ∧ a.pageCount = s.pageCount ∧
    a.pageIndex < s.pageCount
  received : s.receivedPages.Perm ((pagesOf s.id pages).map Accepted.pageIndex)
  nodup : s.receivedPages.Nodup
  packages : (db.packagesOf s.id).Perm ((pagesOf s.id pages).flatMap Accepted.packages)
  status : s.status = .completed ↔ (pagesOf s.id pages).length = s.pageCount
  counts : s.status = .completed → s.packageCount = (db.packagesOf s.id).length ∧
    s.updatesAvailable = updatesAmong (db.packagesOf s.id)

/-- The tables are what the pages that count say. -/
structure Inv (pages : List Accepted) (db : Db) : Prop where
  snapshots : ∀ s ∈ db.snapshots.rows, Holds pages db s
  stored : ∀ a ∈ pages, ∃ s ∈ db.snapshots.rows, s.id = a.snapshot
  packages : ∀ r ∈ db.packages.rows, ∃ s ∈ db.snapshots.rows, s.id = r.snapshot

section
variable {db db' : Db} {a : Accepted} {past : List Accepted}
  {base final : SoftwareInventorySnapshot}

/-- The pages of the snapshot that a page was accepted for, before it. -/
theorem Received.pages_before (h : Received db a base final db') (hinv : Inv (live past) db) :
    (∀ b ∈ pagesOf a.snapshot (live past), b.enrollment = a.enrollment ∧
        b.pageCount = a.pageCount ∧ b.pageIndex < a.pageCount) ∧
      base.receivedPages.Perm ((pagesOf a.snapshot (live past)).map Accepted.pageIndex) ∧
      base.receivedPages.Nodup ∧
      (db.packagesOf a.snapshot).Perm
        ((pagesOf a.snapshot (live past)).flatMap Accepted.packages) := by
  rcases h.found with hfound | ⟨hnone, hempty⟩
  · have hholds := hinv.snapshots base (get?_mem hfound)
    obtain ⟨hid, henrollment, hcount, -⟩ := h.opened
    have hpages := hholds.owned
    have hreceived := hholds.received
    have hpackages := hholds.packages
    rw [hid] at hpages hreceived hpackages
    rw [henrollment, hcount] at hpages
    exact ⟨hpages, hreceived, hholds.nodup, hpackages⟩
  · -- a new snapshot: nothing of it counts, and nothing of it is stored
    have hnone' := get?_eq_none.mp hnone
    have hpages : pagesOf a.snapshot (live past) = [] := by
      rw [List.eq_nil_iff_forall_not_mem]
      intro b hb
      obtain ⟨hb, hof⟩ := mem_pagesOf.mp hb
      obtain ⟨s, hs, hid⟩ := hinv.stored b hb
      exact hnone' s hs (hid.trans hof)
    have hpackages : db.packagesOf a.snapshot = [] := by
      unfold Db.packagesOf
      rw [List.map_eq_nil_iff, List.filter_eq_nil_iff]
      intro r hr hof
      obtain ⟨s, hs, hid⟩ := hinv.packages r hr
      exact hnone' s hs (hid.trans (beq_iff_eq.mp hof))
    rw [hpages, hpackages, hempty]
    exact ⟨nofun, .refl _, .nil, .refl _⟩

theorem Received.full_iff (h : Received db a base final db') (hinv : Inv (live past) db) :
    (pagesOf a.snapshot (a :: live past)).length = a.pageCount ↔
      base.receivedPages.length + 1 = a.pageCount := by
  obtain ⟨-, hreceived, -⟩ := h.pages_before hinv
  rw [pagesOf_cons_self, List.length_cons, hreceived.length_eq, length_map]

theorem Received.pagesOf_live (h : Received db a base final db') (hinv : Inv (live past) db)
    (hs : s ∈ db'.snapshots.rows) :
    pagesOf s.id (live (a :: past)) = pagesOf s.id (a :: live past) := by
  rw [live_cons]
  split
  · next hfull =>
      apply pagesOf_survives
      intro b hb
      obtain ⟨hb, hof⟩ := mem_pagesOf.mp hb
      unfold Accepted.survives
      rw [Bool.or_eq_true, bne_iff_ne, beq_iff_eq]
      rcases (h.rows s).mp hs with rfl | ⟨hold, hne, hother⟩
      · exact .inr (hof.trans h.kept.1)
      · rcases mem_cons.mp hb with rfl | hb
        · exact absurd hof.symm hne
        · refine .inl ?_
          rw [((hinv.snapshots s hold).owned b (mem_pagesOf.mpr ⟨hb, hof⟩)).1]
          exact hother ((h.full_iff hinv).mp hfull)
  · rfl

theorem Received.holds_final (h : Received db a base final db') (hinv : Inv (live past) db) :
    Holds (live (a :: past)) db' final := by
  have hmem : final ∈ db'.snapshots.rows := (h.rows final).mpr (.inl rfl)
  have hpages := h.pagesOf_live hinv hmem
  obtain ⟨hbefore, hreceived, hnodup, hstored⟩ := h.pages_before hinv
  obtain ⟨hid, henrollment, hcount⟩ := h.kept
  have hpackages := h.packages final hmem
  rw [hid, if_pos rfl] at hpackages
  rw [hid, pagesOf_cons_self] at hpages
  constructor
  · rw [hid, hpages, henrollment, hcount]
    intro b hb
    rcases mem_cons.mp hb with rfl | hb
    · exact ⟨rfl, rfl, h.index.2⟩
    · exact hbefore b hb
  · rw [hid, hpages, List.map_cons]
    exact h.received.trans (hreceived.cons _)
  · rw [h.received.nodup_iff, List.nodup_cons]
    exact ⟨h.index.1, hnodup⟩
  · rw [hid, hpages, hpackages, List.flatMap_cons]
    exact (List.reverse_perm _).append hstored
  · rw [h.status, hid, hpages, hcount, ← h.full_iff hinv, pagesOf_cons_self]
  · rw [hid]
    exact h.counts

theorem Received.holds_other (h : Received db a base final db') (hinv : Inv (live past) db)
    (hs : s ∈ db'.snapshots.rows) (hold : s ∈ db.snapshots.rows) (hne : s.id ≠ a.snapshot) :
    Holds (live (a :: past)) db' s := by
  have hpages := h.pagesOf_live hinv hs
  rw [pagesOf_cons_ne (Ne.symm hne)] at hpages
  have hpackages := h.packages s hs
  rw [if_neg hne] at hpackages
  have hholds := hinv.snapshots s hold
  constructor
  · rw [hpages]
    exact hholds.owned
  · rw [hpages]
    exact hholds.received
  · exact hholds.nodup
  · rw [hpages, hpackages]
    exact hholds.packages
  · rw [hpages]
    exact hholds.status
  · rw [hpackages]
    exact hholds.counts

theorem Received.inv (h : Received db a base final db') (hinv : Inv (live past) db) :
    Inv (live (a :: past)) db' := by
  refine ⟨fun s hs => ?_, fun b hb => ?_, h.cascade hinv.packages⟩
  · rcases (h.rows s).mp hs with rfl | ⟨hold, hne, -⟩
    · exact h.holds_final hinv
    · exact h.holds_other hinv hs hold hne
  · by_cases hof : b.snapshot = a.snapshot
    · exact ⟨final, (h.rows final).mpr (.inl rfl), h.kept.1.trans hof.symm⟩
    · have hpast : b ∈ live past ∧ (base.receivedPages.length + 1 = a.pageCount →
          b.enrollment ≠ a.enrollment) := by
        rw [live_cons] at hb
        split at hb
        · obtain ⟨hb, hsurvives⟩ := mem_filter.mp hb
          unfold Accepted.survives at hsurvives
          rw [Bool.or_eq_true, bne_iff_ne, beq_iff_eq] at hsurvives
          rcases mem_cons.mp hb with rfl | hb
          · exact absurd rfl hof
          · exact ⟨hb, fun _ => hsurvives.resolve_right hof⟩
        · next hfull =>
            rcases mem_cons.mp hb with rfl | hb
            · exact absurd rfl hof
            · exact ⟨hb, fun hfull' => absurd ((h.full_iff hinv).mpr hfull') hfull⟩
      obtain ⟨s, hs, hid⟩ := hinv.stored b hpast.1
      refine ⟨s, (h.rows s).mpr (.inr ⟨hs, by rw [hid]; exact hof, fun hfull => ?_⟩), hid⟩
      rw [← ((hinv.snapshots s hs).owned b (mem_pagesOf.mpr ⟨hpast.1, hid.symm⟩)).1]
      exact hpast.2 hfull

theorem Received.not_completed (h : Received db a base final db') (hs : s ∈ db.snapshots.rows)
    (hid : s.id = a.snapshot) : s.status = .receiving := by
  rcases h.found with hfound | ⟨hnone, -⟩
  · rw [row_unique hs (get?_mem hfound) (hid.trans h.opened.1.symm)]
    exact h.opened.2.2.2
  · exact absurd hid (get?_eq_none.mp hnone s hs)

end

/-! ## Runs -/

/-- The tables, and the pages that were accepted, the last one first. -/
structure System where
  db : Db
  accepted : List Accepted

/-- What may happen to inventories: an agent sends a page, or tenants and systems change. -/
inductive Event where
  | page (now : Time) (enrollment : AgentEnrollment) (document : Value) (agentVersion : String)
  | records (tenants : Table Tenant String Tenant.id) (systems : List (Platform × String × String))

/-- What an event leaves: a page that is refused leaves the tables. -/
def System.next (py : Python) (s : System) : Event → System
  | .page now enrollment document agentVersion =>
    match (confirmSoftwareInventory py now enrollment document agentVersion).exec s.db,
      readPage py enrollment document agentVersion with
    | .ok (_, db), .ok page => { db, accepted := page.accepted enrollment :: s.accepted }
    | _, _ => s
  | .records tenants systems => { s with db := { s.db with tenants, systems } }

def Step (py : Python) (s : System) (e : Event) (t : System) : Prop := t = s.next py e

/-- No inventory was received yet. -/
structure Initial (s : System) : Prop where
  snapshots : s.db.snapshots.rows = []
  packages : s.db.packages.rows = []
  accepted : s.accepted = []

section
variable {py : Python} {s t : System} {e : Event}

theorem next_page {now : Time} {enrollment : AgentEnrollment} {agentVersion : String} :
    s.next py (.page now enrollment document agentVersion) = s ∨
      ∃ page base final db', readPage py enrollment document agentVersion = .ok page ∧
        Received s.db (page.accepted enrollment) base final db' ∧
        s.next py (.page now enrollment document agentVersion) =
          { db := db', accepted := page.accepted enrollment :: s.accepted } := by
  unfold System.next
  simp only
  split
  · next db page hexec hpage =>
      obtain ⟨page', base, final, hpage', hreceived⟩ :=
        confirmSoftwareInventory_yields document agentVersion _ _ hexec
      rw [hpage] at hpage'
      cases hpage'
      exact .inr ⟨page, base, final, db, hpage, hreceived, rfl⟩
  · exact .inl rfl

theorem Step.inv (h : Step py s e t) (hs : Inv (live s.accepted) s.db) :
    Inv (live t.accepted) t.db := by
  obtain rfl := h
  cases e with
  | page now enrollment document agentVersion =>
    rcases next_page with hsame | ⟨page, base, final, db', -, hreceived, hnext⟩
    · rw [hsame]
      exact hs
    · rw [hnext]
      exact hreceived.inv hs
  | records tenants systems =>
    exact ⟨fun r hr => ⟨(hs.snapshots r hr).owned, (hs.snapshots r hr).received,
      (hs.snapshots r hr).nodup, (hs.snapshots r hr).packages, (hs.snapshots r hr).status,
      (hs.snapshots r hr).counts⟩, hs.stored, hs.packages⟩

theorem Inv.init (h : Initial s) : Inv (live s.accepted) s.db := by
  rw [h.accepted]
  refine ⟨fun r hr => ?_, nofun, fun r hr => ?_⟩
  · rw [h.snapshots] at hr
    cases hr
  · rw [h.packages] at hr
    cases hr

end

/-! ## Inventories are exact -/

theorem length_eq_iff_forall_mem {n : Nat} {indices : List Nat} (hnodup : indices.Nodup)
    (hlt : ∀ i ∈ indices, i < n) : indices.length = n ↔ ∀ i < n, indices.count i = 1 := by
  have hsub : indices.Subperm (range n) :=
    List.subperm_of_subset hnodup fun i hi => mem_range.mpr (hlt i hi)
  constructor
  · intro hlength i hi
    have hperm : indices.Perm (range n) :=
      hsub.perm_of_length_le (by rw [List.length_range, hlength])
    exact List.count_eq_one_of_mem hnodup (hperm.mem_iff.mpr (mem_range.mpr hi))
  · intro hall
    have hback : (range n).Subperm indices := by
      refine List.subperm_of_subset List.nodup_range fun i hi => ?_
      rw [← List.count_pos_iff, hall i (mem_range.mp hi)]
      exact Nat.one_pos
    have hle := hsub.length_le
    have hge := hback.length_le
    rw [List.length_range] at hle hge
    omega

/-- What holds of the stored inventories, by the pages that count. -/
structure InventoryExact (py : Python) (s : System) : Prop where
  /-- a snapshot is completed exactly when each of its pages was accepted once -/
  completed : ∀ r ∈ s.db.snapshots.rows, r.status = .completed ↔
    ∀ i < r.pageCount, ((pagesOf r.id (live s.accepted)).map Accepted.pageIndex).count i = 1
  /-- it counts the distinct packages of its pages -/
  count : ∀ r ∈ s.db.snapshots.rows, r.status = .completed → r.packageCount =
    (((pagesOf r.id (live s.accepted)).flatMap Accepted.packages).map
      SoftwarePackage.sourceId).dedup.length
  /-- the packages of its pages are stored, none of them twice -/
  packages : ∀ r ∈ s.db.snapshots.rows, (s.db.packagesOf r.id).Perm
    ((pagesOf r.id (live s.accepted)).flatMap Accepted.packages)
  nodup : ∀ r ∈ s.db.snapshots.rows, ((s.db.packagesOf r.id).map SoftwarePackage.sourceId).Nodup
  /-- a page of a completed snapshot, repeated or conflicting, changes nothing -/
  refused : ∀ r ∈ s.db.snapshots.rows, r.status = .completed →
    ∀ now enrollment document agentVersion page,
      readPage py enrollment document agentVersion = .ok page → page.snapshotId = r.id →
        s.next py (.page now enrollment document agentVersion) = s
  /-- a completed snapshot stays until another one of its agent is completed -/
  stays : ∀ r ∈ s.db.snapshots.rows, r.status = .completed → ∀ e,
    r ∈ (s.next py e).db.snapshots.rows ∨ ∃ q ∈ (s.next py e).db.snapshots.rows,
      q.status = .completed ∧ q.enrollment = r.enrollment ∧ q.id ≠ r.id

theorem packagesOf_nodup (db : Db) (snapshot : String) :
    ((db.packagesOf snapshot).map SoftwarePackage.sourceId).Nodup := by
  unfold Db.packagesOf
  rw [map_map]
  have hrows : ((db.packages.rows.filter fun r => r.snapshot == snapshot).map
      PackageRow.key).Nodup := Nodup.sublist (List.filter_sublist.map _) db.packages.nodup
  refine Nodup.of_map (fun id => (snapshot, id)) ?_
  rw [map_map]
  refine Eq.mp (congrArg Nodup (List.map_congr_left fun r hr => ?_)) hrows
  rw [mem_filter, beq_iff_eq] at hr
  unfold PackageRow.key
  rw [hr.2]
  rfl

/-- Over every run, whatever the order, repetition and interleaving of pages, the stored
inventories are exact. -/
theorem inventory_exact (py : Python) {s t : System} {es : List Event} (hinit : Initial s)
    (hrun : Run (Step py) s es t) : InventoryExact py t := by
  have hinv : Inv (live t.accepted) t.db :=
    hrun.preserves (fun _ _ _ hstep hs => hstep.inv hs) (Inv.init hinit)
  refine ⟨fun r hr => ?_, fun r hr hstatus => ?_, fun r hr => (hinv.snapshots r hr).packages,
    fun r _ => packagesOf_nodup t.db r.id, ?_, ?_⟩
  · have hholds := hinv.snapshots r hr
    have hnodup : ((pagesOf r.id (live t.accepted)).map Accepted.pageIndex).Nodup :=
      hholds.received.nodup_iff.mp hholds.nodup
    have hlt : ∀ i ∈ (pagesOf r.id (live t.accepted)).map Accepted.pageIndex, i < r.pageCount := by
      intro i hi
      obtain ⟨a, ha, rfl⟩ := mem_map.mp hi
      exact (hholds.owned a ha).2.2
    rw [hholds.status, ← length_eq_iff_forall_mem hnodup hlt, length_map]
  · have hholds := hinv.snapshots r hr
    have hdistinct := (hholds.packages.map SoftwarePackage.sourceId).nodup_iff.mp
      (packagesOf_nodup t.db r.id)
    rw [(hholds.counts hstatus).1, hdistinct.dedup, length_map, hholds.packages.length_eq]
  · intro r hr hstatus now enrollment document agentVersion page hpage hid
    rcases next_page with hsame | ⟨page', base, final, db', hpage', hreceived, -⟩
    · exact hsame
    · rw [hpage] at hpage'
      cases hpage'
      have hreceiving := hreceived.not_completed hr hid.symm
      rw [hstatus] at hreceiving
      cases hreceiving
  · intro r hr hstatus e
    cases e with
    | page now enrollment document agentVersion =>
      rcases next_page with hsame | ⟨page, base, final, db', -, hreceived, hnext⟩
      · rw [hsame]
        exact .inl hr
      · rw [hnext]
        have hne : r.id ≠ (page.accepted enrollment).snapshot := by
          intro hid
          have hreceiving := hreceived.not_completed hr hid
          rw [hstatus] at hreceiving
          cases hreceiving
        by_cases hfull : base.receivedPages.length + 1 = (page.accepted enrollment).pageCount
        · by_cases henrollment : r.enrollment = (page.accepted enrollment).enrollment
          · refine .inr ⟨final, (hreceived.rows final).mpr (.inl rfl),
              hreceived.status.mpr hfull, hreceived.kept.2.1.trans henrollment.symm, ?_⟩
            rw [hreceived.kept.1]
            exact hne.symm
          · exact .inl ((hreceived.rows r).mpr (.inr ⟨hr, hne, fun _ => henrollment⟩))
        · exact .inl ((hreceived.rows r).mpr (.inr ⟨hr, hne, fun h => absurd h hfull⟩))
    | records tenants systems => exact .inl hr

/-! ### A page that comes again behind another snapshot -/

/-- Identifiers as they are spelled, and no time stamps. -/
def samplePython : Python where
  uuid
    | .str s => if uuidText s then some s else none
    | _ => none
  parseDatetime _ := pure none
  evidence _ := none

/-- An enrolled Linux agent. -/
def sampleAgent : AgentEnrollment where
  id := "e"
  tenant := "t"
  deviceId := "d"
  deviceUri := "urn:ipms:agent:d"
  displayName := "agent"
  platform := .linux
  status := .active
  issuer := none
  certificate := none
  certificateFingerprintSha256 := ""
  certificateSerialNumber := ""
  certificateNotBefore := none
  certificateNotAfter := none
  keyAlgorithm := ""

/-- The only page of a snapshot, with one package. -/
def samplePage (snapshot : String) : Event :=
  .page 0 sampleAgent (.obj [("schema_version", .str "1"), ("platform", .str "linux"),
    ("snapshot_id", .str snapshot), ("page_index", .int 0), ("page_count", .int 1),
    ("reboot_required", .null), ("update_scan_status", .str "current"),
    ("last_update_scan_at", .null), ("last_update_install_at", .null),
    ("packages", .arr [.obj [("source_id", .str "bash"), ("name", .str "bash"),
      ("installed_version", .str "5.2"), ("available_version", .str ""), ("publisher", .str ""),
      ("package_type", .str "deb"), ("update_state", .str "current"),
      ("is_os_component", .bool true)]])]) "0.2.30"

/-- The first and the second snapshot of the agent. -/
def firstPage : Event := samplePage "11111111-1111-4111-8111-111111111111"

def secondPage : Event := samplePage "22222222-2222-4222-8222-222222222222"

/-- The tenant and the system of the agent, without inventory. -/
def sampleStart : System where
  db := {
    tenants := .single ⟨"t", .active, .infrastructure⟩
    systems := [(.linux, "t", "urn:ipms:agent:d")]
    snapshots := .empty
    packages := .empty
    lastSeenAt := [] }
  accepted := []

theorem inventory_exact_sample : InventoryExact samplePython
    ([firstPage, secondPage, firstPage].foldl (System.next samplePython) sampleStart) := by
  have hrun : Run (Step samplePython) sampleStart [firstPage, secondPage, firstPage]
      ([firstPage, secondPage, firstPage].foldl (System.next samplePython) sampleStart) :=
    .cons rfl (.cons rfl (.cons rfl (.nil _)))
  exact inventory_exact samplePython ⟨rfl, rfl, rfl⟩ hrun

/-- Each page of a completed snapshot was accepted once in the whole run, and no page that is sent
again changes a completed snapshot. -/
def PagesOnce (py : Python) (es : List Event) (t : System) : Prop :=
  (∀ r ∈ t.db.snapshots.rows, r.status = .completed ↔
    ∀ i < r.pageCount, ((pagesOf r.id t.accepted).map Accepted.pageIndex).count i = 1) ∧
  ∀ r ∈ t.db.snapshots.rows, r.status = .completed → ∀ e ∈ es,
    r ∈ (t.next py e).db.snapshots.rows

/-- The page of a snapshot that another one replaced is accepted again, twice in all, and replaces
the other one in turn. -/
theorem page_accepted_again :
    ¬∀ es t, Run (Step samplePython) sampleStart es t → PagesOnce samplePython es t := by
  intro h
  have htwo := h [firstPage, secondPage] _ (.cons rfl (.cons rfl (.nil _)))
  have hreplaced : ∃ r ∈ ((sampleStart.next samplePython firstPage).next samplePython
      secondPage).db.snapshots.rows, r.status = .completed ∧
        r ∉ (((sampleStart.next samplePython firstPage).next samplePython secondPage).next
          samplePython firstPage).db.snapshots.rows := by
    decide +kernel
  obtain ⟨r, hr, hstatus, hgone⟩ := hreplaced
  exact hgone (htwo.2 r hr hstatus firstPage List.mem_cons_self)

end Ipms.Server.Inventory
