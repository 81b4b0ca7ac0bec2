import Ipms.Lib.Fallible
import Ipms.Lib.Run
import Ipms.Server.Updates.Ingest

/-
  Ipms.Server.Updates.Retention

  The receipts of a source over whole runs.  They stand newest first, every
  accepted snapshot is newer than all before it, and only the newest three keep
  their data; a receipt outlives its data, so a reused identifier still meets
  the digest of what it stood for.
-/

namespace Ipms.Server.Updates

open Ipms.Lib Txn Table

/-! ## Receipts, newest first -/

variable {snapshotId : String}

section
variable {db : Db} {source : String} {s t : WsusSnapshot}

/-- Snapshots stand newest first, no two of one time. -/
def NewestFirst (snapshots : List WsusSnapshot) : Prop :=
  snapshots.Pairwise fun s t => t.observedAt < s.observedAt

theorem mem_receipts : s ∈ db.receipts source ↔ s ∈ db.snapshots.rows ∧ s.source = source := by
  unfold Db.receipts
  rw [List.mem_filter, beq_iff_eq]

variable {snapshots : List WsusSnapshot}

theorem newestFirst_eq (h : NewestFirst snapshots) : Db.newestFirst snapshots = snapshots := by
  unfold Db.newestFirst
  exact List.Pairwise.insertionSort_eq (h.imp fun hlt => Int.le_of_lt hlt)

theorem NewestFirst.head (h : NewestFirst (s :: l)) : ∀ t ∈ s :: l, t.observedAt ≤ s.observedAt := by
  intro t ht
  rcases List.mem_cons.mp ht with rfl | ht
  · exact Int.le_refl _
  · exact Int.le_of_lt ((List.pairwise_cons.mp h).1 t ht)

theorem prior_eq_some (h : db.prior source snapshotId = some s) :
    s ∈ db.receipts source ∧ s.snapshotId = snapshotId := by
  unfold Db.prior at h
  exact ⟨List.mem_of_find?_eq_some h, by simpa using List.find?_some h⟩

theorem prior_eq_none :
    db.prior source snapshotId = none ↔ ∀ s ∈ db.receipts source, s.snapshotId ≠ snapshotId := by
  unfold Db.prior
  simp

/-- A snapshot without its catalogue, if it is to be pruned. -/
def Db.stripped (db : Db) (source : String) (s : WsusSnapshot) : WsusSnapshot :=
  if db.pruned source s then { s with updates := [] } else s

theorem stripped_cases : db.stripped source s = s ∨ db.stripped source s = { s with updates := [] } := by
  unfold Db.stripped
  split
  · exact .inr rfl
  · exact .inl rfl

@[simp] theorem stripped_id : (db.stripped source s).id = s.id := by
  rcases @stripped_cases db source s with h | h <;> rw [h]

@[simp] theorem stripped_source : (db.stripped source s).source = s.source := by
  rcases @stripped_cases db source s with h | h <;> rw [h]

@[simp] theorem stripped_snapshotId : (db.stripped source s).snapshotId = s.snapshotId := by
  rcases @stripped_cases db source s with h | h <;> rw [h]

@[simp] theorem stripped_digest : (db.stripped source s).digest = s.digest := by
  rcases @stripped_cases db source s with h | h <;> rw [h]

@[simp] theorem stripped_observedAt : (db.stripped source s).observedAt = s.observedAt := by
  rcases @stripped_cases db source s with h | h <;> rw [h]

theorem receipts_prune (other : String) :
    (db.prune source).receipts other = (db.receipts other).map (db.stripped source) := by
  show (db.snapshots.rows.map (db.stripped source)).filter _ = _
  rw [List.filter_map]
  unfold Db.receipts
  congr 1
  apply List.filter_congr
  intro s _
  simp

theorem get?_prune (id : String) :
    (db.prune source).snapshots.get? id = (db.snapshots.get? id).map (db.stripped source) :=
  get?_mapRows (f := db.stripped source) (fun _ => stripped_id) id

theorem newestFirst_map_stripped (h : NewestFirst snapshots) :
    NewestFirst (snapshots.map (db.stripped source)) := by
  unfold NewestFirst
  rw [List.pairwise_map]
  simp only [stripped_observedAt]
  exact h

end

/-- A snapshot still has its catalogue or a computer report. -/
def Db.HasData (db : Db) (s : WsusSnapshot) : Prop :=
  s.updates ≠ [] ∨ ∃ r ∈ db.computers, r.snapshot = s.id

section
variable {db : Db} {source : String} {s : WsusSnapshot}

theorem hasData_prune (hs : s ∈ db.snapshots.rows)
    (h : (db.prune source).HasData (db.stripped source s)) :
    db.HasData s ∧ db.pruned source s = false := by
  rcases h with hupdates | ⟨r, hr, hid⟩
  · unfold Db.stripped at hupdates
    split at hupdates
    · exact absurd rfl hupdates
    · next hkept => exact ⟨.inl hupdates, by simpa using hkept⟩
  · rw [stripped_id] at hid
    obtain ⟨hmem, hkept⟩ := List.mem_filter.mp hr
    refine ⟨.inr ⟨r, hmem, hid⟩, ?_⟩
    rw [Bool.not_eq_true', List.any_eq_false] at hkept
    simpa [hid] using hkept s hs

end

/-! ## Submissions -/

/-- What a submission has to show before its identifier is looked at. -/
structure Admitted (db : Db) (auth : AuthSource) (data : SnapshotData) (now : Time)
    (source : UpdateSource) : Prop where
  valid : data.validate now = .ok data
  tenant : ∃ tenant, db.tenants.get? auth.tenant = some tenant ∧ tenant.status = .active
  found : db.sources.get? auth.id = some source
  enabled : source.enabled = true
  token : source.tokenHash = auth.tokenHash
  scope : data.scope = source.scope

/-- The tables with a new snapshot, before older data is dropped. -/
def Db.withSnapshot (db : Db) (source : UpdateSource) (data : SnapshotData) (id : String)
    (snapshots : Table WsusSnapshot String WsusSnapshot.id) : Db :=
  { db with
    snapshots
    computers := data.computers.map (newReport id) ++ db.computers
    sources := db.sources.save { source with currentSnapshot := some id } }

/-- A new snapshot is published: it is newer than the latest one. -/
structure Published (db : Db) (source : UpdateSource) (data : SnapshotData) (id : String)
    (now : Time) (db' : Db) : Prop where
  fresh : db.prior source.id data.snapshotId = none
  newer : ∀ l, db.latest source = some l → l.observedAt < data.observedAt
  result : ∃ snapshots, db.snapshots.insert (newSnapshot source.id data id now) = some snapshots ∧
    db' = (db.withSnapshot source data id snapshots).prune source.id

variable {row : WsusSnapshot}

section
variable {db db' : Db} {auth : AuthSource} {data : SnapshotData} {id : String} {now : Time}
  {source : UpdateSource} {r : WsusSnapshot × Bool}

theorem validate_eq {data' : SnapshotData} (h : data.validate now = .ok data') : data' = data := by
  unfold SnapshotData.validate at h
  obtain ⟨_, -, h⟩ := bind_eq_ok.mp h
  obtain ⟨_, -, h⟩ := bind_eq_ok.mp h
  obtain ⟨_, -, h⟩ := bind_eq_ok.mp h
  obtain ⟨_, -, h⟩ := bind_eq_ok.mp h
  obtain ⟨_, -, h⟩ := bind_eq_ok.mp h
  obtain ⟨_, -, h⟩ := bind_eq_ok.mp h
  exact (pure_eq_ok.mp h).symm

theorem publish_ok (h : (publish source data id now).exec db = .ok (r, db')) :
    r = (newSnapshot source.id data id now, true) ∧
      ∃ snapshots, db.snapshots.insert (newSnapshot source.id data id now) = some snapshots ∧
        db' = (db.withSnapshot source data id snapshots).prune source.id := by
  have hyields : Yields (publish source data id now) (fun r db' =>
      r = (newSnapshot source.id data id now, true) ∧
      ∃ snapshots, db.snapshots.insert (newSnapshot source.id data id now) = some snapshots ∧
        db' = (db.withSnapshot source data id snapshots).prune source.id) db := by
    unfold publish
    rw [yields_bind, yields_get]
    split
    · rw [yields_throw]
      trivial
    · next snapshots hinsert =>
        simp only [yields_bind, yields_throwIf, yields_set, yields_pure, true_and]
        exact fun _ => ⟨snapshots, hinsert, rfl⟩
  exact hyields r db' h

/-- A submission that succeeds was admitted; it replays a receipt of its digest, or it publishes. -/
theorem receive_cases (h : (receive auth data id now).exec db = .ok (r, db')) :
    ∃ source, Admitted db auth data now source ∧
      ((∃ row, db.prior source.id data.snapshotId = some row ∧ row.digest = data.digest ∧
          r = (row, false) ∧ db' = db) ∨
        r = (newSnapshot source.id data id now, true) ∧ Published db source data id now db') := by
  have hyields : Yields (receive auth data id now) (fun r db' =>
      ∃ source, Admitted db auth data now source ∧
        ((∃ row, db.prior source.id data.snapshotId = some row ∧ row.digest = data.digest ∧
          r = (row, false) ∧ db' = db) ∨
        r = (newSnapshot source.id data id now, true) ∧ Published db source data id now db')) db := by
    unfold receive
    rw [yields_bind, yields_ofExcept]
    intro data' hvalid
    obtain rfl := validate_eq hvalid
    unfold ingest
    rw [yields_bind, yields_get]
    split
    · next tenant source htenant hsource =>
        rw [yields_bind, yields_throwIf]
        intro hauthority
        rw [yields_bind, yields_throwIf]
        intro hscope
        simp only [not_or, not_not, Bool.not_eq_false] at hauthority hscope
        have hadmitted : Admitted db auth data' now source :=
          ⟨hvalid, ⟨tenant, htenant, hauthority.1⟩, hsource, hauthority.2.1, hauthority.2.2, hscope⟩
        split
        · next row hrow =>
            rw [yields_bind, yields_throwIf]
            intro hdigest
            rw [yields_pure]
            exact ⟨source, hadmitted, .inl ⟨row, hrow, not_not.mp hdigest, rfl, rfl⟩⟩
        · next hnone =>
            rw [yields_bind, yields_throwIf]
            intro _
            rw [yields_bind, yields_throwIf]
            intro hlatest
            rw [yields_bind, yields_throwIf]
            intro _ r db' hpublish
            obtain ⟨hr, hresult⟩ := publish_ok hpublish
            refine ⟨source, hadmitted, .inr ⟨hr, hnone, fun l hl => ?_, hresult⟩⟩
            rw [hl] at hlatest
            simpa using hlatest
    · rw [yields_throw]
      trivial
  exact hyields r db' h

/-- An admitted submission under the identifier of a receipt is answered with it if the digests
agree. -/
theorem receive_replay (hadmitted : Admitted db auth data now source)
    (hrow : db.prior source.id data.snapshotId = some row) (hdigest : row.digest = data.digest) :
    (receive auth data id now).exec db = .ok ((row, false), db) := by
  obtain ⟨tenant, htenant, hactive⟩ := hadmitted.tenant
  unfold receive ingest
  rw [exec_bind_ok]
  refine ⟨data, db, exec_ofExcept_ok.mpr ⟨hadmitted.valid, rfl⟩, ?_⟩
  simp only [exec_bind, exec_get, htenant, hadmitted.found, hactive, hadmitted.enabled,
    hadmitted.token, hadmitted.scope, hrow, hdigest, throwIf, ne_eq, not_true_eq_false, or_self,
    Bool.true_eq_false, if_false, exec_pure]

end

/-! ## Runs -/

/-- A snapshot a source accepted. -/
structure Accepted where
  source : String
  data : SnapshotData

/-- The tables, and what every source ever accepted. -/
structure System where
  db : Db
  accepted : List Accepted

/-- What may happen: a submission, a change of the configuration, or a change of the tenants. -/
inductive Event where
  | submit (auth : AuthSource) (data : SnapshotData) (id : String) (now : Time)
  | create (tenant name scope : String) (endpoint : Option Endpoint) (allowed : Bool)
      (id tokenHash : String)
  | patch (tenant pk : String) (enabled : Option Bool) (endpoint : Option Endpoint)
      (allowed : Bool) (now : Time)
  | rotate (tenant pk : String) (allowed : Bool) (tokenHash : String)
  | tenants (tenants : Table Tenant String Tenant.id)

/-- The tables behind a request: those it committed, or the ones before. -/
def System.commit (s : System) (result : Except ServerError (Unit × Db)) : System :=
  match result with
  | .ok (_, db) => { s with db }
  | .error _ => s

/-- The state behind an event. -/
def System.next (s : System) : Event → System
  | .submit auth data id now =>
    match (receive auth data id now).exec s.db with
    | .ok ((_, created), db) =>
      { db, accepted := if created then ⟨auth.id, data⟩ :: s.accepted else s.accepted }
    | .error _ => s
  | .create tenant name scope endpoint allowed id tokenHash =>
    s.commit ((createSource tenant name scope endpoint allowed id tokenHash).exec s.db)
  | .patch tenant pk enabled endpoint allowed now =>
    s.commit ((patchSource tenant pk enabled endpoint allowed now).exec s.db)
  | .rotate tenant pk allowed tokenHash =>
    s.commit ((rotateToken tenant pk allowed tokenHash).exec s.db)
  | .tenants tenants => { s with db := { s.db with tenants } }

def Step (s : System) (e : Event) (t : System) : Prop := t = s.next e

/-- No source yet. -/
structure Initial (s : System) : Prop where
  sources : s.db.sources.rows = []
  snapshots : s.db.snapshots.rows = []
  accepted : s.accepted = []

/-! ## The invariant -/

/-- A row is the receipt of an accepted snapshot. -/
structure ReceiptOf (row : WsusSnapshot) (a : Accepted) : Prop where
  source : row.source = a.source
  snapshotId : row.snapshotId = a.data.snapshotId
  digest : row.digest = a.data.digest
  observedAt : row.observedAt = a.data.observedAt

/-- What holds of the receipts in every reachable state. -/
structure Inv (s : System) : Prop where
  newest : ∀ source, NewestFirst (s.db.receipts source)
  unique : ∀ source, ((s.db.receipts source).map WsusSnapshot.snapshotId).Nodup
  current : ∀ source ∈ s.db.sources.rows, ∀ id, source.currentSnapshot = some id →
    ∃ row, s.db.snapshots.get? id = some row ∧ (s.db.receipts source.id).head? = some row
  retained : ∀ source, ∀ row ∈ s.db.receipts source, s.db.HasData row →
    row ∈ (s.db.receipts source).take 3
  receipted : ∀ a ∈ s.accepted, ∃ row ∈ s.db.receipts a.source, ReceiptOf row a
  logged : ∀ source, ∀ row ∈ s.db.receipts source, ∃ a ∈ s.accepted, ReceiptOf row a

variable {s : System}

theorem Inv.init (h : Initial s) : Inv s := by
  have hreceipts : ∀ source, s.db.receipts source = [] := by
    intro source
    unfold Db.receipts
    rw [h.snapshots]
    rfl
  constructor
  · intro source
    rw [hreceipts]
    exact List.Pairwise.nil
  · intro source
    rw [hreceipts]
    exact List.nodup_nil
  · intro source hsource
    rw [h.sources] at hsource
    cases hsource
  · intro source row hrow
    rw [hreceipts] at hrow
    cases hrow
  · intro a ha
    rw [h.accepted] at ha
    cases ha
  · intro source row hrow
    rw [hreceipts] at hrow
    cases hrow

variable {id : String} {now : Time}

variable {data : SnapshotData} {db' : Db}

section
variable {s t : System} {source : UpdateSource}

theorem Inv.latest (h : Inv s) (hsource : source ∈ s.db.sources.rows) :
    s.db.latest source = (s.db.receipts source.id).head? := by
  unfold Db.latest
  cases hcurrent : source.currentSnapshot with
  | none => rw [newestFirst_eq (h.newest source.id)]
  | some id =>
    obtain ⟨row, hrow, hhead⟩ := h.current source hsource id hcurrent
    exact hrow.trans hhead.symm

theorem Inv.published_newer (h : Inv s) (hsource : source ∈ s.db.sources.rows)
    (hpublished : Published s.db source data id now db') :
    ∀ row ∈ s.db.receipts source.id, row.observedAt < data.observedAt := by
  intro row hrow
  cases hreceipts : s.db.receipts source.id with
  | nil =>
    rw [hreceipts] at hrow
    cases hrow
  | cons first rest =>
    have hlatest := h.latest hsource
    rw [hreceipts] at hlatest
    have hfirst := hpublished.newer first hlatest
    have hsorted := h.newest source.id
    rw [hreceipts] at hsorted hrow
    exact Int.lt_of_le_of_lt (hsorted.head row hrow) hfirst

/-- Other tables leave the receipts as they are. -/
theorem Inv.congr (h : Inv s) (hsnapshots : t.db.snapshots = s.db.snapshots)
    (hcomputers : t.db.computers = s.db.computers) (haccepted : t.accepted = s.accepted)
    (hsources : ∀ source ∈ t.db.sources.rows, ∀ id, source.currentSnapshot = some id →
      ∃ old ∈ s.db.sources.rows, old.id = source.id ∧ old.currentSnapshot = some id) : Inv t := by
  have hreceipts : ∀ src, t.db.receipts src = s.db.receipts src := by
    intro src
    unfold Db.receipts
    rw [hsnapshots]
  constructor
  · intro src
    rw [hreceipts]
    exact h.newest src
  · intro src
    rw [hreceipts]
    exact h.unique src
  · intro source hsource id hid
    obtain ⟨old, hold, hsame, hcurrent⟩ := hsources source hsource id hid
    obtain ⟨row, hrow, hhead⟩ := h.current old hold id hcurrent
    refine ⟨row, by rw [hsnapshots]; exact hrow, ?_⟩
    rw [hreceipts, ← hsame]
    exact hhead
  · intro src row hrow hdata
    rw [hreceipts] at hrow ⊢
    refine h.retained src row hrow ?_
    unfold Db.HasData at hdata ⊢
    rwa [hcomputers] at hdata
  · intro a ha
    rw [haccepted] at ha
    rw [hreceipts]
    exact h.receipted a ha
  · intro src row hrow
    rw [hreceipts] at hrow
    rw [haccepted]
    exact h.logged src row hrow

end

/-! ## A published snapshot -/

section
variable {db : Db} {source : UpdateSource} {data : SnapshotData} {id : String} {now : Time}
  {snapshots : Table WsusSnapshot String WsusSnapshot.id}

theorem receipts_withSnapshot
    (hinsert : db.snapshots.insert (newSnapshot source.id data id now) = some snapshots)
    (src : String) :
    (db.withSnapshot source data id snapshots).receipts src =
      if source.id = src then newSnapshot source.id data id now :: db.receipts src
      else db.receipts src := by
  have hrows := (insert_eq_some hinsert).2
  have hsource : ((newSnapshot source.id data id now).source == src) = (source.id == src) := rfl
  show snapshots.rows.filter _ = _
  rw [hrows, List.filter_cons, hsource]
  by_cases hsame : source.id = src
  · rw [if_pos (beq_iff_eq.mpr hsame), if_pos hsame]
    rfl
  · rw [if_neg (fun h => hsame (beq_iff_eq.mp h)), if_neg hsame]
    rfl

theorem hasData_withSnapshot
    (hinsert : db.snapshots.insert (newSnapshot source.id data id now) = some snapshots)
    (hrow : row ∈ db.snapshots.rows) (h : (db.withSnapshot source data id snapshots).HasData row) :
    db.HasData row := by
  rcases h with hupdates | ⟨r, hr, hid⟩
  · exact .inl hupdates
  · rcases List.mem_append.mp hr with hnew | hold
    · obtain ⟨c, -, rfl⟩ := List.mem_map.mp hnew
      -- the reports of the new snapshot stand under a free identifier
      have hfree := get?_eq_none.mp (insert_eq_some hinsert).1 row hrow
      exact absurd hid.symm hfree
    · exact .inr ⟨r, hold, hid⟩

end

section
variable {s : System} {source : UpdateSource} {data : SnapshotData} {id : String} {now : Time}
  {db' : Db}

variable {snapshots : Table WsusSnapshot String WsusSnapshot.id}

theorem Inv.newest_withSnapshot (h : Inv s) (hsource : source ∈ s.db.sources.rows)
    (hpublished : Published s.db source data id now db')
    (hinsert : s.db.snapshots.insert (newSnapshot source.id data id now) = some snapshots)
    (src : String) : NewestFirst ((s.db.withSnapshot source data id snapshots).receipts src) := by
  rw [receipts_withSnapshot hinsert]
  split
  · next hsame =>
      subst hsame
      exact List.pairwise_cons.mpr ⟨h.published_newer hsource hpublished, h.newest source.id⟩
  · exact h.newest src

theorem Inv.retained_withSnapshot (h : Inv s) (hsource : source ∈ s.db.sources.rows)
    (hpublished : Published s.db source data id now db')
    (hinsert : s.db.snapshots.insert (newSnapshot source.id data id now) = some snapshots)
    {src : String} (hrow : row ∈ (s.db.withSnapshot source data id snapshots).receipts src)
    (hdata : (s.db.withSnapshot source data id snapshots).HasData row)
    (hkept : (s.db.withSnapshot source data id snapshots).pruned source.id row = false) :
    row ∈ ((s.db.withSnapshot source data id snapshots).receipts src).take 3 := by
  obtain ⟨hmem, hsrc⟩ := mem_receipts.mp hrow
  by_cases hsame : source.id = src
  · -- the source itself: all but the newest three were dropped
    subst hsame
    unfold Db.pruned at hkept
    rw [hsrc, beq_self_eq_true, Bool.true_and, Bool.not_eq_false', List.contains_iff_mem] at hkept
    unfold Db.keep at hkept
    rw [newestFirst_eq (h.newest_withSnapshot hsource hpublished hinsert source.id)] at hkept
    obtain ⟨kept, hkept, hid⟩ := List.mem_map.mp hkept
    obtain ⟨hkeptMem, -⟩ := mem_receipts.mp (List.mem_of_mem_take hkept)
    rw [row_unique hmem hkeptMem hid.symm]
    exact hkept
  · -- another source: nothing of it has changed
    rw [receipts_withSnapshot hinsert, if_neg hsame] at hrow ⊢
    exact h.retained src row hrow (hasData_withSnapshot hinsert (mem_receipts.mp hrow).1 hdata)

/-- A publication keeps the invariant. -/
theorem Inv.publish (h : Inv s) (hsource : source ∈ s.db.sources.rows)
    (hpublished : Published s.db source data id now db') :
    Inv { db := db', accepted := ⟨source.id, data⟩ :: s.accepted } := by
  obtain ⟨snapshots, hinsert, rfl⟩ := hpublished.result
  have hnewest := h.newest_withSnapshot hsource hpublished hinsert
  have hreceipts : ∀ src, (s.db.withSnapshot source data id snapshots).receipts src =
      if source.id = src then newSnapshot source.id data id now :: s.db.receipts src
      else s.db.receipts src := receipts_withSnapshot hinsert
  constructor
  · intro src
    show NewestFirst (Db.receipts (Db.prune _ _) src)
    rw [receipts_prune]
    exact newestFirst_map_stripped (hnewest src)
  · intro src
    show ((Db.receipts (Db.prune _ _) src).map _).Nodup
    rw [receipts_prune, List.map_map]
    have hids : (WsusSnapshot.snapshotId ∘
        (s.db.withSnapshot source data id snapshots).stripped source.id) =
        WsusSnapshot.snapshotId := funext fun _ => stripped_snapshotId
    rw [hids, hreceipts]
    split
    · next hsame =>
        subst hsame
        rw [List.map_cons, List.nodup_cons]
        refine ⟨fun hmem => ?_, h.unique source.id⟩
        obtain ⟨row, hrow, hid⟩ := List.mem_map.mp hmem
        exact prior_eq_none.mp hpublished.fresh row hrow hid
    · exact h.unique src
  · intro src hsrc cid hcid
    show ∃ row, (Db.prune _ _).snapshots.get? cid = some row ∧
      (Db.receipts (Db.prune _ _) src.id).head? = some row
    rw [receipts_prune, hreceipts, get?_prune]
    rcases mem_save.mp hsrc with ⟨hold, hother⟩ | ⟨rfl, -⟩
    · obtain ⟨row, hrow, hhead⟩ := h.current src hold cid hcid
      rw [if_neg (fun heq => hother heq.symm), List.head?_map, hhead]
      refine ⟨_, ?_, rfl⟩
      have hne : cid ≠ (newSnapshot source.id data id now).id := by
        intro heq
        rw [heq, (insert_eq_some hinsert).1] at hrow
        cases hrow
      show (snapshots.get? cid).map _ = _
      rw [get?_insert hinsert, if_neg hne, hrow]
      rfl
    · cases hcid
      rw [if_pos rfl, List.map_cons, List.head?_cons]
      refine ⟨_, ?_, rfl⟩
      have hnew : snapshots.get? id = some (newSnapshot source.id data id now) :=
        (get?_insert hinsert id).trans (if_pos rfl)
      show (snapshots.get? id).map _ = _
      rw [hnew]
      rfl
  · intro src row hrow hdata
    replace hrow : row ∈ Db.receipts (Db.prune _ _) src := hrow
    show row ∈ (Db.receipts (Db.prune _ _) src).take 3
    rw [receipts_prune] at hrow ⊢
    obtain ⟨old, hold, rfl⟩ := List.mem_map.mp hrow
    obtain ⟨hdata, hkept⟩ := hasData_prune (mem_receipts.mp hold).1 hdata
    rw [← List.map_take]
    exact List.mem_map_of_mem
      (h.retained_withSnapshot hsource hpublished hinsert hold hdata hkept)
  · intro a ha
    show ∃ row ∈ Db.receipts (Db.prune _ _) a.source, _
    rw [receipts_prune, hreceipts]
    rcases List.mem_cons.mp ha with rfl | ha
    · rw [if_pos rfl]
      exact ⟨_, List.mem_map_of_mem List.mem_cons_self, by simp; rfl, by simp; rfl, by simp; rfl,
        by simp; rfl⟩
    · obtain ⟨row, hrow, hof⟩ := h.receipted a ha
      have hmem : row ∈ if source.id = a.source then
          newSnapshot source.id data id now :: s.db.receipts a.source
          else s.db.receipts a.source := by
        split
        · exact List.mem_cons_of_mem _ hrow
        · exact hrow
      refine ⟨_, List.mem_map_of_mem hmem, ?_⟩
      exact ⟨by simpa using hof.source, by simpa using hof.snapshotId, by simpa using hof.digest,
        by simpa using hof.observedAt⟩
  · intro src row hrow
    replace hrow : row ∈ Db.receipts (Db.prune _ _) src := hrow
    rw [receipts_prune, hreceipts] at hrow
    obtain ⟨old, hold, rfl⟩ := List.mem_map.mp hrow
    have hfound : ∃ a ∈ (⟨source.id, data⟩ :: s.accepted : List Accepted), ReceiptOf old a := by
      split at hold
      · rcases List.mem_cons.mp hold with rfl | hold
        · exact ⟨_, List.mem_cons_self, rfl, rfl, rfl, rfl⟩
        · obtain ⟨a, ha, hof⟩ := h.logged src old hold
          exact ⟨a, List.mem_cons_of_mem _ ha, hof⟩
      · obtain ⟨a, ha, hof⟩ := h.logged src old hold
        exact ⟨a, List.mem_cons_of_mem _ ha, hof⟩
    obtain ⟨a, ha, hof⟩ := hfound
    exact ⟨a, ha, by simpa using hof.source, by simpa using hof.snapshotId,
      by simpa using hof.digest, by simpa using hof.observedAt⟩

end

/-! ## Every step keeps the invariant -/

section
variable {s t : System}

variable {tenant pk : String} {allowed : Bool}

theorem selectedSource_ok {db : Db} {source : UpdateSource}
    (h : (selectedSource tenant pk allowed).exec db = .ok (source, db')) :
    db' = db ∧ source ∈ db.sources.rows := by
  have hyields : Yields (selectedSource tenant pk allowed)
      (fun source db' => db' = db ∧ source ∈ db.sources.rows) db := by
    unfold selectedSource
    simp only [yields_bind, yields_get, yields_throwIf]
    intro _ _
    split
    · rw [yields_throw]
      trivial
    · next source hsource =>
        rw [yields_pure]
        exact ⟨rfl, get?_mem (Option.eq_some_of_filter_eq_some hsource)⟩
  exact hyields source db' h

theorem Inv.save (h : Inv s) {source changed : UpdateSource} (hsource : source ∈ s.db.sources.rows)
    (hid : changed.id = source.id)
    (hcurrent : changed.currentSnapshot = source.currentSnapshot ∨ changed.currentSnapshot = none) :
    Inv { s with db := { s.db with sources := s.db.sources.save changed } } := by
  refine h.congr rfl rfl rfl fun src hsrc cid hcid => ?_
  rcases mem_save.mp hsrc with ⟨hold, -⟩ | ⟨rfl, -⟩
  · exact ⟨src, hold, rfl, hcid⟩
  · rcases hcurrent with hsame | hnone
    · exact ⟨source, hsource, hid.symm, hsame.symm.trans hcid⟩
    · rw [hnone] at hcid
      cases hcid

theorem UpdateSource.change_id (source : UpdateSource) (enabled : Option Bool)
    (endpoint : Option Endpoint) (now : Time) : (source.change enabled endpoint now).id = source.id := by
  unfold UpdateSource.change
  cases endpoint with
  | none => rfl
  | some e =>
    simp only
    split <;> rfl

theorem UpdateSource.change_current (source : UpdateSource) (enabled : Option Bool)
    (endpoint : Option Endpoint) (now : Time) :
    (source.change enabled endpoint now).currentSnapshot = source.currentSnapshot ∨
      (source.change enabled endpoint now).currentSnapshot = none := by
  unfold UpdateSource.change
  cases endpoint with
  | none => exact .inl rfl
  | some e =>
    simp only
    split
    · exact .inl rfl
    · exact .inr rfl

theorem Inv.commit (h : Inv s) {request : Request Unit}
    (hrequest : request.Yields (fun _ db => Inv { s with db }) s.db) :
    Inv (s.commit (request.exec s.db)) := by
  unfold System.commit
  cases hresult : request.exec s.db with
  | error e => exact h
  | ok r => exact hrequest r.1 r.2 hresult

variable {endpoint : Option Endpoint} {tokenHash : String}

theorem Inv.createSource (h : Inv s) {name scope : String} :
    Inv (s.next (.create tenant name scope endpoint allowed id tokenHash)) := by
  refine h.commit ?_
  unfold Updates.createSource
  simp only [yields_bind, yields_get, yields_throwIf]
  intro _ _ _
  split
  · rw [yields_throw]
    trivial
  · next sources hinsert =>
      rw [yields_set]
      refine h.congr rfl rfl rfl fun src hsrc cid hcid => ?_
      replace hsrc : src ∈ sources.rows := hsrc
      rw [(insert_eq_some hinsert).2, List.mem_cons] at hsrc
      rcases hsrc with rfl | hold
      · cases hcid
      · exact ⟨src, hold, rfl, hcid⟩

theorem Inv.patchSource (h : Inv s) {enabled : Option Bool} :
    Inv (s.next (.patch tenant pk enabled endpoint allowed now)) := by
  refine h.commit ?_
  unfold Updates.patchSource
  rw [yields_bind]
  intro source db' hselected
  obtain ⟨rfl, hsource⟩ := selectedSource_ok hselected
  simp only [yields_bind, yields_throwIf, yields_modify]
  intro _
  exact h.save hsource (source.change_id enabled endpoint now)
    (source.change_current enabled endpoint now)

theorem Inv.rotateToken (h : Inv s) : Inv (s.next (.rotate tenant pk allowed tokenHash)) := by
  refine h.commit ?_
  unfold Updates.rotateToken
  rw [yields_bind]
  intro source db' hselected
  obtain ⟨rfl, hsource⟩ := selectedSource_ok hselected
  rw [yields_modify]
  exact h.save hsource rfl (.inl rfl)

theorem Inv.submit (h : Inv s) {auth : AuthSource} : Inv (s.next (.submit auth data id now)) := by
  unfold System.next
  simp only
  split
  · next row created db hresult =>
      obtain ⟨source, hadmitted, ⟨_, -, -, hr, rfl⟩ | ⟨hr, hpublished⟩⟩ := receive_cases hresult
      · cases hr
        exact h
      · cases hr
        have hsource := get?_mem hadmitted.found
        rw [← get?_key hadmitted.found]
        exact h.publish hsource hpublished
  · exact h

theorem Step.inv {e : Event} (h : Step s e t) (hs : Inv s) : Inv t := by
  rw [h]
  cases e with
  | submit auth data id now => exact hs.submit
  | create tenant name scope endpoint allowed id tokenHash => exact hs.createSource
  | patch tenant pk enabled endpoint allowed now => exact hs.patchSource
  | rotate tenant pk allowed tokenHash => exact hs.rotateToken
  | tenants tenants => exact hs.congr rfl rfl rfl fun src hsrc cid hcid => ⟨src, hsrc, rfl, hcid⟩

end

/-! ## What a step and a state promise -/

/-- An accepted snapshot is newer than all its source accepted, and becomes the current one. -/
def Increases (s : System) : Event → Prop
  | .submit auth data id now => ∀ row db,
      (receive auth data id now).exec s.db = .ok ((row, true), db) →
        (∀ a ∈ s.accepted, a.source = auth.id → a.data.observedAt < data.observedAt) ∧
        (∀ source cid old, s.db.sources.get? auth.id = some source →
          source.currentSnapshot = some cid → s.db.snapshots.get? cid = some old →
            old.observedAt < data.observedAt) ∧
        ∃ source new, db.sources.get? auth.id = some source ∧ source.currentSnapshot = some id ∧
          db.snapshots.get? id = some new ∧ new.observedAt = data.observedAt
  | _ => True

/-- Under the identifier and the digest of an accepted snapshot nothing changes. -/
def ReplaysInert (s : System) : Event → Prop
  | .submit auth data id now => ∀ a ∈ s.accepted, a.source = auth.id →
      a.data.snapshotId = data.snapshotId → a.data.digest = data.digest →
        s.next (.submit auth data id now) = s
  | _ => True

/-- Under the identifier of an accepted snapshot other content is rejected. -/
def RejectsReuse (s : System) : Event → Prop
  | .submit auth data id now => ∀ a ∈ s.accepted, a.source = auth.id →
      a.data.snapshotId = data.snapshotId → a.data ≠ data →
        ∃ e, (receive auth data id now).exec s.db = .error e
  | _ => True

/-- Only the newest three snapshots of a source have data. -/
def RetainsNewest (s : System) : Prop :=
  ∀ source, ∀ row ∈ s.db.receipts source, s.db.HasData row →
    row ∈ (Db.newestFirst (s.db.receipts source)).take 3

/-- No admitted submission brings other content of the same digest under an accepted identifier. -/
def NoMaskedReuse (s : System) : Event → Prop
  | .submit auth data _ now => ∀ a ∈ s.accepted, a.source = auth.id →
      a.data.snapshotId = data.snapshotId → a.data ≠ data → a.data.digest = data.digest →
        ∀ source, ¬Admitted s.db auth data now source
  | _ => True

/-- What the reception promises over a run. -/
structure Ingests (s : System) (es : List Event) (t : System) : Prop where
  increases : ∀ u e, Run.Takes Step s es t u e → Increases u e
  replays : ∀ u e, Run.Takes Step s es t u e → ReplaysInert u e
  reuse : ∀ u e, Run.Takes Step s es t u e → RejectsReuse u e
  retains : ∀ u, Run.Visits Step s es t u → RetainsNewest u

section
variable {s t : System} {auth : AuthSource} {data : SnapshotData} {id : String} {now : Time}

theorem Inv.prior (h : Inv s) {a : Accepted} (ha : a ∈ s.accepted)
    (hid : a.data.snapshotId = snapshotId) :
    ∃ row, s.db.prior a.source snapshotId = some row ∧ row ∈ s.db.receipts a.source ∧
      ReceiptOf row a := by
  obtain ⟨row, hrow, hof⟩ := h.receipted a ha
  cases hprior : s.db.prior a.source snapshotId with
  | none => exact absurd (hof.snapshotId.trans hid) (prior_eq_none.mp hprior row hrow)
  | some found =>
    obtain ⟨hfound, hsame⟩ := prior_eq_some hprior
    have heq : found = row := List.inj_on_of_nodup_map (h.unique a.source) hfound hrow
      (hsame.trans (hof.snapshotId.trans hid).symm)
    subst heq
    exact ⟨found, rfl, hrow, hof⟩

theorem Inv.increases (h : Inv s) (e : Event) : Increases s e := by
  cases e with
  | submit auth data id now =>
    intro row db hresult
    obtain ⟨source, hadmitted, ⟨_, -, -, hr, -⟩ | ⟨-, hpublished⟩⟩ := receive_cases hresult
    · cases hr
    · have hsource := get?_mem hadmitted.found
      have hkey := get?_key hadmitted.found
      have hnewer := h.published_newer hsource hpublished
      rw [hkey] at hnewer
      refine ⟨fun a ha hauth => ?_, fun source' cid old hsource' hcid hold => ?_, ?_⟩
      · obtain ⟨receipt, hreceipt, hof⟩ := h.receipted a ha
        rw [hauth] at hreceipt
        rw [← hof.observedAt]
        exact hnewer receipt hreceipt
      · rw [hadmitted.found] at hsource'
        cases hsource'
        obtain ⟨receipt, hreceipt, hhead⟩ := h.current source hsource cid hcid
        rw [hold] at hreceipt
        cases hreceipt
        rw [hkey] at hhead
        exact hnewer old (List.mem_of_head? hhead)
      · obtain ⟨snapshots, hinsert, rfl⟩ := hpublished.result
        refine ⟨{ source with currentSnapshot := some id },
          (s.db.withSnapshot source data id snapshots).stripped source.id
            (newSnapshot source.id data id now), ?_, rfl, ?_, by simp; rfl⟩
        · have hfound : s.db.sources.get? source.id = some source := by
            rw [hkey]
            exact hadmitted.found
          have hsaved := get?_save_self (a := { source with currentSnapshot := some id })
            hfound
          rw [← hkey]
          exact hsaved
        · rw [get?_prune]
          have hnew : snapshots.get? id = some (newSnapshot source.id data id now) :=
            (get?_insert hinsert id).trans (if_pos rfl)
          show (snapshots.get? id).map _ = _
          rw [hnew]
          rfl
  | _ => trivial

theorem Inv.replaysInert (h : Inv s) (e : Event) : ReplaysInert s e := by
  cases e with
  | submit auth data id now =>
    intro a ha hauth hid hdigest
    unfold System.next
    simp only
    split
    · next row created db hresult =>
        obtain ⟨source, hadmitted, ⟨_, -, -, hr, rfl⟩ | ⟨-, hpublished⟩⟩ := receive_cases hresult
        · cases hr
          rfl
        · obtain ⟨receipt, hprior, -⟩ := h.prior ha hid
          have hfresh := hpublished.fresh
          rw [get?_key hadmitted.found, ← hauth, hprior] at hfresh
          cases hfresh
    · rfl
  | _ => trivial

theorem Inv.rejectsReuse_iff (h : Inv s) (e : Event) : RejectsReuse s e ↔ NoMaskedReuse s e := by
  cases e with
  | submit auth data id now =>
    constructor
    · intro hrejects a ha hauth hid hne hdigest source hadmitted
      obtain ⟨row, hprior, -, hof⟩ := h.prior ha hid
      rw [hauth, ← get?_key hadmitted.found] at hprior
      have hreplay : (receive auth data id now).exec s.db = .ok ((row, false), s.db) :=
        receive_replay hadmitted hprior (hof.digest.trans hdigest)
      obtain ⟨error, herror⟩ := hrejects a ha hauth hid hne
      rw [hreplay] at herror
      cases herror
    · intro hmasked a ha hauth hid hne
      cases hresult : (receive auth data id now).exec s.db with
      | error error => exact ⟨error, rfl⟩
      | ok r =>
        obtain ⟨row, hprior, -, hof⟩ := h.prior ha hid
        obtain ⟨source, hadmitted, hcases⟩ := receive_cases hresult
        rw [hauth, ← get?_key hadmitted.found] at hprior
        rcases hcases with ⟨found, hfound, hdigest, -⟩ | ⟨-, hpublished⟩
        · rw [hprior] at hfound
          cases hfound
          exact absurd hadmitted
            (hmasked a ha hauth hid hne (hof.digest.symm.trans hdigest) source)
        · rw [hpublished.fresh] at hprior
          cases hprior
  | _ => exact Iff.rfl

theorem Inv.retainsNewest (h : Inv s) : RetainsNewest s := by
  intro source row hrow hdata
  rw [newestFirst_eq (h.newest source)]
  exact h.retained source row hrow hdata

end

/-- Over every run the reception keeps its promises, exactly if no admitted submission reuses an
accepted identifier with other content of the same digest. -/
theorem ingests_iff {s t : System} {es : List Event} (hinit : Initial s) (h : Run Step s es t) :
    Ingests s es t ↔ ∀ u e, Run.Takes Step s es t u e → NoMaskedReuse u e := by
  have hinv : ∀ u, Run.Visits Step s es t u → Inv u := by
    rintro u ⟨before, after, -, hbefore, -⟩
    exact hbefore.preserves (fun _ _ _ hstep hs => hstep.inv hs) (Inv.init hinit)
  have htakes : ∀ u e, Run.Takes Step s es t u e → Inv u := by
    rintro u e ⟨before, v, after, rfl, hu, hv, ht⟩
    exact hinv u ⟨before, e :: after, rfl, hu, .cons hv ht⟩
  constructor
  · intro hingests u e hue
    exact ((htakes u e hue).rejectsReuse_iff e).mp (hingests.reuse u e hue)
  · intro hmasked
    exact ⟨fun u e hue => (htakes u e hue).increases e,
      fun u e hue => (htakes u e hue).replaysInert e,
      fun u e hue => ((htakes u e hue).rejectsReuse_iff e).mpr (hmasked u e hue),
      fun u hu => (hinv u hu).retainsNewest⟩

/-! ### Snapshots a microsecond apart -/

/-- A tenant without sources. -/
def sampleSystem : System where
  db := {
    tenants := .single ⟨"t", .active, .infrastructure⟩
    sources := .empty
    snapshots := .empty
    computers := [] }
  accepted := []

/-- An empty snapshot of a time. -/
def sampleData (observedAt : Time) : SnapshotData where
  schemaVersion := 1
  snapshotId := "00000000-0000-4000-8000-000000000001"
  observedAt := observedAt
  complete := true
  scope := "All computers"
  updates := []
  computers := []

/-- The source is created. -/
def sampleCreation : Event := .create "t" "WSUS" "All computers" none true "s" "h"

/-- The source submits the snapshot of a time. -/
def sampleSubmission (id : String) (observedAt : Time) : Event :=
  .submit ⟨"s", "t", "h"⟩ (sampleData observedAt) id 1789036245200000

theorem sampleSystem_initial : Initial sampleSystem := ⟨rfl, rfl, rfl⟩

theorem commit_accepted (s : System) (result : Except ServerError (Unit × Db)) :
    (s.commit result).accepted = s.accepted := by
  unfold System.commit
  split <;> rfl

theorem accepted_sample {t : System} {es : List Event} (h : Run Step s es t)
    (hes : ∀ e ∈ es, ∀ auth data id now, e = .submit auth data id now → data = sampleData 0)
    (hs : ∀ a ∈ s.accepted, a.data = sampleData 0) : ∀ a ∈ t.accepted, a.data = sampleData 0 := by
  refine h.preserves_of (I := fun s => ∀ a ∈ s.accepted, a.data = sampleData 0)
    (fun u e v huv he hu => ?_) hes hs
  rw [show v = u.next e from huv]
  cases e with
  | submit auth data id now =>
    have hdata := he auth data id now rfl
    unfold System.next
    simp only
    split
    · next row created db hresult =>
        intro a ha
        cases created with
        | true =>
          rcases List.mem_cons.mp ha with rfl | ha
          · exact hdata
          · exact hu a ha
        | false => exact hu a ha
    · exact hu
  | create tenant name scope endpoint allowed id tokenHash
  | patch tenant pk enabled endpoint allowed now | rotate tenant pk allowed tokenHash =>
    exact (commit_accepted u _).symm ▸ hu
  | tenants tenants => exact hu

/-- A snapshot submitted twice. -/
theorem ingests_sample :
    Ingests sampleSystem [sampleCreation, sampleSubmission "r" 0, sampleSubmission "q" 0]
      (((sampleSystem.next sampleCreation).next (sampleSubmission "r" 0)).next
        (sampleSubmission "q" 0)) := by
  refine (ingests_iff sampleSystem_initial
    (.cons rfl (.cons rfl (.cons rfl (.nil _))))).mpr ?_
  rintro u e ⟨before, v, after, hes, hu, -, -⟩
  have hall : ∀ e ∈ [sampleCreation, sampleSubmission "r" 0, sampleSubmission "q" 0],
      ∀ auth data id now, e = .submit auth data id now → data = sampleData 0 := by
    intro e he auth data id now heq
    simp only [List.mem_cons, List.not_mem_nil, or_false] at he
    rcases he with rfl | rfl | rfl
    · cases heq
    · cases heq
      rfl
    · cases heq
      rfl
  have haccepted := accepted_sample hu
    (fun e he => hall e (by rw [hes]; exact List.mem_append_left _ he)) (by nofun)
  have hmem : e ∈ [sampleCreation, sampleSubmission "r" 0, sampleSubmission "q" 0] := by
    rw [hes]
    exact List.mem_append_right _ List.mem_cons_self
  cases e with
  | submit auth data id now =>
    intro a ha _ _ hne
    exact absurd ((haccepted a ha).trans (hall _ hmem auth data id now rfl).symm) hne
  | _ => trivial

/-- The state behind the first submission. -/
def sampleReceived (observedAt : Time) : System :=
  (sampleSystem.next sampleCreation).next (sampleSubmission "r" observedAt)

theorem sampleData_digest :
    (sampleData 1789036245123456).digest = (sampleData 1789036245123457).digest := by
  have htime : encodeTime 1789036245123456 = encodeTime 1789036245123457 := by decide +kernel
  have hjson : (sampleData 1789036245123456).toJson = (sampleData 1789036245123457).toJson := by
    unfold SnapshotData.toJson sampleData
    rw [htime]
  unfold SnapshotData.digest
  rw [hjson]

/-- Reused with an observation a microsecond later, an identifier is answered with its receipt. -/
theorem reuse_masked :
    ¬Ingests sampleSystem [sampleCreation, sampleSubmission "r" 1789036245123456,
        sampleSubmission "q" 1789036245123457]
      ((sampleReceived 1789036245123456).next (sampleSubmission "q" 1789036245123457)) := by
  intro h
  have hreuse := h.reuse (sampleReceived 1789036245123456) (sampleSubmission "q" 1789036245123457)
    ⟨[sampleCreation, sampleSubmission "r" 1789036245123456], _, [], rfl,
      .cons rfl (.cons rfl (.nil _)), rfl, .nil _⟩
  have haccepted : (sampleReceived 1789036245123456).accepted =
      [⟨"s", sampleData 1789036245123456⟩] := rfl
  obtain ⟨e, he⟩ := hreuse ⟨"s", sampleData 1789036245123456⟩
    (by rw [haccepted]; exact List.mem_singleton_self _) rfl rfl (by decide)
  have hadmitted : Admitted (sampleReceived 1789036245123456).db ⟨"s", "t", "h"⟩
      (sampleData 1789036245123457) 1789036245200000
      { id := "s", tenant := "t", name := "WSUS", scope := "All computers", wsusHost := ""
        wsusPort := 8531, wsusUseSsl := true, wsusChangedAt := none, enabled := true
        tokenHash := "h", currentSnapshot := some "r" } :=
    ⟨by decide, ⟨_, rfl, rfl⟩, rfl, rfl, rfl, rfl⟩
  have hprior : (sampleReceived 1789036245123456).db.prior "s" (sampleData 0).snapshotId =
      some (newSnapshot "s" (sampleData 1789036245123456) "r" 1789036245200000) := rfl
  rw [receive_replay hadmitted hprior sampleData_digest] at he
  cases he

end Ipms.Server.Updates
