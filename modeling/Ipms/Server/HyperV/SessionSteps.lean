import Ipms.Server.HyperV.JobSteps

/-
  Ipms.Server.HyperV.SessionSteps

  What the requests do to the table of console sessions.  A session that is over
  keeps its status, a browser's claim stays the one it is, and a lease is moved
  only while it can be renewed; only a creation adds a session, to a machine that
  no other one occupies.  The requests about jobs leave the sessions alone.
-/

namespace Ipms.Server.HyperV

open Ipms.Lib Ipms.ManagementJson Table State

/-! ## A later row -/

/-- A later row of a session, where the clock was `now` at the earlier one. -/
structure SessionKept (now : Time) (x y : ConsoleSession) : Prop where
  tenant : y.tenant = x.tenant
  enrollment : y.enrollment = x.enrollment
  machine : y.vmSourceId = x.vmSourceId
  settled : x.status.isOpen = false → y.status = x.status
  claim : x.browserClaim.isSome = true → y.browserClaim = x.browserClaim
  lease : y.leaseExpiresAt = x.leaseExpiresAt ∨ now ≤ x.leaseExpiresAt

namespace SessionKept

variable {now : Time} {x y z : ConsoleSession}

theorem refl (now : Time) (x : ConsoleSession) : SessionKept now x x :=
  ⟨rfl, rfl, rfl, fun _ => rfl, fun _ => rfl, .inl rfl⟩

theorem isOpen (h : SessionKept now x y) (hy : y.status.isOpen = true) :
    x.status.isOpen = true := by
  cases hx : x.status.isOpen with
  | true => rfl
  | false =>
    rw [h.settled hx, hx] at hy
    cases hy

theorem trans {later : Time} (hnow : now ≤ later) (h : SessionKept now x y)
    (h' : SessionKept later y z) : SessionKept now x z where
  tenant := h'.tenant.trans h.tenant
  enrollment := h'.enrollment.trans h.enrollment
  machine := h'.machine.trans h.machine
  settled hx := by
    have hy : y.status = x.status := h.settled hx
    rw [h'.settled (by rw [hy, hx]), hy]
  claim hx := by
    have hy : y.browserClaim = x.browserClaim := h.claim hx
    rw [h'.claim (by rw [hy]; exact hx), hy]
  lease := by
    rcases h.lease with hsame | hlease
    · rcases h'.lease with hsame' | hlease'
      · exact .inl (hsame'.trans hsame)
      · rw [hsame] at hlease'
        exact .inr (Int.le_trans hnow hlease')
    · exact .inr hlease

theorem of_steps (h : Relation.ReflTransGen (SessionKept now) x y) : SessionKept now x y := by
  induction h with
  | refl => exact .refl now x
  | tail _ hstep ih => exact ih.trans (Int.le_refl now) hstep

theorem finish (hopen : x.status.isOpen = true) (status : SessionStatus) (failureCode : String)
    (time : Time) : SessionKept now x (x.finish status failureCode time) where
  tenant := rfl
  enrollment := rfl
  machine := rfl
  settled h := by rw [hopen] at h; cases h
  claim _ := rfl
  lease := .inl rfl

theorem expire (selected : ConsoleSession → Bool) (now : Time) (x : ConsoleSession) :
    SessionKept now x (x.expire selected now) := by
  unfold ConsoleSession.expire
  split
  · next hstale =>
      simp only [ConsoleSession.stale, Bool.and_eq_true] at hstale
      exact .finish hstale.1.1 .expired "browser_lease_expired" now
  · exact .refl now x

end SessionKept

/-! ## The requests -/

/-- The sessions took steps, and none was created. -/
def SessionsKept (s t : State) : Prop :=
  s.sessions.Evolves (SessionKept s.now) (fun _ => False) t.sessions

variable {s t : State}

namespace SessionsKept

theorem of_eq (h : t.sessions = s.sessions) : SessionsKept s t := by
  unfold SessionsKept
  rw [h]
  exact .refl s.sessions

theorem trans {u : State} (h : SessionsKept s t) (hnow : t.now = s.now) (h' : SessionsKept t u) :
    SessionsKept s u := by
  unfold SessionsKept at h' ⊢
  rw [hnow] at h'
  exact Evolves.trans h h'

theorem saveSession {s : State} {x y : ConsoleSession} (hx : s.sessions.get? y.id = some x)
    (h : SessionKept s.now x y) : SessionsKept s (s.saveSession y) :=
  Evolves.save hx h

theorem back (h : SessionsKept s t) {y : ConsoleSession} (hy : y ∈ t.sessions.rows) :
    ∃ x ∈ s.sessions.rows, s.sessions.get? y.id = some x ∧ SessionKept s.now x y := by
  have hget : t.sessions.get? y.id = some y := get?_of_mem hy
  cases hx : s.sessions.get? y.id with
  | none =>
    obtain ⟨a, ha, -⟩ := h.made y.id y hx hget
    exact ha.elim
  | some x =>
    obtain ⟨y', hy', hsteps⟩ := h.kept y.id x hx
    rw [hget] at hy'
    cases hy'
    exact ⟨x, get?_mem hx, rfl, SessionKept.of_steps hsteps⟩

end SessionsKept

namespace State

variable {s t : State}

theorem sessions_expireStaleSessions (selected : ConsoleSession → Bool) :
    SessionsKept s (s.expireStaleSessions selected) :=
  Evolves.mapRows (ConsoleSession.expire_id selected s.now)
    (SessionKept.expire selected s.now)

variable {x : ConsoleSession} {id : String}

theorem sessions_renewConsoleSession {actor : String} {owner : Option Nat}
    (h : s.renewConsoleSession id actor owner = .ok (t, x)) : SessionsKept s t ∧ t.now = s.now := by
  unfold renewConsoleSession at h
  obtain ⟨y, hy, h⟩ := bind_eq_ok.mp h
  rw [found_eq_ok] at hy
  split at h
  · next hopen =>
      obtain ⟨-, -, h⟩ := bind_eq_ok.mp h
      cases h
      refine ⟨SessionsKept.saveSession (x := y) ?_ ?_, rfl⟩
      · have hid : (s.renewed y).id = y.id := by
          unfold renewed ConsoleSession.finish extend
          split
          · rfl
          · split <;> rfl
        rw [hid, get?_key hy]
        exact hy
      · unfold renewed
        split
        · exact .finish hopen .expired "browser_lease_expired" s.now
        · next hlease =>
            split
            · have hover : y.status.isOpen = false → (extend y s.now).status = y.status :=
                fun _ => rfl
              exact ⟨rfl, rfl, rfl, hover, fun _ => rfl, .inr (Int.not_lt.mp hlease)⟩
            · exact .refl s.now y
  · cases h
    exact ⟨.of_eq rfl, rfl⟩

theorem sessions_closeConsoleSession {actor : String} {owner : Option Nat}
    (h : s.closeConsoleSession id actor owner = .ok (t, x)) : SessionsKept s t ∧ t.now = s.now := by
  unfold closeConsoleSession at h
  obtain ⟨y, hy, h⟩ := bind_eq_ok.mp h
  rw [found_eq_ok] at hy
  split at h
  · next hopen =>
      obtain ⟨-, -, h⟩ := bind_eq_ok.mp h
      cases h
      refine ⟨SessionsKept.saveSession (x := y) ?_ (.finish hopen .closed y.failureCode s.now), rfl⟩
      rw [← get?_key hy] at hy
      exact hy
  · cases h
    exact ⟨.of_eq rfl, rfl⟩

theorem sessions_consoleAuthorityAllowed (hx : s.sessions.get? x.id = some x)
    (hopen : x.status.isOpen = true) :
    SessionsKept s (s.consoleAuthorityAllowed x).1 ∧ (s.consoleAuthorityAllowed x).1.now = s.now ∧
      ((s.consoleAuthorityAllowed x).2 = true → (s.consoleAuthorityAllowed x).1 = s) := by
  unfold consoleAuthorityAllowed
  split
  · exact ⟨.of_eq rfl, rfl, fun _ => rfl⟩
  · refine ⟨SessionsKept.saveSession (x := x) hx ?_, rfl, nofun⟩
    exact .finish hopen .closed "requester_permission_revoked" s.now

theorem sessions_consoleAssignment (hx : s.sessions.get? x.id = some x)
    (hopen : x.status.isOpen = true) (includeInputs : Bool) :
    SessionsKept s (s.consoleAssignment x includeInputs).1 ∧
      (s.consoleAssignment x includeInputs).1.now = s.now := by
  obtain ⟨hkept, hnow, -⟩ := sessions_consoleAuthorityAllowed hx hopen
  unfold consoleAssignment
  split
  · next t hfalse =>
      rw [hfalse] at hkept hnow
      exact ⟨hkept, hnow⟩
  · split <;> exact ⟨.of_eq rfl, rfl⟩

variable {c : FrameCycle}

theorem contacted_kept {y : ConsoleSession} (hopen : x.status.isOpen = true)
    (h : s.contacted x c = .ok y) : y.id = x.id ∧ SessionKept s.now x y := by
  have hover : x.status.isOpen = false → y.status = x.status :=
    fun hover => by rw [hopen] at hover; cases hover
  unfold contacted at h
  simp only at h
  split at h
  · obtain ⟨-, -, h⟩ := bind_eq_ok.mp h
    cases h
    exact ⟨rfl, rfl, rfl, rfl, hover, fun _ => rfl, .inl rfl⟩
  · split at h
    · cases h
      exact ⟨rfl, rfl, rfl, rfl, hover, fun _ => rfl, .inl rfl⟩
    · obtain ⟨-, -, h⟩ := bind_eq_ok.mp h
      obtain ⟨png, -, h⟩ := bind_eq_ok.mp h
      split at h <;> cases h <;> exact ⟨rfl, rfl, rfl, rfl, hover, fun _ => rfl, .inl rfl⟩

variable {e : Enrollment}

theorem sessions_reportSession (h : s.reportSession e c = .ok t) :
    SessionsKept s t ∧ t.now = s.now := by
  unfold reportSession at h
  simp only [bind_eq_ok, found_eq_ok, Option.filter_eq_some_iff] at h
  obtain ⟨x, ⟨hx, -⟩, -, -, ids, -, h⟩ := h
  rw [← get?_key hx] at hx
  have hx' : (s.acknowledge x.id ids).sessions.get? x.id = some x := hx
  split at h
  · next hopen =>
      obtain ⟨hkept, hnow, hsame⟩ := sessions_consoleAuthorityAllowed hx' hopen
      split at h
      · next u hu =>
          rw [hu] at hkept hnow
          cases h
          exact ⟨hkept, hnow⟩
      · next u hu =>
          rw [hu] at hsame
          have hu' : u = s.acknowledge x.id ids := hsame rfl
          subst hu'
          obtain ⟨y, hy, h⟩ := bind_eq_ok.mp h
          cases h
          obtain ⟨hid, hkept'⟩ := contacted_kept hopen hy
          refine ⟨?_, rfl⟩
          exact Evolves.save (o := x) (by rw [hid]; exact hx') hkept'
  · cases h
    exact ⟨.of_eq rfl, rfl⟩

theorem nextSession_open (h : s.nextSession e = some x) :
    s.sessions.get? x.id = some x ∧ x.status.isOpen = true := by
  have hmem := mem_of_foldl_choice h fun best y => by
    cases best with
    | none => exact .inr rfl
    | some b =>
      simp only
      split
      · exact .inr rfl
      · exact .inl rfl
  obtain ⟨hrow, hselected⟩ := List.mem_filter.mp hmem
  simp only [Bool.and_eq_true] at hselected
  exact ⟨get?_of_mem hrow, hselected.2⟩

variable {assignment : Option Assignment}

theorem sessions_processConsoleCycle (h : s.processConsoleCycle e c = .ok (t, assignment)) :
    SessionsKept s t ∧ t.now = s.now := by
  have hexpired := sessions_expireStaleSessions (s := s) fun _ => true
  obtain ⟨u, hu, h⟩ := processConsoleCycle_cases h
  have hkept : SessionsKept s u ∧ u.now = s.now := by
    rcases hu with ⟨-, rfl⟩ | ⟨-, hu⟩
    · exact ⟨hexpired, rfl⟩
    · obtain ⟨hreport, hnow⟩ := sessions_reportSession hu
      exact ⟨hexpired.trans rfl hreport, hnow⟩
  rcases h with ⟨rfl, -⟩ | ⟨x, hx, h⟩
  · exact hkept
  · obtain ⟨hget, hopen⟩ := nextSession_open hx
    obtain ⟨hassign, hnow⟩ := sessions_consoleAssignment hget hopen c.includeInputs
    rw [h] at hassign hnow
    exact ⟨hkept.1.trans hkept.2 hassign, hnow.trans hkept.2⟩

theorem sessions_settleInput {c : InputCycle} (h : s.settleInput e c = .ok t) :
    SessionsKept s t ∧ t.now = s.now := by
  unfold settleInput at h
  simp only [bind_eq_ok, found_eq_ok, Option.filter_eq_some_iff] at h
  obtain ⟨x, ⟨hx, -⟩, -, -, h⟩ := h
  rw [← get?_key hx] at hx
  split at h
  · next hfailed =>
      cases h
      refine ⟨?_, rfl⟩
      exact Evolves.save (t := s.sessions) (o := x) hx
        (.finish hfailed.2 .failed c.failureCode s.now)
  · cases h
    exact ⟨.of_eq rfl, rfl⟩

theorem pendingSession_open (h : s.pendingSession e = some x) :
    s.sessions.get? x.id = some x ∧ x.status.isOpen = true := by
  unfold pendingSession at h
  obtain ⟨event, hevent, hx⟩ := Option.bind_eq_some_iff.mp h
  have hmem := (List.mem_insertionSort _).mp (List.mem_of_mem_head? hevent)
  have htakes := (List.mem_filter.mp hmem).2
  rw [hx, Option.any_some] at htakes
  simp only [takesInput, Bool.and_eq_true] at htakes
  exact ⟨get?_of_mem (get?_mem hx), htakes.1.1.2⟩

/-- An accepted cycle: the leases that ran out, and the result of a batch or the next one. -/
theorem processConsoleInputCycle_cases {c : InputCycle} {active : Bool}
    (h : s.processConsoleInputCycle e c = .ok (t, active, assignment)) :
    ∃ u, (u = s ∨ u = s.expireStaleSessions
        fun x => x.enrollment == e.id && x.tenant == e.tenant) ∧
      (c.sessionId ≠ "" ∧ u.settleInput e c = .ok t ∧ assignment = none ∨
        c.sessionId = "" ∧ u.pendingSession e = none ∧ t = u ∧ assignment = none ∨
        c.sessionId = "" ∧ ∃ x, u.pendingSession e = some x ∧
          u.consoleAssignment x true = (t, assignment)) := by
  unfold processConsoleInputCycle at h
  simp only [bind_eq_ok] at h
  obtain ⟨tenant, -, -, -, h⟩ := h
  refine ⟨if c.expireStale then
      s.expireStaleSessions fun x => x.enrollment == e.id && x.tenant == e.tenant else s, ?_, ?_⟩
  · split
    · exact .inr rfl
    · exact .inl rfl
  · split at h
    · next hid =>
        obtain ⟨u, hu, h⟩ := bind_eq_ok.mp h
        cases h
        exact .inl ⟨hid, hu, rfl⟩
    · next hid =>
        rw [not_not] at hid
        split at h
        · next hnone =>
            cases h
            exact .inr (.inl ⟨hid, hnone, rfl, rfl⟩)
        · next x hx =>
            cases h
            exact .inr (.inr ⟨hid, x, hx, rfl⟩)

theorem sessions_processConsoleInputCycle {c : InputCycle} {active : Bool}
    (h : s.processConsoleInputCycle e c = .ok (t, active, assignment)) :
    SessionsKept s t ∧ t.now = s.now := by
  obtain ⟨u, hu, h⟩ := processConsoleInputCycle_cases h
  have hkept : SessionsKept s u ∧ u.now = s.now := by
    rcases hu with rfl | rfl
    · exact ⟨.of_eq rfl, rfl⟩
    · exact ⟨sessions_expireStaleSessions _, rfl⟩
  obtain ⟨-, hsettle, -⟩ | ⟨-, -, rfl, -⟩ | ⟨-, x, hx, hassign⟩ := h
  · obtain ⟨hsettled, hnow⟩ := sessions_settleInput hsettle
    exact ⟨hkept.1.trans hkept.2 hsettled, hnow.trans hkept.2⟩
  · exact hkept
  · obtain ⟨hget, hopen⟩ := pendingSession_open hx
    obtain ⟨hassigned, hnow⟩ := sessions_consoleAssignment hget hopen true
    rw [hassign] at hassigned hnow
    exact ⟨hkept.1.trans hkept.2 hassigned, hnow.trans hkept.2⟩

theorem validateSession_ok (h : s.validateSession x = .ok ()) :
    x.status.isOpen = true ∧ s.now < x.leaseExpiresAt := by
  unfold validateSession at h
  obtain ⟨⟨⟩, hchecked, -⟩ := bind_eq_ok.mp h
  rw [throwIf_eq_ok] at hchecked
  simp only [not_or, Bool.not_eq_false] at hchecked
  exact ⟨hchecked.2.1, Int.not_le.mp hchecked.2.2.1⟩

theorem claimed_kept {x y : ConsoleSession} {r : BrowserRequest} {newClaim : String}
    (h : claimed x r newClaim = .ok y) (now : Time) :
    y.id = x.id ∧ y.leaseExpiresAt = x.leaseExpiresAt ∧ SessionKept now x y := by
  unfold claimed at h
  split at h
  · obtain ⟨⟨⟩, hfree, h⟩ := bind_eq_ok.mp h
    rw [throwIf_eq_ok] at hfree
    cases h
    exact ⟨rfl, rfl, rfl, rfl, rfl, fun _ => rfl, fun hclaim => absurd hclaim hfree, .inl rfl⟩
  · obtain ⟨-, -, h⟩ := bind_eq_ok.mp h
    cases h
    exact ⟨rfl, rfl, .refl now x⟩

theorem sessions_authorizeBrowser {newClaim : String} {r : BrowserRequest} {later : Time}
    (h : s.authorizeBrowser id r newClaim later = .ok (t, x)) : SessionsKept s t := by
  unfold authorizeBrowser at h
  simp only [bind_eq_ok, found_eq_ok, Option.filter_eq_some_iff] at h
  obtain ⟨-, -, user, -, y, ⟨hy, -⟩, ⟨⟩, hvalid, h⟩ := h
  obtain ⟨hopen, hlease⟩ := validateSession_ok hvalid
  rw [← get?_key hy] at hy
  split at h
  · cases h
    exact .of_eq rfl
  · obtain ⟨z, hz, h⟩ := bind_eq_ok.mp h
    cases h
    obtain ⟨hid, hsame, hkept⟩ := claimed_kept hz s.now
    split
    · refine SessionsKept.saveSession (x := y) (by rw [← hid] at hy; exact hy) ?_
      exact ⟨hkept.tenant, hkept.enrollment, hkept.machine, hkept.settled, hkept.claim,
        .inr (Int.le_of_lt hlease)⟩
    · exact SessionsKept.saveSession (by rw [hid]; exact hy) hkept

theorem sessions_recordNativeContact (id generation : String) :
    SessionsKept s (s.recordNativeContact id generation) ∧
      (s.recordNativeContact id generation).now = s.now := by
  unfold recordNativeContact
  split
  · exact ⟨.of_eq rfl, rfl⟩
  · next x hx =>
      obtain ⟨hget, -⟩ := Option.filter_eq_some_iff.mp hx
      rw [← get?_key hget] at hget
      refine ⟨SessionsKept.saveSession (x := x) hget ?_, rfl⟩
      exact ⟨rfl, rfl, rfl, fun _ => rfl, fun _ => rfl, .inl rfl⟩

theorem sessions_markNativeReady {claim : String} (h : s.markNativeReady id claim = .ok t) :
    SessionsKept s t ∧ t.now = s.now := by
  unfold markNativeReady at h
  simp only [bind_eq_ok, found_eq_ok, Option.filter_eq_some_iff, Bool.and_eq_true] at h
  obtain ⟨x, ⟨hget, ⟨-, hopen⟩, -⟩, h⟩ := h
  rw [← get?_key hget] at hget
  cases h
  refine ⟨SessionsKept.saveSession (x := x) hget ?_, rfl⟩
  have hover : x.status.isOpen = false → SessionStatus.active = x.status := by
    intro hover
    rw [hopen] at hover
    cases hover
  exact ⟨rfl, rfl, rfl, hover, fun _ => rfl, .inl rfl⟩

theorem sessions_closeNative {claim failure : String} (h : s.closeNative id claim failure = .ok t) :
    SessionsKept s t ∧ t.now = s.now := by
  unfold closeNative at h
  simp only [bind_eq_ok, found_eq_ok, Option.filter_eq_some_iff] at h
  obtain ⟨x, ⟨hget, -⟩, h⟩ := h
  rw [← get?_key hget] at hget
  split at h
  · next hopen =>
      cases h
      refine ⟨SessionsKept.saveSession (x := x) hget ?_, rfl⟩
      exact .finish hopen (if failure = "" then .closed else .failed) failure s.now
  · cases h
    exact ⟨.of_eq rfl, rfl⟩

/-! ## The requests about jobs -/

variable {findings : Findings}

theorem sessions_offerManagementJob {document : Option JobDocument}
    (h : s.offerManagementJob e findings = .ok (t, document)) :
    t.sessions = s.sessions ∧ t.now = s.now := by
  unfold offerManagementJob at h
  obtain ⟨tenant, -, h⟩ := bind_eq_ok.mp h
  split at h
  · cases h
    exact ⟨rfl, rfl⟩
  · split at h
    · cases h
      exact ⟨rfl, rfl⟩
    · split at h
      · cases h
        exact ⟨rfl, rfl⟩
      · split at h
        · cases h
          exact ⟨rfl, rfl⟩
        · obtain ⟨code, -, h⟩ := bind_eq_ok.mp h
          cases h
          exact ⟨rfl, rfl⟩

theorem sessions_claimManagementJob {jobId inputDigest : String} {reply : ClaimReply}
    (h : s.claimManagementJob e jobId inputDigest findings = .ok (t, reply)) :
    t.sessions = s.sessions ∧ t.now = s.now := by
  obtain ⟨job, -, ⟨rfl, -⟩ | ⟨-, -, -, -, rfl⟩ | ⟨code, -, -, rfl⟩⟩ := claimManagementJob_cases h
  · exact ⟨rfl, rfl⟩
  · exact ⟨rfl, rfl⟩
  · exact ⟨rfl, rfl⟩

theorem sessions_recordManagementResult {jobId : String} {r : Result} {job : ManagementJob}
    (h : s.recordManagementResult e jobId r findings = .ok (t, job)) :
    t.sessions = s.sessions ∧ t.now = s.now := by
  obtain ⟨old, -, ⟨rfl, -⟩ | ⟨-, -, -, -, hsessions, hnow, -⟩⟩ := recordManagementResult_cases h
  · exact ⟨rfl, rfl⟩
  · exact ⟨hsessions, hnow⟩

theorem sessions_createManagementJob {r : JobRequest} {job : ManagementJob}
    (h : s.createManagementJob id r findings = .ok (t, job)) :
    t.sessions = s.sessions ∧ t.now = s.now := by
  obtain ⟨rfl, -⟩ | ⟨-, vm, host, e, jobs, -, -, -, -, rfl⟩ := createManagementJob_cases h
  · exact ⟨rfl, rfl⟩
  · exact ⟨rfl, rfl⟩

/-- A session is inserted: no session of its machine is open, and no job changes it. -/
def SessionAdded (s t : State) : Prop :=
  ∃ u x, SessionsKept s u ∧ u.sessions.insert x = some t.sessions ∧
    (∀ y ∈ u.sessions.rows, y.status.isOpen = true → y.tenant = x.tenant →
      y.vmSourceId ≠ x.vmSourceId) ∧
    ∀ j ∈ s.jobs.rows, j.status.active = true → j.tenant = x.tenant →
      j.enrollment = x.enrollment → j.vmSourceId = x.vmSourceId → j.operation = .inspect

/-- An accepted creation: the machine is occupied, or a session is inserted. -/
theorem createConsoleSession_cases {generation : String} {r : SessionRequest}
    {session : Except ConsoleSession ConsoleSession}
    (h : s.createConsoleSession id generation r = .ok (t, session)) :
    t.now = s.now ∧ (SessionsKept s t ∨ SessionAdded s t) := by
  unfold createConsoleSession at h
  obtain ⟨⟨vm, e⟩, hchecked, h⟩ := bind_eq_ok.mp h
  have hfree : ∀ j ∈ s.activeManagementJobs vm.tenant e.id vm.sourceId, j.operation = .inspect := by
    unfold checkNewSession at hchecked
    simp only [bind_eq_ok, throwIf_eq_ok] at hchecked
    obtain ⟨tenant, -, -, -, vm', -, host, -, e', -, -, hjobs, -, -, -, -, -, -, -, -, h⟩ := hchecked
    cases h
    simpa using hjobs
  have hexpired := sessions_expireStaleSessions (s := s)
    fun x => x.tenant == vm.tenant && x.vmSourceId == vm.sourceId
  simp only at h
  split at h
  · cases h
    exact ⟨rfl, .inl hexpired⟩
  · next hnone =>
      obtain ⟨sessions, hinsert, h⟩ := bind_eq_ok.mp h
      rw [found_eq_ok] at hinsert
      cases h
      refine ⟨rfl, .inr ⟨_, _, hexpired, hinsert, ?_, ?_⟩⟩
      · intro y hy hopen htenant hmachine
        have hy' := List.find?_eq_none.mp hnone y hy
        simp only [Bool.and_eq_true, beq_iff_eq, not_and] at hy'
        exact hy' ⟨htenant, hmachine⟩ hopen
      · intro j hj hactive htenant henrollment hmachine
        apply hfree j
        rw [activeManagementJobs, List.mem_filter]
        simp only [Bool.and_eq_true, beq_iff_eq]
        exact ⟨hj, ⟨⟨htenant, hactive⟩, henrollment⟩, hmachine⟩

end State

theorem Step.now_le {l : Event × Reply} (h : Step s l t) : s.now ≤ t.now := by
  cases h.did with
  | change hlater => exact hlater
  | createJob hu => exact (sessions_createManagementJob hu).2 ▸ Int.le_refl _
  | withdrawJobs => exact Int.le_refl _
  | offerJob hu => exact (sessions_offerManagementJob hu).2 ▸ Int.le_refl _
  | claimJob hu => exact (sessions_claimManagementJob hu).2 ▸ Int.le_refl _
  | reportJob hu => exact (sessions_recordManagementResult hu).2 ▸ Int.le_refl _
  | createSession hu | occupied hu => exact (createConsoleSession_cases hu).1 ▸ Int.le_refl _
  | renewSession hu => exact (sessions_renewConsoleSession hu).2 ▸ Int.le_refl _
  | closeSession hu => exact (sessions_closeConsoleSession hu).2 ▸ Int.le_refl _
  | queueInput hu => exact (tables_queueConsoleInput hu).2.2 ▸ Int.le_refl _
  | frameCycle hu => exact (sessions_processConsoleCycle hu).2 ▸ Int.le_refl _
  | inputCycle hu => exact (sessions_processConsoleInputCycle hu).2 ▸ Int.le_refl _
  | authorizeBrowser htimely _ => exact htimely
  | nativeContact => exact (sessions_recordNativeContact _ _).2 ▸ Int.le_refl _
  | nativeReady hu => exact (sessions_markNativeReady hu).2 ▸ Int.le_refl _
  | nativeClose hu => exact (sessions_closeNative hu).2 ▸ Int.le_refl _

theorem Step.sessions {l : Event × Reply} (h : Step s l t) :
    SessionsKept s t ∨ SessionAdded s t := by
  cases h.did with
  | change | withdrawJobs => exact .inl (.of_eq rfl)
  | createJob hu => exact .inl (.of_eq (sessions_createManagementJob hu).1)
  | offerJob hu => exact .inl (.of_eq (sessions_offerManagementJob hu).1)
  | claimJob hu => exact .inl (.of_eq (sessions_claimManagementJob hu).1)
  | reportJob hu => exact .inl (.of_eq (sessions_recordManagementResult hu).1)
  | createSession hu | occupied hu => exact (createConsoleSession_cases hu).2
  | renewSession hu => exact .inl (sessions_renewConsoleSession hu).1
  | closeSession hu => exact .inl (sessions_closeConsoleSession hu).1
  | queueInput hu => exact .inl (.of_eq (tables_queueConsoleInput hu).2.1)
  | frameCycle hu => exact .inl (sessions_processConsoleCycle hu).1
  | inputCycle hu => exact .inl (sessions_processConsoleInputCycle hu).1
  | authorizeBrowser _ hu =>
    have hkept := sessions_authorizeBrowser hu
    exact .inl hkept
  | nativeContact => exact .inl (sessions_recordNativeContact _ _).1
  | nativeReady hu => exact .inl (sessions_markNativeReady hu).1
  | nativeClose hu => exact .inl (sessions_closeNative hu).1

end Ipms.Server.HyperV
