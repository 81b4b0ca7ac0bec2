import Ipms.Server.HyperV.SessionSteps

/-
  Ipms.Server.HyperV.InputSteps

  What the requests do to the queue of console input.  An event stays with its
  session until it is acknowledged, and only `queueConsoleInput` adds one; what an
  agent is handed are events of one open session.
-/

namespace Ipms.Server.HyperV

open Ipms.Lib Ipms.ManagementJson State

/-- The events are ones that were there, each with its session. -/
def InputsKept (s t : State) : Prop :=
  ∀ event ∈ t.inputs.rows, ∃ old ∈ s.inputs.rows, old.id = event.id ∧ old.session = event.session

variable {s t : State}

namespace InputsKept

theorem of_eq (h : t.inputs = s.inputs) : InputsKept s t := by
  intro event hevent
  rw [h] at hevent
  exact ⟨event, hevent, rfl, rfl⟩

theorem trans {u : State} (h : InputsKept s t) (h' : InputsKept t u) : InputsKept s u := by
  intro event hevent
  obtain ⟨old, hold, hid, hsession⟩ := h' event hevent
  obtain ⟨older, holder, hid', hsession'⟩ := h old hold
  exact ⟨older, holder, hid'.trans hid, hsession'.trans hsession⟩

end InputsKept

namespace State

variable {s t : State}

theorem inputs_acknowledge (session : String) (ids : List String) :
    InputsKept s (s.acknowledge session ids) := by
  intro event hevent
  exact ⟨event, List.mem_of_mem_filter hevent, rfl, rfl⟩

variable {event : InputEvent} {id session : String}

theorem not_mem_acknowledge {ids : List String} (hid : id ∈ ids)
    (h : event ∈ (s.acknowledge session ids).inputs.rows) (hevent : event.id = id) :
    event.session ≠ session := by
  have hkept := (List.mem_filter.mp h).2
  intro hsession
  rw [hsession, hevent, List.contains_iff_mem.mpr hid] at hkept
  simp at hkept

theorem inputs_consoleAuthorityAllowed (x : ConsoleSession) :
    (s.consoleAuthorityAllowed x).1.inputs = s.inputs := by
  unfold consoleAuthorityAllowed
  split <;> rfl

theorem handOut_session (ids : List String) (now : Time) (event : InputEvent) :
    (handOut ids now event).session = event.session := by
  unfold handOut
  split <;> rfl

variable {assignment : Option Assignment} {x : ConsoleSession}

/-- What is handed out are events of the session, each once. -/
theorem consoleAssignment_inputs {includeInputs : Bool}
    (h : s.consoleAssignment x includeInputs = (t, assignment)) :
    InputsKept s t ∧ ∀ a, assignment = some a → a.sessionId = x.id ∧
      (a.inputs.map InputEvent.id).Nodup ∧
      ∀ event ∈ a.inputs, event ∈ s.inputs.rows ∧ event.session = x.id := by
  unfold consoleAssignment at h
  split at h
  · next u hu =>
      have hsame := inputs_consoleAuthorityAllowed (s := s) x
      rw [hu] at hsame
      cases h
      exact ⟨.of_eq hsame, nofun⟩
  · split at h
    · cases h
      refine ⟨.of_eq rfl, ?_⟩
      rintro a ⟨⟩
      exact ⟨rfl, List.nodup_nil, nofun⟩
    · cases h
      refine ⟨?_, ?_⟩
      · intro event hevent
        obtain ⟨old, hold, rfl⟩ := List.mem_map.mp hevent
        exact ⟨old, hold, (handOut_id _ _ old).symm, (handOut_session _ _ old).symm⟩
      · rintro a ⟨⟩
        refine ⟨rfl, ?_, ?_⟩
        · show ((if includeInputs = true then (s.inputQueue x.id).take 64 else []).map
            InputEvent.id).Nodup
          split
          · have hperm := List.perm_insertionSort (fun a b => inputBefore a b = true)
              (s.inputs.rows.filter (·.session == x.id))
            have hqueue : ((s.inputQueue x.id).map InputEvent.id).Nodup :=
              (hperm.map _).nodup_iff.mpr (s.inputs.nodup.sublist (List.filter_sublist.map _))
            exact hqueue.sublist ((List.take_sublist _ _).map _)
          · exact List.nodup_nil
        · intro event hevent
          have hqueued : event ∈ s.inputQueue x.id := by
            split at hevent
            · exact List.mem_of_mem_take hevent
            · cases hevent
          have hmem := (List.mem_insertionSort _).mp hqueued
          rw [List.mem_filter, beq_iff_eq] at hmem
          exact hmem

variable {e : Enrollment}

theorem inputs_reportSession {c : FrameCycle} (h : s.reportSession e c = .ok t) :
    InputsKept s t := by
  unfold reportSession at h
  simp only [bind_eq_ok] at h
  obtain ⟨x, -, -, -, ids, -, h⟩ := h
  have hacknowledged := inputs_acknowledge (s := s) x.id ids
  have hauthority := inputs_consoleAuthorityAllowed (s := s.acknowledge x.id ids) x
  split at h
  · split at h
    · next u hu =>
        rw [hu] at hauthority
        cases h
        exact hacknowledged.trans (.of_eq hauthority)
    · next u hu =>
        rw [hu] at hauthority
        obtain ⟨y, -, h⟩ := bind_eq_ok.mp h
        cases h
        exact hacknowledged.trans (.of_eq hauthority)
  · cases h
    exact hacknowledged

theorem inputs_processConsoleCycle {c : FrameCycle}
    (h : s.processConsoleCycle e c = .ok (t, assignment)) : InputsKept s t := by
  obtain ⟨u, hu, h⟩ := processConsoleCycle_cases h
  have hkept : InputsKept s u := by
    rcases hu with ⟨-, rfl⟩ | ⟨-, hu⟩
    · exact .of_eq rfl
    · have hreport := inputs_reportSession hu
      exact hreport
  rcases h with ⟨rfl, -⟩ | ⟨x, -, h⟩
  · exact hkept
  · exact hkept.trans (consoleAssignment_inputs h).1

variable {c : InputCycle}

theorem settleInput_settles (h : s.settleInput e c = .ok t) : InputsKept s t ∧
      (∀ event ∈ t.inputs.rows, event.session = c.sessionId → event.id ∉ c.acknowledged) ∧
      (c.failureCode ≠ "" →
        ∃ x, t.sessions.get? c.sessionId = some x ∧ x.status.isOpen = false) := by
  unfold settleInput at h
  simp only [bind_eq_ok, found_eq_ok, Option.filter_eq_some_iff] at h
  obtain ⟨x, ⟨hx, -⟩, -, -, h⟩ := h
  have hid : x.id = c.sessionId := Table.get?_key hx
  have hkept := inputs_acknowledge (s := s) x.id c.acknowledged
  have hgone : ∀ event ∈ (s.acknowledge x.id c.acknowledged).inputs.rows,
      event.session = c.sessionId → event.id ∉ c.acknowledged := by
    intro event hevent hsession hacknowledged
    exact not_mem_acknowledge hacknowledged hevent rfl (hsession.trans hid.symm)
  split at h
  · cases h
    refine ⟨hkept, hgone, fun _ => ?_⟩
    refine ⟨x.finish .failed c.failureCode s.now, ?_, rfl⟩
    rw [← hid] at hx ⊢
    exact Table.get?_save_self (a := x.finish .failed c.failureCode s.now) hx
  · next hnot =>
      cases h
      refine ⟨hkept, hgone, fun hfailure => ⟨x, hx, ?_⟩⟩
      by_contra hopen
      exact hnot ⟨hfailure, Bool.eq_true_of_not_eq_false hopen⟩

variable {active : Bool}

/-- A poll hands out events of one open session, each once. -/
theorem processConsoleInputCycle_polls (hpoll : c.sessionId = "")
    (h : s.processConsoleInputCycle e c = .ok (t, active, assignment)) :
    InputsKept s t ∧ ∀ a, assignment = some a → (a.inputs.map InputEvent.id).Nodup ∧
      ∀ event ∈ a.inputs, (∃ old ∈ s.inputs.rows, old.id = event.id ∧ old.session = a.sessionId) ∧
        ∃ x, s.sessions.get? a.sessionId = some x ∧ x.status.isOpen = true := by
  obtain ⟨u, hu, h⟩ := processConsoleInputCycle_cases h
  have hinputs : u.inputs = s.inputs := by
    rcases hu with rfl | rfl <;> rfl
  have hsessions : SessionsKept s u := by
    rcases hu with rfl | rfl
    · exact .of_eq rfl
    · exact sessions_expireStaleSessions _
  obtain ⟨hid, -, -⟩ | ⟨-, -, rfl, rfl⟩ | ⟨-, x, hx, hassign⟩ := h
  · exact absurd hpoll hid
  · exact ⟨.of_eq hinputs, nofun⟩
  · obtain ⟨hget, hopen⟩ := pendingSession_open hx
    obtain ⟨hkept, hbatch⟩ := consoleAssignment_inputs hassign
    refine ⟨(InputsKept.of_eq hinputs).trans hkept, ?_⟩
    intro a ha
    obtain ⟨hsession, hnodup, hrows⟩ := hbatch a ha
    refine ⟨hnodup, fun event hevent => ⟨?_, ?_⟩⟩
    · obtain ⟨hrow, hevent⟩ := hrows event hevent
      rw [hinputs] at hrow
      exact ⟨event, hrow, rfl, hevent.trans hsession.symm⟩
    · obtain ⟨old, -, hold, hlater⟩ := hsessions.back (Table.get?_mem hget)
      refine ⟨old, ?_, hlater.isOpen hopen⟩
      rw [hsession]
      exact hold

theorem inputs_processConsoleInputCycle
    (h : s.processConsoleInputCycle e c = .ok (t, active, assignment)) : InputsKept s t := by
  obtain ⟨u, hu, h⟩ := processConsoleInputCycle_cases h
  have hkept : InputsKept s u := by
    rcases hu with rfl | rfl <;> exact .of_eq rfl
  obtain ⟨-, hsettle, -⟩ | ⟨-, -, rfl, -⟩ | ⟨-, x, -, hassign⟩ := h
  · exact hkept.trans (settleInput_settles hsettle).1
  · exact hkept
  · exact hkept.trans (consoleAssignment_inputs hassign).1

theorem processConsoleInputCycle_settles (hsession : c.sessionId ≠ "")
    (h : s.processConsoleInputCycle e c = .ok (t, active, assignment)) :
    (∀ event ∈ t.inputs.rows, event.session = c.sessionId → event.id ∉ c.acknowledged) ∧
      (c.failureCode ≠ "" →
        ∃ x, t.sessions.get? c.sessionId = some x ∧ x.status.isOpen = false) := by
  obtain ⟨u, -, h⟩ := processConsoleInputCycle_cases h
  obtain ⟨-, hsettle, -⟩ | ⟨hid, -⟩ | ⟨hid, -⟩ := h
  · exact (settleInput_settles hsettle).2
  · exact absurd hid hsession
  · exact absurd hid hsession

theorem inputs_authorizeBrowser {newClaim : String} {r : BrowserRequest} {later : Time}
    (h : s.authorizeBrowser id r newClaim later = .ok (t, x)) : t.inputs = s.inputs := by
  unfold authorizeBrowser at h
  simp only [bind_eq_ok] at h
  obtain ⟨-, -, user, -, y, -, -, -, h⟩ := h
  split at h
  · cases h
    rfl
  · obtain ⟨z, -, h⟩ := bind_eq_ok.mp h
    cases h
    rfl

theorem inputs_createConsoleSession {generation : String} {r : SessionRequest}
    {session : Except ConsoleSession ConsoleSession}
    (h : s.createConsoleSession id generation r = .ok (t, session)) : t.inputs = s.inputs := by
  unfold createConsoleSession at h
  obtain ⟨⟨vm, e⟩, -, h⟩ := bind_eq_ok.mp h
  simp only at h
  split at h
  · cases h
    rfl
  · obtain ⟨sessions, -, h⟩ := bind_eq_ok.mp h
    cases h
    rfl

variable {actor : String}

theorem inputs_renewConsoleSession {owner : Option Nat}
    (h : s.renewConsoleSession id actor owner = .ok (t, x)) : t.inputs = s.inputs := by
  unfold renewConsoleSession at h
  obtain ⟨y, -, h⟩ := bind_eq_ok.mp h
  split at h
  · obtain ⟨-, -, h⟩ := bind_eq_ok.mp h
    cases h
    rfl
  · cases h
    rfl

theorem inputs_closeConsoleSession {owner : Option Nat}
    (h : s.closeConsoleSession id actor owner = .ok (t, x)) : t.inputs = s.inputs := by
  unfold closeConsoleSession at h
  obtain ⟨y, -, h⟩ := bind_eq_ok.mp h
  split at h
  · obtain ⟨-, -, h⟩ := bind_eq_ok.mp h
    cases h
    rfl
  · cases h
    rfl

theorem mem_latestInputs :
    event ∈ s.latestInputs session ↔ event ∈ s.inputs.rows ∧ event.session = session ∧
      ∀ other ∈ s.inputs.rows, other.session = session → other.createdAt ≤ event.createdAt := by
  unfold latestInputs
  simp only [List.mem_filter, List.all_eq_true, beq_iff_eq, decide_eq_true_eq, and_imp]
  exact ⟨fun h => ⟨h.1.1, h.1.2, h.2⟩, fun h => ⟨⟨h.1, h.2.1⟩, h.2.2⟩⟩

theorem mem_of_latestInput (h : s.latestInput session = some event) :
    event ∈ s.inputs.rows ∧ event.session = session ∧
      ∀ other ∈ s.inputs.rows, other.session = session → other.createdAt ≤ event.createdAt := by
  rw [← mem_latestInputs]
  rcases Option.or_eq_some_iff.mp h with h | ⟨-, h⟩
  · exact List.mem_of_getElem? h
  · exact List.mem_of_mem_head? h

theorem inputs_queueConsoleInput {eventType : String} {payload : Value}
    (h : s.queueConsoleInput id session actor eventType payload = .ok (t, event)) :
    ∀ event ∈ t.inputs.rows, event.id = id ∨
      ∃ old ∈ s.inputs.rows, old.id = event.id ∧ old.session = event.session := by
  unfold queueConsoleInput at h
  simp only [bind_eq_ok, found_eq_ok] at h
  obtain ⟨x, -, -, -, -, -, -, -, validated, -, h⟩ := h
  split at h
  · next last hlast =>
      cases h
      intro event hevent
      refine .inr ?_
      rcases Table.mem_save.mp hevent with ⟨hrow, -⟩ | ⟨rfl, -⟩
      · exact ⟨event, hrow, rfl, rfl⟩
      · -- the moved event is a latest one of the session
        have hmem := mem_of_latestInput (Option.filter_eq_some_iff.mp hlast).1
        exact ⟨last, hmem.1, rfl, rfl⟩
  · simp only [bind_eq_ok, found_eq_ok] at h
    obtain ⟨-, -, inputs, hinsert, h⟩ := h
    cases h
    intro event hevent
    rw [(Table.insert_eq_some hinsert).2, List.mem_cons] at hevent
    rcases hevent with rfl | hrow
    · exact .inl rfl
    · exact .inr ⟨event, hrow, rfl, rfl⟩

theorem inputs_closeNative {claim failure : String} (h : s.closeNative id claim failure = .ok t) :
    t.inputs = s.inputs := by
  unfold closeNative at h
  obtain ⟨x, -, h⟩ := bind_eq_ok.mp h
  split at h <;> cases h <;> rfl

theorem inputs_offerManagementJob {findings : Findings} {document : Option JobDocument}
    (h : s.offerManagementJob e findings = .ok (t, document)) : t.inputs = s.inputs := by
  unfold offerManagementJob at h
  obtain ⟨tenant, -, h⟩ := bind_eq_ok.mp h
  split at h
  · cases h
    rfl
  · split at h
    · cases h
      rfl
    · split at h
      · cases h
        rfl
      · split at h
        · cases h
          rfl
        · obtain ⟨code, -, h⟩ := bind_eq_ok.mp h
          cases h
          rfl

theorem inputs_createManagementJob {id : String} {request : JobRequest} {findings : Findings}
    {job : ManagementJob} (h : s.createManagementJob id request findings = .ok (t, job)) :
    t.inputs = s.inputs := by
  obtain ⟨rfl, -⟩ | ⟨-, vm, host, e, jobs, -, -, -, -, rfl⟩ := createManagementJob_cases h
  · rfl
  · rfl

theorem inputs_claimManagementJob {jobId digest : String} {findings : Findings}
    {reply : ClaimReply} (h : s.claimManagementJob e jobId digest findings = .ok (t, reply)) :
    t.inputs = s.inputs := by
  obtain ⟨job, -, ⟨rfl, -⟩ | ⟨-, -, -, -, rfl⟩ | ⟨code, -, -, rfl⟩⟩ := claimManagementJob_cases h
  · rfl
  · rfl
  · rfl

theorem inputs_recordNativeContact (id generation : String) :
    (s.recordNativeContact id generation).inputs = s.inputs := by
  unfold recordNativeContact
  split <;> rfl

theorem inputs_markNativeReady {id claim : String} (h : s.markNativeReady id claim = .ok t) :
    t.inputs = s.inputs := by
  unfold markNativeReady at h
  obtain ⟨x, -, h⟩ := bind_eq_ok.mp h
  cases h
  rfl

theorem inputs_recordManagementResult {jobId : String} {r : Result} {findings : Findings}
    {job : ManagementJob} (h : s.recordManagementResult e jobId r findings = .ok (t, job)) :
    t.inputs = s.inputs := by
  obtain ⟨old, -, ⟨rfl, -⟩ | ⟨-, -, -, -, -, -, hinputs⟩⟩ := recordManagementResult_cases h
  · rfl
  · exact hinputs

end State

/-- Every event of the queue was there, or is the one the step queues. -/
theorem Step.inputs {l : Event × Reply} (h : Step s l t) : ∀ event ∈ t.inputs.rows,
      (∃ session actor eventType payload, l.1 = .queueInput event.id session actor eventType payload) ∨
        ∃ old ∈ s.inputs.rows, old.id = event.id ∧ old.session = event.session := by
  have hkept : InputsKept s t → ∀ queued ∈ t.inputs.rows,
      (∃ session actor eventType payload,
        l.1 = .queueInput queued.id session actor eventType payload) ∨
        ∃ old ∈ s.inputs.rows, old.id = queued.id ∧ old.session = queued.session :=
    fun hkept queued hqueued => .inr (hkept queued hqueued)
  cases h.did with
  | change | withdrawJobs => exact hkept (.of_eq rfl)
  | createJob hu => exact hkept (.of_eq (inputs_createManagementJob hu))
  | offerJob hu => exact hkept (.of_eq (inputs_offerManagementJob hu))
  | claimJob hu => exact hkept (.of_eq (inputs_claimManagementJob hu))
  | reportJob hu => exact hkept (.of_eq (inputs_recordManagementResult hu))
  | createSession hu | occupied hu => exact hkept (.of_eq (inputs_createConsoleSession hu))
  | renewSession hu => exact hkept (.of_eq (inputs_renewConsoleSession hu))
  | closeSession hu => exact hkept (.of_eq (inputs_closeConsoleSession hu))
  | queueInput hu =>
    intro event hevent
    rcases inputs_queueConsoleInput hu event hevent with rfl | hold
    · exact .inl ⟨_, _, _, _, rfl⟩
    · exact .inr hold
  | frameCycle hu => exact hkept (inputs_processConsoleCycle hu)
  | inputCycle hu => exact hkept (inputs_processConsoleInputCycle hu)
  | authorizeBrowser _ hu =>
    have hinputs := inputs_authorizeBrowser hu
    exact hkept (.of_eq hinputs)
  | nativeContact => exact hkept (.of_eq (inputs_recordNativeContact _ _))
  | nativeReady hu => exact hkept (.of_eq (inputs_markNativeReady hu))
  | nativeClose hu => exact hkept (.of_eq (inputs_closeNative hu))

end Ipms.Server.HyperV
