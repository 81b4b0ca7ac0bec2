import Ipms.Server.HyperV.InputSteps

/-
  Ipms.Server.HyperV.InputOrder

  The order of console input.  The table stores no order: every query sorts the
  events of a session again by time stamp and identifier.  The abstract queue is a
  list that grows at its end, where a move replaces a move that is still to be
  delivered, and that shrinks only where events are acknowledged.  The requests
  follow it as long as a new event sorts behind the ones that are queued.
-/

namespace Ipms.Server.HyperV

open Ipms.Lib Ipms.ManagementJson State
open Ipms.Agent.Gpo (seconds)
open List (Perm filter filter_map map map_append map_congr_left map_cons map_map map_take)

/-! ## The abstract queue -/

/-- A queued event as its session sees it. -/
structure Queued where
  id : String
  eventType : String
  payload : Value
  delivered : Bool
  deriving DecidableEq

namespace Queued

/-- A new move takes the place of a move that is still to be delivered. -/
def coalesces (last new : Queued) : Bool :=
  new.eventType == "mouse_move" && last.eventType == new.eventType && !last.delivered

/-- Queue an event: at the end, or in the place of the last one. -/
def enqueue (q : List Queued) (new : Queued) : List Queued :=
  match q.getLast? with
  | none => [new]
  | some last =>
    if coalesces last new then q.dropLast ++ [{ last with payload := new.payload }] else q ++ [new]

/-- What an event is, whether or not it was handed out. -/
def content (e : Queued) : String × String × Value := (e.id, e.eventType, e.payload)

/-- The queue after its first batch was handed out. -/
def handedOut (q : List Queued) : List Queued :=
  (q.take 64).map (fun e => { e with delivered := true }) ++ q.drop 64

end Queued

/-- A row as its session sees it. -/
def InputEvent.queued (e : InputEvent) : Queued :=
  ⟨e.id, e.eventType, e.payload, e.deliveredAt.isSome⟩

/-- The identifiers a request acknowledges for a session. -/
def Event.acknowledges (session : String) : Event → List String
  | .frameCycle _ c =>
    if c.sessionId = session ∧ session ≠ "" then c.acknowledged.getD [] else []
  | .inputCycle _ c => if c.sessionId = session ∧ session ≠ "" then c.acknowledged else []
  | _ => []

/-- The queue of a session after what a request brings. -/
def Event.receives (session : String) (q : List Queued) (event : Event) : List Queued :=
  match event with
  | .queueInput id target _ eventType payload =>
    match State.validatedInput eventType payload with
    | .ok validated =>
      if target = session then Queued.enqueue q ⟨id, eventType, validated, false⟩ else q
    | .error _ => q
  | _ => q.filter fun e => !(event.acknowledges session).contains e.id

/-- Whether a request asks for queued input. -/
def Event.takesInputs : Event → Bool
  | .frameCycle _ c => c.includeInputs
  | .inputCycle _ _ => true
  | _ => false

/-- The assignment of a session that a request is answered with. -/
def Reply.assignment (session : String) : Reply → Option State.Assignment
  | .assigned _ (some a) => if a.sessionId = session then some a else none
  | _ => none

section
variable (session : String) (q : List Queued) (l : Event × Reply)

/-- The batch a request hands out for a session: the first events of its queue in order, or none. -/
def HandsOutFirst : Prop :=
  match l.2.assignment session with
  | none => True
  | some a =>
    if l.1.takesInputs = true ∧ a.transport = .thumbnail then
      a.inputs.map (fun e => e.queued.content) =
        ((l.1.receives session q).take 64).map Queued.content
    else a.inputs = []

/-- The queue of a session after a request: what the request brings, and then, where the session is
assigned, its first batch handed out. -/
def nextQueue : List Queued :=
  match l.2.assignment session with
  | none => l.1.receives session q
  | some a =>
    if l.1.takesInputs = true ∧ a.transport = .thumbnail then
      Queued.handedOut (l.1.receives session q)
    else l.1.receives session q

/-- One request, seen by the queue of a session. -/
def QueueStep (q' : List Queued) : Prop := HandsOutFirst session q l ∧ q' = nextQueue session q l

instance : Decidable (HandsOutFirst session q l) := by
  unfold HandsOutFirst
  split
  · infer_instance
  · split <;> infer_instance

end

/-- The queue of a session after a list of requests, if each of them is one of the queue. -/
def followQueue (session : String) (q : List Queued) : List (Event × Reply) → Option (List Queued)
  | [] => some q
  | l :: ls => if HandsOutFirst session q l then followQueue session (nextQueue session q l) ls
      else none

variable {session : String}

theorem followQueue_of_run {q q' : List Queued} {ls : List (Event × Reply)}
    (h : Run (QueueStep session) q ls q') : followQueue session q ls = some q' := by
  induction h with
  | nil => rfl
  | cons hstep _ ih =>
    unfold followQueue
    rw [if_pos hstep.1, ← hstep.2]
    exact ih

/-! ## The queue of the table -/

variable {actor : String}

namespace State

variable {s t : State}

/-- The queue of a session as the abstract queue has it. -/
def queued (s : State) (session : String) : List Queued :=
  (s.inputQueue session).map InputEvent.queued

instance : Std.Total fun a b : InputEvent => inputBefore a b = true where
  total a b := by
    unfold inputBefore
    simp only [Bool.or_eq_true, Bool.and_eq_true, decide_eq_true_eq, beq_iff_eq]
    rcases Int.lt_trichotomy a.createdAt b.createdAt with h | h | h
    · exact .inl (.inl h)
    · rcases String.le_total a.id b.id with hid | hid
      · exact .inl (.inr ⟨h, hid⟩)
      · exact .inr (.inr ⟨h.symm, hid⟩)
    · exact .inr (.inl h)

instance : IsTrans InputEvent fun a b => inputBefore a b = true where
  trans a b c := by
    unfold inputBefore
    simp only [Bool.or_eq_true, Bool.and_eq_true, decide_eq_true_eq, beq_iff_eq]
    rintro (hab | ⟨hab, hid⟩) (hbc | ⟨hbc, hid'⟩)
    · exact .inl (Int.lt_trans hab hbc)
    · exact .inl (hbc ▸ hab)
    · exact .inl (hab ▸ hbc)
    · exact .inr ⟨hab.trans hbc, String.le_trans hid hid'⟩

theorem inputBefore_antisymm {a b : InputEvent} (hab : inputBefore a b = true)
    (hba : inputBefore b a = true) : a.id = b.id := by
  unfold inputBefore at hab hba
  simp only [Bool.or_eq_true, Bool.and_eq_true, decide_eq_true_eq, beq_iff_eq] at hab hba
  rcases hab with hab | ⟨hab, hid⟩
  · rcases hba with hba | ⟨hba, -⟩
    · exact absurd hba (Int.lt_asymm hab)
    · exact absurd hba.symm (Int.ne_of_lt hab)
  · rcases hba with hba | ⟨-, hid'⟩
    · exact absurd hab.symm (Int.ne_of_lt hba)
    · exact String.le_antisymm hid hid'

theorem perm_inputQueue (s : State) (session : String) :
    (s.inputQueue session).Perm (s.inputs.rows.filter (·.session == session)) :=
  List.perm_insertionSort _ _

theorem pairwise_inputQueue (s : State) (session : String) :
    (s.inputQueue session).Pairwise fun a b => inputBefore a b = true :=
  List.pairwise_insertionSort _ _

variable {event : InputEvent}

theorem mem_inputQueue :
    event ∈ s.inputQueue session ↔ event ∈ s.inputs.rows ∧ event.session = session := by
  rw [(s.perm_inputQueue session).mem_iff, List.mem_filter, beq_iff_eq]

theorem nodup_inputQueue (s : State) (session : String) :
    ((s.inputQueue session).map InputEvent.id).Nodup :=
  ((s.perm_inputQueue session).map _).nodup_iff.mpr
    (s.inputs.nodup.sublist (List.filter_sublist.map _))

theorem inputQueue_eq {events : List InputEvent}
    (hsorted : events.Pairwise fun a b => inputBefore a b = true)
    (hperm : events.Perm (t.inputs.rows.filter (·.session == session))) :
    t.inputQueue session = events := by
  refine Perm.eq_of_pairwise (fun a b ha hb hab hba => ?_) (t.pairwise_inputQueue session)
    hsorted ((t.perm_inputQueue session).trans hperm.symm)
  -- the order is strict on the rows, whose identifiers differ
  exact t.inputs.row_unique (mem_inputQueue.mp ha).1
    (List.mem_of_mem_filter (hperm.mem_iff.mp hb)) (inputBefore_antisymm hab hba)

theorem inputQueue_of_eq (h : t.inputs = s.inputs) :
    t.inputQueue session = s.inputQueue session := by
  unfold inputQueue
  rw [h]

theorem queued_of_eq (h : t.inputs = s.inputs) : t.queued session = s.queued session := by
  unfold queued
  rw [inputQueue_of_eq h]

/-! ### Acknowledgements -/

theorem inputQueue_acknowledge (s : State) (target : String) (ids : List String)
    (session : String) : (s.acknowledge target ids).inputQueue session =
      (s.inputQueue session).filter fun e => !(e.session == target && ids.contains e.id) := by
  apply inputQueue_eq
  · exact (s.pairwise_inputQueue session).filter _
  · show Perm _ (filter _ (filter _ s.inputs.rows))
    rw [List.filter_comm]
    exact (s.perm_inputQueue session).filter _

theorem queued_acknowledge (s : State) (target : String) (ids : List String) (session : String) :
    (s.acknowledge target ids).queued session =
      (s.queued session).filter fun e => !((if target = session then ids else []).contains e.id) := by
  unfold queued
  rw [inputQueue_acknowledge, filter_map]
  congr 1
  apply List.filter_congr
  intro event hevent
  have hsession : event.session = session := (mem_inputQueue.mp hevent).2
  show (!(event.session == target && ids.contains event.id)) =
    !((if target = session then ids else []).contains event.id)
  by_cases htarget : target = session
  · rw [if_pos htarget, hsession, htarget, beq_self_eq_true, Bool.true_and]
  · rw [if_neg htarget, hsession, beq_false_of_ne (Ne.symm htarget)]
    rfl

/-! ### Batches -/

theorem inputQueue_handOut {ids : List String} {now : Time} (session : String)
    (h : t.inputs = s.inputs.mapRows (handOut ids now) (handOut_id ids now)) :
    t.inputQueue session = (s.inputQueue session).map (handOut ids now) := by
  have hkey : ∀ e : InputEvent, (handOut ids now e).createdAt = e.createdAt := by
    intro e
    unfold handOut
    split <;> rfl
  have hbefore : ∀ a b : InputEvent,
      inputBefore (handOut ids now a) (handOut ids now b) = inputBefore a b := by
    intro a b
    unfold inputBefore
    rw [hkey a, hkey b, handOut_id, handOut_id]
  apply inputQueue_eq
  · rw [List.pairwise_map]
    exact (s.pairwise_inputQueue session).imp fun {a b} hab => (hbefore a b).trans hab
  · rw [h]
    show Perm _ (filter _ (map _ s.inputs.rows))
    rw [filter_map]
    have hsame : ((fun e : InputEvent => e.session == session) ∘ handOut ids now) =
        fun e : InputEvent => e.session == session := by
      funext e
      show ((handOut ids now e).session == session) = _
      rw [handOut_session]
    rw [hsame]
    exact (s.perm_inputQueue session).map _

/-- The first batch of a session is marked, and no event behind it. -/
theorem queued_handOut {ids : List String} (now : Time) (session : String)
    (hids : ids = ((s.inputQueue session).take 64).map InputEvent.id)
    (h : t.inputs = s.inputs.mapRows (handOut ids now) (handOut_id ids now)) :
    t.queued session = Queued.handedOut (s.queued session) ∧
      ∀ other, other ≠ session → t.queued other = s.queued other := by
  constructor
  · unfold queued Queued.handedOut
    rw [inputQueue_handOut session h, map_map, ← map_take, ← List.map_drop, map_map]
    conv_lhs => rw [← List.take_append_drop 64 (s.inputQueue session)]
    rw [map_append]
    congr 1
    · apply map_congr_left
      intro event hevent
      show (handOut _ now event).queued = _
      unfold handOut
      rw [if_pos (by rw [hids]; exact List.mem_map_of_mem hevent)]
      rfl
    · apply map_congr_left
      intro event hevent
      show (handOut _ now event).queued = _
      unfold handOut
      rw [if_neg]
      -- an event behind the batch has none of its identifiers
      have hnodup := s.nodup_inputQueue session
      rw [← List.take_append_drop 64 (s.inputQueue session), map_append, ← hids] at hnodup
      intro hmem
      exact (List.nodup_append.mp hnodup).2.2 _ hmem _ (List.mem_map_of_mem hevent) rfl
  · intro other hother
    unfold queued
    rw [inputQueue_handOut other h, map_map]
    apply map_congr_left
    intro event hevent
    show (handOut _ now event).queued = _
    unfold handOut
    rw [if_neg]
    intro hmem
    rw [hids] at hmem
    obtain ⟨first, hfirst, hid⟩ := List.mem_map.mp hmem
    obtain ⟨hrow, hsession⟩ := mem_inputQueue.mp (List.mem_of_mem_take hfirst)
    obtain ⟨hrow', hsession'⟩ := mem_inputQueue.mp hevent
    have hsame := s.inputs.row_unique hrow hrow' hid
    exact hother (hsession'.symm.trans ((congrArg InputEvent.session hsame).symm.trans hsession))

theorem queued_handOut_nil (now : Time) (session : String)
    (h : t.inputs = s.inputs.mapRows (handOut [] now) (handOut_id [] now)) :
    t.queued session = s.queued session := by
  unfold queued
  rw [inputQueue_handOut session h, map_map]
  apply map_congr_left
  intro event _
  show (handOut [] now event).queued = _
  unfold handOut
  rw [if_neg List.not_mem_nil]

/-- An assignment hands out the first events of its session in order, or none. -/
theorem queued_consoleAssignment {x : ConsoleSession} {includeInputs : Bool}
    {assignment : Option Assignment}
    (h : s.consoleAssignment x includeInputs = (t, assignment)) (session : String) :
    match assignment.filter (·.sessionId == session) with
    | none => t.queued session = s.queued session
    | some a =>
      if includeInputs = true ∧ a.transport = .thumbnail then
        a.inputs = (s.inputQueue session).take 64 ∧
          t.queued session = Queued.handedOut (s.queued session)
      else a.inputs = [] ∧ t.queued session = s.queued session := by
  unfold consoleAssignment at h
  split at h
  · next u hu =>
      have hsame := inputs_consoleAuthorityAllowed (s := s) x
      rw [hu] at hsame
      cases h
      exact queued_of_eq hsame
  · split at h
    · next hnative =>
        cases h
        by_cases hid : x.id = session
        · rw [Option.filter_some, if_pos (by rw [hid]; exact beq_self_eq_true _)]
          show if includeInputs = true ∧ x.transport = .thumbnail then _ else _
          rw [if_neg fun hboth => by rw [hnative] at hboth; exact nomatch hboth.2]
          exact ⟨rfl, rfl⟩
        · rw [Option.filter_some, if_neg (by simpa using hid)]
    · next hthumbnail =>
        have htransport : x.transport = .thumbnail := by
          cases hx : x.transport with
          | thumbnail => rfl
          | vmconnect => exact absurd hx hthumbnail
        obtain ⟨hstate, rfl⟩ := Prod.mk.inj h
        cases includeInputs with
        | true =>
          obtain ⟨hown, hother⟩ := queued_handOut s.now x.id rfl
            (congrArg inputs hstate).symm
          by_cases hid : x.id = session
          · subst hid
            rw [Option.filter_some, if_pos (beq_self_eq_true _)]
            show if true = true ∧ x.transport = .thumbnail then _ else _
            rw [if_pos ⟨rfl, htransport⟩]
            exact ⟨rfl, hown⟩
          · rw [Option.filter_some, if_neg (by simpa using hid)]
            exact hother session (Ne.symm hid)
        | false =>
          have hsame := queued_handOut_nil s.now session
            (congrArg inputs hstate).symm
          by_cases hid : x.id = session
          · rw [Option.filter_some, if_pos (by rw [hid]; exact beq_self_eq_true _)]
            show if false = true ∧ _ then _ else _
            rw [if_neg fun hboth => nomatch hboth.1]
            exact ⟨rfl, hsame⟩
          · rw [Option.filter_some, if_neg (by simpa using hid)]
            exact hsame

/-! ### New events -/

/-- The row into which a call merges its move. -/
def merged (s : State) (session eventType : String) : Option InputEvent :=
  (s.latestInput session).filter fun last =>
    eventType == "mouse_move" && last.eventType == eventType && last.deliveredAt.isNone

theorem queueConsoleInput_cases {id eventType : String} {payload : Value}
    (h : s.queueConsoleInput id session actor eventType payload = .ok (t, event)) :
    ∃ validated, validatedInput eventType payload = .ok validated ∧
      ((∃ last, s.merged session eventType = some last ∧
          t.inputs = s.inputs.save { last with payload := validated }) ∨
        s.merged session eventType = none ∧
          s.inputs.insert
            { id, session, eventType, payload := validated, createdAt := s.now } = some t.inputs) := by
  unfold queueConsoleInput at h
  simp only [bind_eq_ok] at h
  obtain ⟨x, -, -, -, -, -, -, -, validated, hvalidated, h⟩ := h
  refine ⟨validated, hvalidated, ?_⟩
  split at h
  · next last hlast =>
      cases h
      exact .inl ⟨last, hlast, rfl⟩
  · next hnone =>
      simp only [bind_eq_ok, found_eq_ok] at h
      obtain ⟨-, -, inputs, hinsert, h⟩ := h
      cases h
      exact .inr ⟨hnone, hinsert⟩

/-- A saved row keeps its place. -/
theorem inputQueue_save {last : InputEvent} (moved : InputEvent) (hlast : last ∈ s.inputs.rows)
    (hid : moved.id = last.id) (hsession : moved.session = last.session)
    (hcreated : moved.createdAt = last.createdAt) (h : t.inputs = s.inputs.save moved)
    (session : String) : t.inputQueue session =
      (s.inputQueue session).map fun e => if e.id = moved.id then moved else e := by
  have hrow : ∀ e ∈ s.inputs.rows, e.id = moved.id → e = last :=
    fun e he heq => s.inputs.row_unique he hlast (heq.trans hid)
  have hsame : ∀ e ∈ s.inputs.rows,
      (if e.id = moved.id then moved else e).session = e.session ∧
        (if e.id = moved.id then moved else e).createdAt = e.createdAt ∧
          (if e.id = moved.id then moved else e).id = e.id := by
    intro e he
    by_cases heq : e.id = moved.id
    · rw [if_pos heq, hrow e he heq]
      exact ⟨hsession, hcreated, hid⟩
    · rw [if_neg heq]
      exact ⟨rfl, rfl, rfl⟩
  apply inputQueue_eq
  · rw [List.pairwise_map]
    refine (s.pairwise_inputQueue session).imp_of_mem fun {a b} ha hb hab => ?_
    obtain ⟨-, hca, hia⟩ := hsame a (mem_inputQueue.mp ha).1
    obtain ⟨-, hcb, hib⟩ := hsame b (mem_inputQueue.mp hb).1
    unfold inputBefore at hab ⊢
    rw [hca, hia, hcb, hib]
    exact hab
  · rw [h]
    show Perm _ (filter _ (map _ s.inputs.rows))
    rw [filter_map, List.filter_congr (q := fun e => e.session == session) fun e he => by
      show ((if e.id = moved.id then moved else e).session == session) = _
      rw [(hsame e he).1]]
    exact (s.perm_inputQueue session).map _

theorem inputQueue_insert (h : s.inputs.insert event = some t.inputs)
    (hlast : ∀ e ∈ s.inputQueue event.session, inputBefore e event = true) (session : String) :
    t.inputQueue session = if event.session = session then s.inputQueue session ++ [event]
      else s.inputQueue session := by
  have hrows : t.inputs.rows = event :: s.inputs.rows := (Table.insert_eq_some h).2
  split
  · next hsession =>
      subst hsession
      apply inputQueue_eq
      · rw [List.pairwise_append]
        refine ⟨s.pairwise_inputQueue _, List.pairwise_singleton _ _, fun e he e' he' => ?_⟩
        rw [List.mem_singleton.mp he']
        exact hlast e he
      · rw [hrows, List.filter_cons_of_pos (by simp)]
        exact List.perm_append_singleton _ _ |>.trans ((s.perm_inputQueue _).cons _)
  · next hsession =>
      apply inputQueue_eq (s.pairwise_inputQueue session)
      rw [hrows, List.filter_cons_of_neg (by simpa using hsession)]
      exact s.perm_inputQueue session

/-- What keeps the queue in order: the coalescing query finds the last event of the queue, and an
event that is added sorts behind the events of its session. -/
def KeepsOrder (s : State) : Event → Prop
  | .queueInput id session _ eventType _ =>
    (eventType = "mouse_move" → s.latestInput session = (s.inputQueue session).getLast?) ∧
      (s.merged session eventType = none → ∀ e ∈ s.inputQueue session,
        e.createdAt < s.now ∨ e.createdAt = s.now ∧ e.id < id)
  | _ => True

/-- A call in order is the abstract queue's. -/
theorem queued_queueConsoleInput {id eventType : String} {payload : Value}
    (h : s.queueConsoleInput id session actor eventType payload = .ok (t, event))
    (hkeeps : s.KeepsOrder (.queueInput id session actor eventType payload)) (other : String) :
    t.queued other =
      (Event.queueInput id session actor eventType payload).receives other (s.queued other) := by
  obtain ⟨validated, hvalidated, hcases⟩ := queueConsoleInput_cases h
  obtain ⟨hlatest, hbehind⟩ := hkeeps
  unfold Event.receives
  simp only [hvalidated]
  rcases hcases with ⟨last, hmerged, hsave⟩ | ⟨hnone, hinsert⟩
  · obtain ⟨hfirst, htests⟩ := Option.filter_eq_some_iff.mp hmerged
    simp only [Bool.and_eq_true, beq_iff_eq] at htests
    obtain ⟨⟨hmove, htype⟩, hpending⟩ := htests
    obtain ⟨hrow, hsession, -⟩ := mem_of_latestInput hfirst
    have hqueue := inputQueue_save { last with payload := validated } hrow rfl rfl rfl
      hsave other
    by_cases hother : session = other
    · subst hother
      rw [if_pos rfl]
      have hend : (s.inputQueue session).getLast? = some last := by
        rw [← hlatest hmove]
        exact hfirst
      obtain ⟨front, hfront⟩ := List.getLast?_eq_some_iff.mp hend
      have hnodup := s.nodup_inputQueue session
      rw [hfront, map_append, List.nodup_append] at hnodup
      unfold queued Queued.enqueue
      rw [hqueue, hfront]
      simp only [map_append, map_cons, List.map_nil, List.getLast?_append,
        List.getLast?_singleton, Option.some_or, List.dropLast_concat, if_true]
      rw [if_pos (by
        show (eventType == "mouse_move" && last.eventType == eventType &&
          !last.deliveredAt.isSome) = true
        rw [hmove, htype, hmove, Option.not_isSome, hpending]
        rfl)]
      congr 1
      rw [map_map]
      apply map_congr_left
      intro e he
      -- the other events keep their rows
      show (if e.id = last.id then _ else e).queued = e.queued
      rw [if_neg fun heq => hnodup.2.2 _ (List.mem_map_of_mem he) _ (by simp) heq]
    · rw [if_neg hother]
      unfold queued
      rw [hqueue, map_map]
      apply map_congr_left
      intro e he
      show (if e.id = last.id then _ else e).queued = e.queued
      rw [if_neg]
      intro heq
      obtain ⟨hmem, hsession'⟩ := mem_inputQueue.mp he
      have hsame := s.inputs.row_unique hmem hrow heq
      exact hother (hsession.symm.trans ((congrArg InputEvent.session hsame).symm.trans hsession'))
  · have hqueue := inputQueue_insert hinsert (fun e he => by
      unfold inputBefore
      simp only [Bool.or_eq_true, Bool.and_eq_true, decide_eq_true_eq, beq_iff_eq]
      rcases hbehind hnone e he with hlt | ⟨heq, hlt⟩
      · exact .inl hlt
      · exact .inr ⟨heq, Std.le_of_lt hlt⟩) other
    unfold queued
    rw [hqueue]
    by_cases hother : session = other
    · subst hother
      rw [if_pos rfl, if_pos rfl, map_append]
      unfold Queued.enqueue
      cases hend : (s.inputQueue session).getLast? with
      | none =>
        rw [List.getLast?_eq_none_iff.mp hend]
        rfl
      | some last =>
        rw [List.getLast?_map, hend]
        show _ = if Queued.coalesces last.queued _ then _ else _
        rw [if_neg]
        · rfl
        · -- a last event that coalesces is the row the call would have merged into
          intro hcoalesces
          unfold Queued.coalesces at hcoalesces
          simp only [Bool.and_eq_true, beq_iff_eq, Bool.not_eq_true'] at hcoalesces
          obtain ⟨⟨hmove, htype⟩, hpending⟩ := hcoalesces
          have hfirst := (hlatest hmove).trans hend
          have hsome : s.merged session eventType = some last := by
            refine Option.filter_eq_some_iff.mpr ⟨hfirst, ?_⟩
            simp only [Bool.and_eq_true, beq_iff_eq]
            refine ⟨⟨hmove, htype⟩, ?_⟩
            rw [← Option.not_isSome]
            exact (Bool.not_eq_true' _).mpr hpending
          rw [hnone] at hsome
          exact nomatch hsome
    · rw [if_neg hother, if_neg hother]

/-! ### Exchanges -/

theorem inputs_reportSession_eq {e : Enrollment} {c : FrameCycle} (h : s.reportSession e c = .ok t) :
    t.inputs = (s.acknowledge c.sessionId (c.acknowledged.getD [])).inputs := by
  unfold reportSession at h
  simp only [bind_eq_ok, found_eq_ok, Option.filter_eq_some_iff] at h
  obtain ⟨x, ⟨hx, -⟩, -, -, ids, ⟨hids, -⟩, h⟩ := h
  have hid : x.id = c.sessionId := Table.get?_key hx
  rw [hid] at h
  rw [hids, Option.getD_some]
  have hauthority :=
    inputs_consoleAuthorityAllowed (s := s.acknowledge c.sessionId ids) x
  split at h
  · split at h
    · next u hu =>
        rw [hu] at hauthority
        cases h
        exact hauthority
    · next u hu =>
        rw [hu] at hauthority
        obtain ⟨y, -, h⟩ := bind_eq_ok.mp h
        cases h
        exact hauthority
  · cases h
    rfl

theorem inputs_settleInput_eq {e : Enrollment} {c : InputCycle} (h : s.settleInput e c = .ok t) :
    t.inputs = (s.acknowledge c.sessionId c.acknowledged).inputs := by
  unfold settleInput at h
  simp only [bind_eq_ok, found_eq_ok, Option.filter_eq_some_iff] at h
  obtain ⟨x, ⟨hx, -⟩, -, -, h⟩ := h
  have hid : x.id = c.sessionId := Table.get?_key hx
  rw [hid] at h
  split at h
  · cases h
    rfl
  · cases h
    rfl

end State

variable {s t : State}

theorem queueStep_of_eq {l : Event × Reply}
    (hreceives : l.1.receives session (s.queued session) = s.queued session)
    (hreply : l.2.assignment session = none) (h : t.inputs = s.inputs) :
    QueueStep session (s.queued session) l (t.queued session) := by
  unfold QueueStep HandsOutFirst nextQueue
  rw [hreply]
  exact ⟨trivial, (queued_of_eq h).trans hreceives.symm⟩

theorem receives_of_nil {q : List Queued} {event : Event}
    (hcycle : ∀ id target actor eventType payload,
      event ≠ .queueInput id target actor eventType payload) (h : event.acknowledges session = []) :
    event.receives session q = q := by
  unfold Event.receives
  split
  · next id target actor eventType payload => exact absurd rfl (hcycle _ _ _ _ _)
  · rw [h]
    exact List.filter_eq_self.mpr fun _ _ => rfl

/-- A reply that assigns sessions takes the first events of its session, or none. -/
theorem queueStep_assigned {s u t : State} {session : String} {event : Event} {active : Bool}
    {assignment : Option Assignment}
    (hreceived : u.queued session = event.receives session (s.queued session))
    (hassigned : match assignment.filter (·.sessionId == session) with
      | none => t.queued session = u.queued session
      | some a =>
        if event.takesInputs = true ∧ a.transport = .thumbnail then
          a.inputs = (u.inputQueue session).take 64 ∧
            t.queued session = Queued.handedOut (u.queued session)
        else a.inputs = [] ∧ t.queued session = u.queued session) :
    QueueStep session (s.queued session) (event, .assigned active assignment)
      (t.queued session) := by
  have hsame : (Reply.assigned active assignment).assignment session =
      assignment.filter (·.sessionId == session) := by
    cases assignment with
    | none => rfl
    | some a =>
      rw [Option.filter_some]
      show (if a.sessionId = session then some a else none) = _
      by_cases hid : a.sessionId = session
      · rw [if_pos hid, if_pos (by simpa using hid)]
      · rw [if_neg hid, if_neg (by simpa using hid)]
  unfold QueueStep HandsOutFirst nextQueue
  rw [hsame, ← hreceived]
  cases hfilter : assignment.filter (·.sessionId == session) with
  | none =>
    rw [hfilter] at hassigned
    exact ⟨trivial, hassigned⟩
  | some a =>
    rw [hfilter] at hassigned
    simp only at hassigned ⊢
    by_cases htakes : event.takesInputs = true ∧ a.transport = .thumbnail
    · rw [if_pos htakes, if_pos htakes]
      rw [if_pos htakes] at hassigned
      refine ⟨?_, hassigned.2⟩
      rw [hassigned.1]
      unfold queued
      rw [← map_take, map_map]
      rfl
    · rw [if_neg htakes, if_neg htakes]
      rw [if_neg htakes] at hassigned
      exact hassigned

/-- A request that keeps the order is a request of the abstract queue. -/
theorem Step.queueStep {l : Event × Reply} (h : Step s l t) (hkeeps : s.KeepsOrder l.1)
    (session : String) : QueueStep session (s.queued session) l (t.queued session) := by
  have hidle : ∀ {event : Event} {reply : Reply},
      (∀ id target actor eventType payload,
        event ≠ .queueInput id target actor eventType payload) →
      event.acknowledges session = [] → reply.assignment session = none → t.inputs = s.inputs →
      QueueStep session (s.queued session) (event, reply) (t.queued session) :=
    fun hevent hnone hreply hsame => queueStep_of_eq (receives_of_nil hevent hnone) hreply hsame
  cases h.did with
  | change | withdrawJobs => exact hidle nofun rfl rfl rfl
  | createJob hu => exact hidle nofun rfl rfl (inputs_createManagementJob hu)
  | offerJob hu => exact hidle nofun rfl rfl (inputs_offerManagementJob hu)
  | claimJob hu => exact hidle nofun rfl rfl (inputs_claimManagementJob hu)
  | reportJob hu => exact hidle nofun rfl rfl (inputs_recordManagementResult hu)
  | createSession hu | occupied hu => exact hidle nofun rfl rfl (inputs_createConsoleSession hu)
  | renewSession hu => exact hidle nofun rfl rfl (inputs_renewConsoleSession hu)
  | closeSession hu => exact hidle nofun rfl rfl (inputs_closeConsoleSession hu)
  | queueInput hu => exact ⟨trivial, queued_queueConsoleInput hu hkeeps session⟩
  | @frameCycle agent cycle _ _ hu =>
    obtain ⟨v, hv, hserved⟩ := processConsoleCycle_cases hu
    have hreceived : v.queued session =
        (Event.frameCycle agent cycle).receives session (s.queued session) := by
      rcases hv with ⟨hid, rfl⟩ | ⟨hid, hreport⟩
      · -- a cycle that names no session acknowledges nothing
        have hnone : (Event.frameCycle agent cycle).acknowledges session = [] :=
          if_neg fun hboth => hboth.2 (hboth.1 ▸ hid)
        have hsame : (Event.frameCycle agent cycle).receives session (s.queued session) =
            s.queued session := receives_of_nil nofun hnone
        exact hsame.symm
      · rw [queued_of_eq (inputs_reportSession_eq hreport), queued_acknowledge]
        show _ = filter (fun e : Queued => !(if cycle.sessionId = session ∧ session ≠ "" then
          cycle.acknowledged.getD [] else []).contains e.id) _
        have hnonempty : cycle.sessionId = session ∧ session ≠ "" ↔ cycle.sessionId = session :=
          ⟨And.left, fun heq => ⟨heq, heq ▸ hid⟩⟩
        simp only [hnonempty]
        rfl
    apply queueStep_assigned hreceived
    rcases hserved with ⟨rfl, rfl⟩ | ⟨x, -, hassign⟩
    · rfl
    · exact queued_consoleAssignment hassign session
  | @inputCycle agent cycle _ _ _ hu =>
    obtain ⟨v, hv, hserved⟩ := processConsoleInputCycle_cases hu
    have hsame : v.inputs = s.inputs := by
      rcases hv with rfl | rfl <;> rfl
    have hpoll : cycle.sessionId = "" → v.queued session =
        (Event.inputCycle agent cycle).receives session (s.queued session) := by
      intro hid
      have hnone : (Event.inputCycle agent cycle).acknowledges session = [] :=
        if_neg fun hboth => hboth.2 (hboth.1 ▸ hid)
      have hrest : (Event.inputCycle agent cycle).receives session (s.queued session) =
          s.queued session := receives_of_nil nofun hnone
      exact (queued_of_eq hsame).trans hrest.symm
    obtain ⟨hid, hsettle, rfl⟩ | ⟨hid, -, rfl, rfl⟩ | ⟨hid, x, -, hassign⟩ := hserved
    · refine queueStep_assigned (u := t) ?_ rfl
      rw [queued_of_eq (inputs_settleInput_eq hsettle), queued_acknowledge,
        queued_of_eq hsame]
      show _ = filter (fun e : Queued => !(if cycle.sessionId = session ∧ session ≠ "" then
        cycle.acknowledged else []).contains e.id) _
      have hnonempty : cycle.sessionId = session ∧ session ≠ "" ↔ cycle.sessionId = session :=
        ⟨And.left, fun heq => ⟨heq, heq ▸ hid⟩⟩
      simp only [hnonempty]
    · exact queueStep_assigned (hpoll hid) rfl
    · refine queueStep_assigned (hpoll hid) ?_
      have hbatch := queued_consoleAssignment hassign session
      exact hbatch
  | authorizeBrowser _ hu =>
    have hinputs := inputs_authorizeBrowser hu
    exact hidle nofun rfl rfl hinputs
  | nativeContact => exact hidle nofun rfl rfl (inputs_recordNativeContact _ _)
  | nativeReady hu => exact hidle nofun rfl rfl (inputs_markNativeReady hu)
  | nativeClose hu => exact hidle nofun rfl rfl (inputs_closeNative hu)

/-- Requests that all keep the order are, for every session, a run of the abstract queue: batches
are its first events in order, and nothing else moves, comes back or is lost. -/
theorem queued_follows_queue {s t : State} {ls : List (Event × Reply)} (h : Run Step s ls t)
    (hkeeps : ∀ u l, Run.Takes Step s ls t u l → u.KeepsOrder l.1) (session : String) :
    Run (QueueStep session) (s.queued session) ls (t.queued session) := by
  induction h with
  | nil s => exact .nil _
  | @cons s u t l ls hstep hrest ih =>
    have hfirst : s.KeepsOrder l.1 := hkeeps s l ⟨[], u, ls, rfl, .nil s, hstep, hrest⟩
    exact .cons (hstep.queueStep hfirst session)
      (ih fun v k htakes => hkeeps v k (htakes.tail hstep))

/-! ## Batches of the browser -/

/-- An event of a batch, with the clock its call reads. -/
structure BatchedInput where
  now : Time
  id : String
  eventType : String
  payload : Value

/-- The events of a batch, one call after the other. -/
def State.queueEach (s : State) (session actor : String) :
    List BatchedInput → Except ServerError State
  | [] => .ok s
  | e :: es => do
    let (t, _) ← { s with now := e.now }.queueConsoleInput e.id session actor e.eventType e.payload
    t.queueEach session actor es

/-- `queue_console_inputs`: one transaction, which an invalid event rolls back. -/
def State.queueConsoleInputs (s : State) (session actor : String) (events : List BatchedInput) :
    Except ServerError State := do
  throwIf (events.length < 1 ∨ 32 < events.length) (invalid "The console input batch is invalid.")
  let _ ← found (s.sessions.get? session) .notFound
  s.queueEach session actor events

/-- The requests that a batch stands for. -/
def batchEvents (world : World) (session actor : String) (events : List BatchedInput) : List Event :=
  events.flatMap fun e =>
    [.change world e.now, .queueInput e.id session actor e.eventType e.payload]

/-- A batch that is accepted is a run of its calls. -/
theorem run_queueConsoleInputs {events : List BatchedInput}
    (h : s.queueConsoleInputs session actor events = .ok t)
    (htimely : (s.now :: events.map BatchedInput.now).Pairwise (· ≤ ·)) :
    Run Step s ((batchEvents s.toWorld session actor events).map fun event => (event, .done)) t := by
  have hworld : ∀ {u v : State} {id eventType : String} {payload : Value} {event : InputEvent},
      u.queueConsoleInput id session actor eventType payload = .ok (v, event) →
        v.toWorld = u.toWorld ∧ v.now = u.now := by
    intro u v id eventType payload event hqueue
    unfold queueConsoleInput at hqueue
    simp only [bind_eq_ok] at hqueue
    obtain ⟨x, -, -, -, -, -, -, -, validated, -, hqueue⟩ := hqueue
    split at hqueue
    · cases hqueue
      exact ⟨rfl, rfl⟩
    · simp only [bind_eq_ok] at hqueue
      obtain ⟨-, -, inputs, -, hqueue⟩ := hqueue
      cases hqueue
      exact ⟨rfl, rfl⟩
  unfold queueConsoleInputs at h
  simp only [bind_eq_ok] at h
  obtain ⟨-, -, -, -, h⟩ := h
  induction events generalizing s with
  | nil =>
    cases h
    exact .nil _
  | cons e es ih =>
    obtain ⟨⟨u, event⟩, hqueue, h⟩ := bind_eq_ok.mp h
    obtain ⟨hsame, hnow⟩ := hworld hqueue
    rw [map_cons, List.pairwise_cons] at htimely
    -- the clock advances to the event's call, and then the call is made
    refine .cons (t := { s with now := e.now }) ⟨rfl, htimely.1 e.now List.mem_cons_self⟩
      (.cons (t := u) ⟨?_, trivial⟩ ?_)
    · exact bind_eq_ok.mpr ⟨(u, event), hqueue, rfl⟩
    · have hrest := ih (s := u) (by rw [hnow]; exact htimely.2) h
      rw [hsame] at hrest
      exact hrest

namespace State

/-- The events of a session were queued at different instants, all of them earlier. -/
structure InOrder (s : State) (session : String) (now : Time) : Prop where
  apart : (s.inputQueue session).Pairwise fun a b => a.createdAt < b.createdAt
  earlier : ∀ e ∈ s.inputQueue session, e.createdAt < now

/-- Where no two events share an instant, the coalescing query finds the end of the queue. -/
theorem InOrder.latestInput {now : Time} (h : s.InOrder session now) :
    s.latestInput session = (s.inputQueue session).getLast? := by
  cases hlatest : s.latestInput session with
  | none =>
    cases hend : (s.inputQueue session).getLast? with
    | none => rfl
    | some last =>
      obtain ⟨front, hfront⟩ := List.getLast?_eq_some_iff.mp hend
      have hapart := h.apart
      rw [hfront, List.pairwise_append] at hapart
      -- no event of the queue is later than its last one, so the query finds something
      have hmem : last ∈ s.latestInputs session := by
        refine mem_latestInputs.mpr ?_
        obtain ⟨hrow, hsession⟩ := mem_inputQueue.mp (List.mem_of_getLast? hend)
        refine ⟨hrow, hsession, fun other hother hsame => ?_⟩
        have hqueued := mem_inputQueue.mpr ⟨hother, hsame⟩
        rw [hfront, List.mem_append, List.mem_singleton] at hqueued
        rcases hqueued with hqueued | rfl
        · exact Std.le_of_lt (hapart.2.2 other hqueued last (by simp))
        · exact Std.le_refl _
      rw [List.head?_eq_none_iff.mp (Option.or_eq_none_iff.mp hlatest).2] at hmem
      cases hmem
  | some event =>
    obtain ⟨hrow, hsession, hlast⟩ := mem_of_latestInput hlatest
    obtain ⟨before, after, hsplit⟩ := List.append_of_mem (mem_inputQueue.mpr ⟨hrow, hsession⟩)
    cases after with
    | nil => rw [hsplit, List.getLast?_append, List.getLast?_singleton, Option.some_or]
    | cons next rest =>
      have hapart := h.apart
      rw [hsplit, List.pairwise_append, List.pairwise_cons] at hapart
      have hnext : next ∈ s.inputQueue session := by simp [hsplit]
      obtain ⟨hnext, hsame⟩ := mem_inputQueue.mp hnext
      have hle := hlast next hnext hsame
      exact absurd hle (Int.not_le.mpr (hapart.2.1.1 next (by simp)))

theorem InOrder.keepsOrder {id eventType : String} {payload : Value}
    (h : s.InOrder session s.now) : s.KeepsOrder (.queueInput id session actor eventType payload) :=
  ⟨fun _ => h.latestInput, fun _ e he => .inl (h.earlier e he)⟩

/-- A call leaves the queue in order for a later one. -/
theorem InOrder.queueConsoleInput {id eventType : String} {payload : Value} {event : InputEvent}
    {later : Time} (h : s.InOrder session s.now)
    (hcall : s.queueConsoleInput id session actor eventType payload = .ok (t, event))
    (hlater : s.now < later) : t.InOrder session later := by
  obtain ⟨validated, -, ⟨last, hmerged, hsave⟩ | ⟨-, hinsert⟩⟩ := queueConsoleInput_cases hcall
  · -- the row that takes the new payload keeps its instant
    have hrow := (mem_of_latestInput (Option.filter_eq_some_iff.mp hmerged).1).1
    have hqueue := inputQueue_save { last with payload := validated } hrow rfl rfl rfl hsave session
    have hinstant : ∀ e ∈ s.inputQueue session,
        (if e.id = last.id then { last with payload := validated } else e).createdAt =
          e.createdAt := by
      intro e he
      split
      · next heq => rw [s.inputs.row_unique (mem_inputQueue.mp he).1 hrow heq]
      · rfl
    refine ⟨?_, ?_⟩
    · rw [hqueue, List.pairwise_map]
      refine h.apart.imp_of_mem fun {a b} ha hb hab => ?_
      dsimp only
      rw [hinstant a ha, hinstant b hb]
      exact hab
    · rw [hqueue]
      intro e he
      obtain ⟨old, hold, rfl⟩ := List.mem_map.mp he
      rw [hinstant old hold]
      exact Int.lt_trans (h.earlier old hold) hlater
  · have hqueue := inputQueue_insert hinsert (fun e he => by
      have hearlier := h.earlier e he
      simp [inputBefore, hearlier]) session
    rw [if_pos rfl] at hqueue
    refine ⟨?_, ?_⟩
    · rw [hqueue, List.pairwise_append]
      refine ⟨h.apart, List.pairwise_singleton _ _, fun e he new hnew => ?_⟩
      rw [List.mem_singleton.mp hnew]
      exact h.earlier e he
    · rw [hqueue]
      intro e he
      rcases List.mem_append.mp he with he | he
      · exact Int.lt_trans (h.earlier e he) hlater
      · rw [List.mem_singleton.mp he]
        exact hlater

theorem queued_queueEach {events : List BatchedInput}
    (h : s.queueEach session actor events = .ok t) (hqueue : ∀ e ∈ events, s.InOrder session e.now)
    (hclock : (events.map BatchedInput.now).Pairwise (· < ·)) (other : String) :
    t.queued other = events.foldl (fun q e =>
      (Event.queueInput e.id session actor e.eventType e.payload).receives other q)
      (s.queued other) := by
  induction events generalizing s with
  | nil =>
    cases h
    rfl
  | cons e es ih =>
    obtain ⟨⟨u, event⟩, hcall, h⟩ := bind_eq_ok.mp h
    rw [map_cons, List.pairwise_cons] at hclock
    have hfirst : ({ s with now := e.now } : State).InOrder session e.now :=
      ⟨(hqueue e List.mem_cons_self).apart, (hqueue e List.mem_cons_self).earlier⟩
    have hrest : ∀ e' ∈ es, u.InOrder session e'.now := fun e' he' =>
      hfirst.queueConsoleInput hcall (hclock.1 _ (List.mem_map_of_mem he'))
    -- the first call is the abstract queue's, and the rest follow from the state it leaves
    rw [ih h hrest hclock.2, List.foldl_cons]
    congr 1
    exact queued_queueConsoleInput hcall hfirst.keepsOrder other

end State

/-- A batch that is accepted is a run of its calls.  Where the clock moves on between them, and the
events before them were queued at different instants, it queues its events in their order, each move
of the mouse in the place of a waiting one before it, and nothing for another session. -/
theorem queueConsoleInputs_inOrder {events : List BatchedInput}
    (h : s.queueConsoleInputs session actor events = .ok t) (hqueue : s.InOrder session (s.now + 1))
    (hclock : (s.now :: events.map BatchedInput.now).Pairwise (· < ·)) :
    Run Step s ((batchEvents s.toWorld session actor events).map fun event => (event, .done)) t ∧
      ∀ other, t.queued other = events.foldl (fun q e =>
        (Event.queueInput e.id session actor e.eventType e.payload).receives other q)
        (s.queued other) := by
  refine ⟨run_queueConsoleInputs h (hclock.imp Std.le_of_lt), fun other => ?_⟩
  rw [List.pairwise_cons] at hclock
  have hsame := h
  unfold State.queueConsoleInputs at hsame
  simp only [bind_eq_ok] at hsame
  obtain ⟨-, -, -, -, hsame⟩ := hsame
  refine State.queued_queueEach hsame (fun e he => ⟨hqueue.apart, fun old hold => ?_⟩) hclock.2 other
  have hearlier := Int.lt_add_one_iff.mp (hqueue.earlier old hold)
  exact Int.lt_of_le_of_lt hearlier (hclock.1 e.now (List.mem_map_of_mem he))

/-- A key and two moves of the mouse, the first of them still waiting when the second comes. -/
theorem queueConsoleInputs_inOrder_sample : ∃ s t : State, ∃ ls, Run Step s ls t ∧
    (t.queued "session").map Queued.eventType = ["key", "mouse_move"] := by
  let move : Int → Value := fun x => .obj [("x", .int x), ("y", .int 2)]
  let events : List BatchedInput :=
    [⟨1, "b5c1f0a2-7d43-4e8b-9a61-3f2e1d0c9b8a", "key",
      .obj [("key_code", .int 65), ("is_down", .bool true)]⟩,
     ⟨2, "0f9e8d7c-6b5a-4c3d-8e2f-1a0b9c8d7e6f", "mouse_move", move 1⟩,
     ⟨3, "1f9e8d7c-6b5a-4c3d-8e2f-1a0b9c8d7e6f", "mouse_move", move 5⟩]
  have hsample : (sampleState.performAll
      [.createSession "session" "generation" ⟨"vm", "tenant", "user", .thumbnail, none⟩]).any
      (fun run => run.2.now == 0 && (run.2.inputQueue "session").isEmpty &&
        (run.2.queueConsoleInputs "session" "user" events).toOption.any fun t =>
          (t.queued "session").map Queued.eventType == ["key", "mouse_move"]) = true := by
    decide +kernel
  obtain ⟨⟨_, s⟩, -, h⟩ := (Option.any_eq_true _ _).mp hsample
  simp only [Bool.and_eq_true, beq_iff_eq, List.isEmpty_iff] at h
  obtain ⟨⟨hnow, hempty⟩, h⟩ := h
  obtain ⟨t, ht, htypes⟩ := (Option.any_eq_true _ _).mp h
  have hbatch : s.queueConsoleInputs "session" "user" events = .ok t := by
    cases hresult : s.queueConsoleInputs "session" "user" events with
    | error => rw [hresult] at ht; cases ht
    | ok u => rw [hresult] at ht; cases ht; rfl
  have hinOrder := queueConsoleInputs_inOrder hbatch
    ⟨by rw [hempty]; exact .nil, by rw [hempty]; exact nofun⟩ (by rw [hnow]; decide)
  exact ⟨s, t, _, hinOrder.1, beq_iff_eq.mp htypes⟩

/-- A key is pressed and, at a later reading of the clock, released; then the agent polls. -/
def sampleKeys (later : Time) : List Event :=
  [.createSession "session" "generation" ⟨"vm", "tenant", "user", .thumbnail, none⟩,
   .queueInput "b5c1f0a2-7d43-4e8b-9a61-3f2e1d0c9b8a" "session" "user" "key"
     (.obj [("key_code", .int 65), ("is_down", .bool true)]),
   .change sampleState.toWorld later,
   .queueInput "0f9e8d7c-6b5a-4c3d-8e2f-1a0b9c8d7e6f" "session" "user" "key"
     (.obj [("key_code", .int 65), ("is_down", .bool false)]),
   .inputCycle sampleEnrollment ⟨"", [], true, "", true⟩]

/-- Two events of one instant are handed out in the order of their identifiers: the release of the
key before its press. -/
theorem queued_reordered : ¬ ∀ (s t : State) (ls : List (Event × Reply)), Run Step s ls t →
    ∀ session, Run (QueueStep session) (s.queued session) ls (t.queued session) := by
  intro h
  have hsample : (sampleState.performAll (sampleKeys 0)).any (fun run =>
      (followQueue "session" (sampleState.queued "session") run.1).isNone) = true := by
    decide +kernel
  obtain ⟨⟨ls, t⟩, hrun, hnone⟩ := (Option.any_eq_true _ _).mp hsample
  have hfollows := followQueue_of_run (h _ _ _ (run_of_performAll hrun) "session")
  rw [hfollows] at hnone
  cases hnone

instance (s : State) (event : Event) : Decidable (s.KeepsOrder event) :=
  match event with
  | .queueInput id session _ eventType _ =>
    (inferInstance : Decidable (
      (eventType = "mouse_move" → s.latestInput session = (s.inputQueue session).getLast?) ∧
        (s.merged session eventType = none → ∀ e ∈ s.inputQueue session,
          e.createdAt < s.now ∨ e.createdAt = s.now ∧ e.id < id)))
  | .change .. | .createJob .. | .withdrawJobs .. | .offerJob .. | .claimJob .. | .reportJob ..
  | .createSession .. | .renewSession .. | .closeSession .. | .frameCycle .. | .inputCycle ..
  | .authorizeBrowser .. | .nativeContact .. | .nativeReady .. | .nativeClose .. =>
    .isTrue trivial

/-- Whether every request of a list keeps the order. -/
def State.keepsOrderAll (s : State) : List Event → Bool
  | [] => true
  | event :: events =>
    decide (s.KeepsOrder event) &&
      match s.perform event with
      | .error _ => true
      | .ok (t, _) => t.keepsOrderAll events

theorem State.keepsOrder_of_all {events : List Event} {ls : List (Event × Reply)}
    (h : s.performAll events = some (ls, t)) (hall : s.keepsOrderAll events = true) :
    ∀ u l, Run.Takes Step s ls t u l → u.KeepsOrder l.1 := by
  induction events generalizing s ls with
  | nil =>
    cases h
    rintro u l ⟨before, v, after, hls, -⟩
    simp at hls
  | cons event events ih =>
    simp only [performAll] at h
    split at h
    · cases h
    · next u reply hperform =>
        split at h
        · obtain ⟨⟨ks, v⟩, hrest, hlabels⟩ := Option.map_eq_some_iff.mp h
          cases hlabels
          rw [keepsOrderAll, Bool.and_eq_true, hperform] at hall
          intro w l htakes
          rcases htakes.uncons with ⟨rfl, rfl⟩ | ⟨s', hstep, htakes⟩
          · exact of_decide_eq_true hall.1
          · -- a request has one outcome
            have hsame : s.perform event = .ok (s', reply) := hstep.1
            rw [hperform] at hsame
            cases hsame
            exact ih hrest hall.2 w l htakes
        · cases h

/-- A key that is released a second after it was pressed is handed out in order. -/
theorem queued_follows_queue_sample : ∃ (ls : List (Event × Reply)) (t : State),
    t.queued "session" ≠ [] ∧
      Run (QueueStep "session") (sampleState.queued "session") ls (t.queued "session") := by
  have hsample : (sampleState.performAll (sampleKeys (seconds 1))).any
      (fun run => !(run.2.queued "session").isEmpty) = true ∧
      sampleState.keepsOrderAll (sampleKeys (seconds 1)) = true := by
    decide +kernel
  obtain ⟨⟨ls, t⟩, hrun, h⟩ := (Option.any_eq_true _ _).mp hsample.1
  refine ⟨ls, t, ?_, queued_follows_queue (run_of_performAll hrun)
    (keepsOrder_of_all hrun hsample.2) "session"⟩
  intro hnone
  rw [hnone] at h
  cases h

end Ipms.Server.HyperV
