import Ipms.Console.Dispatcher

/-
  Ipms.Console.AtMostOnce

  No event of console input is carried out twice.  The receipt installed before a
  batch is applied bars every further poll until it is delivered; once the control
  plane has processed it, an event of the batch that was acknowledged is gone, and
  after a failure the whole batch lies in a session that is over.
-/

namespace Ipms.Console

open Ipms.Lib Ipms.ManagementJson
open Ipms.Server.HyperV (State InputEvent Enrollment Reply SessionKept)
open Ipms.Server.HyperV.State (Assignment InputCycle)

/-! ## Events in the control plane -/

/-- An identifier is that of an event of the session, while the event is there. -/
def Owned (server : State) (minted : List String) (session id : String) : Prop :=
  id ∈ minted ∧ ∀ event ∈ server.inputs.rows, event.id = id → event.session = session

/-- An identifier is not offered any more: its event is gone, or its session is over. -/
def Retired (server : State) (minted : List String) (id : String) : Prop :=
  id ∈ minted ∧ ∀ event ∈ server.inputs.rows, event.id = id →
    ∃ x, server.sessions.get? event.session = some x ∧ x.status.isOpen = false

/-- A step of the control plane that gives no identifier twice. -/
structure ServerStep (server : State) (minted : List String) (server' : State)
    (minted' : List String) : Prop where
  step : ∃ l, Server.HyperV.Step server l server' ∧ Fresh minted l.1 ∧ minted' = mint minted l.1

theorem mint_subset (minted : List String) (event : Server.HyperV.Event) :
    minted ⊆ mint minted event := by
  unfold mint
  split
  · exact List.subset_cons_self _ minted
  · exact List.Subset.refl minted

variable {server' server : State} {e : Enrollment}

theorem ServerStep.inputCycle (minted : List String) {cycle : InputCycle} {reply : Reply}
    (h : Server.HyperV.Step server (.inputCycle e cycle, reply) server') :
    ServerStep server minted server' minted := by
  exact ⟨_, h, trivial, rfl⟩

namespace ServerStep

variable {server server' : State} {minted minted' : List String}

theorem minted_subset (h : ServerStep server minted server' minted') : minted ⊆ minted' := by
  obtain ⟨l, -, -, rfl⟩ := h.step
  exact mint_subset minted l.1

theorem back (h : ServerStep server minted server' minted') {event : InputEvent}
    (hevent : event ∈ server'.inputs.rows) (hid : event.id ∈ minted) :
    ∃ old ∈ server.inputs.rows, old.id = event.id ∧ old.session = event.session := by
  obtain ⟨l, hstep, hfresh, -⟩ := h.step
  rcases hstep.inputs event hevent with ⟨session, actor, eventType, payload, hqueued⟩ | hold
  · rw [hqueued] at hfresh
    exact absurd hid hfresh
  · exact hold

theorem known (h : ServerStep server minted server' minted')
    (hknown : ∀ event ∈ server.inputs.rows, event.id ∈ minted) :
    ∀ event ∈ server'.inputs.rows, event.id ∈ minted' := by
  intro event hevent
  obtain ⟨l, hstep, -, rfl⟩ := h.step
  rcases hstep.inputs event hevent with ⟨session, actor, eventType, payload, hqueued⟩ | hold
  · rw [hqueued]
    exact List.mem_cons_self
  · obtain ⟨old, hold, hid, -⟩ := hold
    exact mint_subset minted l.1 (hid ▸ hknown old hold)

theorem owned (h : ServerStep server minted server' minted') {session id : String}
    (howned : Owned server minted session id) : Owned server' minted' session id := by
  refine ⟨h.minted_subset howned.1, fun event hevent hid => ?_⟩
  obtain ⟨old, hold, hid', hsession⟩ := h.back hevent (hid ▸ howned.1)
  rw [← hsession]
  exact howned.2 old hold (hid'.trans hid)

theorem retired (h : ServerStep server minted server' minted') {id : String}
    (hretired : Retired server minted id) : Retired server' minted' id := by
  refine ⟨h.minted_subset hretired.1, fun event hevent hid => ?_⟩
  obtain ⟨old, hold, hid', hsession⟩ := h.back hevent (hid ▸ hretired.1)
  obtain ⟨x, hx, hover⟩ := hretired.2 old hold (hid'.trans hid)
  obtain ⟨l, hstep, -, -⟩ := h.step
  obtain ⟨y, hy, hkept⟩ := hstep.sessionKept hx
  rw [hsession] at hy
  exact ⟨y, hy, by rw [hkept.settled hover, hover]⟩

end ServerStep

variable {batch : Assignment}

theorem poll_offers {minted : List String} {expireStale active : Bool}
    (hknown : ∀ event ∈ server.inputs.rows, event.id ∈ minted) (h : Server.HyperV.Step server
      (.inputCycle e (pollCycle expireStale), .assigned active (some batch)) server') :
    (ids batch).Nodup ∧ (∀ id ∈ ids batch, Owned server' minted batch.sessionId id) ∧
      ∀ id, Retired server minted id → id ∉ ids batch := by
  have hserver : ServerStep server minted server' minted := .inputCycle _ h
  obtain ⟨⟨u, active', offered⟩, hu, h⟩ := bind_eq_ok.mp h.1
  cases h
  obtain ⟨-, hbatch⟩ := State.processConsoleInputCycle_polls rfl hu
  obtain ⟨hnodup, hevents⟩ := hbatch batch rfl
  refine ⟨hnodup, ?_, ?_⟩
  · intro id hid
    obtain ⟨event, hevent, rfl⟩ := List.mem_map.mp hid
    obtain ⟨⟨old, hold, hid, hsession⟩, -⟩ := hevents event hevent
    apply hserver.owned
    refine ⟨hid ▸ hknown old hold, fun other hother hid' => ?_⟩
    rw [Table.row_unique hother hold (hid'.trans hid.symm)]
    exact hsession
  · intro id hretired hid
    obtain ⟨event, hevent, rfl⟩ := List.mem_map.mp hid
    obtain ⟨⟨old, hold, hid, hsession⟩, x, hx, hopen⟩ := hevents event hevent
    obtain ⟨y, hy, hover⟩ := hretired.2 old hold hid
    rw [hsession, hx] at hy
    cases hy
    rw [hopen] at hover
    cases hover

/-- The events of a batch that are settled when its receipt is processed: after a success those it
acknowledged, else all. -/
def settled (batch : Assignment) : Applied → List String
  | .returned true acknowledged _ => (ids batch).filter (acknowledged.contains ·)
  | _ => ids batch

theorem settled_subset (batch : Assignment) (result : Applied) :
    settled batch result ⊆ ids batch := by
  unfold settled
  split
  · exact fun id hid => List.mem_of_mem_filter hid
  · exact List.Subset.refl _

variable {result : Applied}

/-- A processed receipt retires the events it settles. -/
theorem receipt_retires {minted : List String} {expireStale : Bool} {reply : Reply}
    (hsession : batch.sessionId ≠ "")
    (howned : ∀ id ∈ ids batch, Owned server minted batch.sessionId id)
    (h : Server.HyperV.Step server
      (.inputCycle e ((result.receipt batch).cycle expireStale), reply) server') :
    ∀ id ∈ settled batch result, Retired server' minted id := by
  have hserver : ServerStep server minted server' minted := .inputCycle _ h
  obtain ⟨⟨u, active, offered⟩, hu, h⟩ := bind_eq_ok.mp h.1
  cases h
  have hcycle : ((result.receipt batch).cycle expireStale).sessionId = batch.sessionId := by
    cases result <;> rfl
  obtain ⟨hgone, hover⟩ :=
    State.processConsoleInputCycle_settles (by rw [hcycle]; exact hsession) hu
  rw [hcycle] at hgone hover
  intro id hid
  have hbatch : id ∈ ids batch := settled_subset batch result hid
  obtain ⟨hminted, hrows⟩ := hserver.owned (howned id hbatch)
  refine ⟨hminted, fun event hevent hevid => ?_⟩
  have hin : event.session = batch.sessionId := hrows event hevent hevid
  rw [hin]
  cases result with
  | threw carriedOut => exact hover (show "console_input_failed" ≠ "" by decide)
  | returned succeeded acknowledged carriedOut =>
    cases succeeded with
    | false => exact hover (show "console_input_failed" ≠ "" by decide)
    | true =>
      -- an acknowledged event is not there any more
      have hacknowledged : id ∈ acknowledged := by
        simpa using (List.mem_filter.mp hid).2
      have hnot := hgone event hevent hin
      rw [hevid] at hnot
      exact absurd hacknowledged hnot

/-! ## Invariants -/

/-- The batch a cycle holds is one the control plane handed out. -/
structure Sound (s : System) : Prop where
  known : ∀ event ∈ s.server.inputs.rows, event.id ∈ s.minted
  free : ∀ batch, s.phase = .polled batch → s.pending = none
  session : ∀ batch, s.phase = .polled batch → batch.sessionId ≠ ""
  nodup : ∀ batch, s.phase = .polled batch → (ids batch).Nodup
  owned : ∀ batch, s.phase = .polled batch →
    ∀ id ∈ ids batch, Owned s.server s.minted batch.sessionId id

variable {s : System}

theorem Sound.of_started (h : s.Started) : Sound s := by
  obtain ⟨hidle, -, hknown⟩ := h
  constructor
  · exact hknown
  all_goals
    intro batch hpolled
    rw [hidle] at hpolled
    cases hpolled

theorem Sound.of_not_polled (hknown : ∀ event ∈ s.server.inputs.rows, event.id ∈ s.minted)
    (hphase : ∀ batch, s.phase ≠ .polled batch) : Sound s where
  known := hknown
  free batch h := absurd h (hphase batch)
  session batch h := absurd h (hphase batch)
  nodup batch h := absurd h (hphase batch)
  owned batch h := absurd h (hphase batch)

variable {agent : String} {t : System} {l : Event}

theorem Step.sound (h : Step agent s l t) (hs : Sound s) : Sound t := by
  cases h with
  | @server event reply server' h fresh foreign =>
    have hserver : ServerStep s.server s.minted server' (mint s.minted event) :=
      ⟨_, h, fresh, rfl⟩
    exact ⟨hserver.known hs.known, hs.free, hs.session, hs.nodup,
      fun batch hpolled id hid => hserver.owned (hs.owned batch hpolled id hid)⟩
  | resume idle h | undelivered delivering h => exact .of_not_polled hs.known nofun
  | poll he idle free h =>
    have hserver := ServerStep.inputCycle s.minted h
    refine .of_not_polled (hserver.known hs.known) fun batch hpolled => ?_
    rw [show s.phase = .idle from idle] at hpolled
    cases hpolled
  | @take e expireStale batch server' he idle free h valid =>
    have hserver := ServerStep.inputCycle s.minted h
    obtain ⟨hnodup, howned, -⟩ := poll_offers hs.known h
    constructor
    · exact hserver.known hs.known
    · exact fun _ _ => free
    all_goals
      rintro batch' ⟨⟩
    · exact valid.2.2
    · exact hnodup
    · exact howned
  | apply h result once cancelled =>
    exact .of_not_polled hs.known (afterApply_ne result cancelled)
  | deliver he delivering h processed returned =>
    have hserver := ServerStep.inputCycle s.minted processed
    exact .of_not_polled (hserver.known hs.known) nofun

/-- What has become of a batch that was applied: its receipt is pending and bars every poll, or what
it settles is retired. -/
def Fate (batch : Assignment) (result : Applied) (s : System) : Prop :=
  (s.pending = some (result.receipt batch) ∧ (∀ other, s.phase ≠ .polled other) ∧
    batch.sessionId ≠ "" ∧ ∀ id ∈ ids batch, Owned s.server s.minted batch.sessionId id) ∨
  ∀ id ∈ settled batch result, Retired s.server s.minted id ∧
    ∀ other, s.phase = .polled other → id ∉ ids other

theorem Step.fate (h : Step agent s l t) (hs : Sound s) (hfate : Fate batch result s) :
    Fate batch result t := by
  cases h with
  | @server event reply server' h fresh foreign =>
    have hserver : ServerStep s.server s.minted server' (mint s.minted event) :=
      ⟨_, h, fresh, rfl⟩
    rcases hfate with ⟨hpending, hphase, hsession, howned⟩ | hretired
    · exact .inl ⟨hpending, hphase, hsession, fun id hid => hserver.owned (howned id hid)⟩
    · exact .inr fun id hid => ⟨hserver.retired (hretired id hid).1, (hretired id hid).2⟩
  | resume idle h | undelivered delivering h =>
    rcases hfate with ⟨hpending, -, hsession, howned⟩ | hretired
    · exact .inl ⟨hpending, nofun, hsession, howned⟩
    · exact .inr fun id hid => ⟨(hretired id hid).1, nofun⟩
  | poll he idle free h =>
    have hserver := ServerStep.inputCycle s.minted h
    rcases hfate with ⟨hpending, -⟩ | hretired
    · rw [free] at hpending
      cases hpending
    · exact .inr fun id hid => ⟨hserver.retired (hretired id hid).1, (hretired id hid).2⟩
  | take he idle free h valid =>
    have hserver := ServerStep.inputCycle s.minted h
    obtain ⟨-, -, hoffered⟩ := poll_offers hs.known h
    rcases hfate with ⟨hpending, -⟩ | hretired
    · rw [free] at hpending
      cases hpending
    · refine .inr fun id hid => ⟨hserver.retired (hretired id hid).1, ?_⟩
      rintro other ⟨⟩
      exact hoffered id (hretired id hid).1
  | apply h result' once cancelled =>
    rcases hfate with ⟨-, hphase, -⟩ | hretired
    · exact absurd h (hphase _)
    · exact .inr fun id hid => ⟨(hretired id hid).1,
        fun other hpolled => absurd hpolled (afterApply_ne result' cancelled other)⟩
  | deliver he delivering h processed returned =>
    have hserver := ServerStep.inputCycle s.minted processed
    refine .inr fun id hid => ⟨?_, nofun⟩
    rcases hfate with ⟨hpending, -, hsession, howned⟩ | hretired
    · rw [h] at hpending
      cases hpending
      exact receipt_retires hsession howned processed id hid
    · exact hserver.retired (hretired id hid).1

theorem Step.applied {cancelled : Bool} (h : Step agent s (.apply batch result cancelled) t)
    (hs : Sound s) :
    Fate batch result t ∧ (ids batch).Nodup ∧ result.carriedOut.Sublist (ids batch) := by
  cases h with
  | apply h result once cancelled =>
    exact ⟨.inl ⟨rfl, afterApply_ne result cancelled, hs.session batch h, hs.owned batch h⟩,
      hs.nodup batch h, once⟩

/-- Nothing that is settled is offered or applied again. -/
theorem Fate.disjoint {other : Assignment} (h : Step agent s l t) (hs : Sound s)
    (hfate : Fate batch result s)
    (hl : (∃ taken, l = .poll (some other) taken) ∨ ∃ r c, l = .apply other r c) :
    (settled batch result).Disjoint (ids other) := by
  intro id hid hother
  cases h with
  | server | resume | deliver | undelivered => simp at hl
  | poll he idle free h =>
    rcases hfate with ⟨hpending, -⟩ | hretired
    · rw [free] at hpending
      cases hpending
    · obtain ⟨taken, hl⟩ : ∃ taken, Event.poll _ false = .poll (some other) taken := by
        simpa using hl
      cases hl
      exact (poll_offers hs.known h).2.2 id (hretired id hid).1 hother
  | take he idle free h valid =>
    rcases hfate with ⟨hpending, -⟩ | hretired
    · rw [free] at hpending
      cases hpending
    · obtain ⟨taken, hl⟩ : ∃ taken, Event.poll (some _) true = .poll (some other) taken := by
        simpa using hl
      cases hl
      exact (poll_offers hs.known h).2.2 id (hretired id hid).1 hother
  | apply h result' once cancelled =>
    obtain ⟨r, c, hl⟩ : ∃ r c, Event.apply _ result' cancelled = .apply other r c := by
      simpa using hl
    cases hl
    rcases hfate with ⟨-, hphase, -⟩ | hretired
    · exact hphase other h
    · exact (hretired id hid).2 other h hother

/-! ## Whole runs -/

section Runs

variable {agent : String}

theorem Run.fate_disjoint {s t : System} {ls : List Event} (h : Run (Step agent) s ls t)
    (hs : Sound s) {batch : Assignment} {result : Applied} (hfate : Fate batch result s) :
    ∀ l ∈ ls, ∀ other, ((∃ taken, l = .poll (some other) taken) ∨ ∃ r c, l = .apply other r c) →
      (settled batch result).Disjoint (ids other) := by
  induction h with
  | nil =>
    intro l hl
    cases hl
  | cons hstep _ ih =>
    intro l hl other hevent
    rcases List.mem_cons.mp hl with rfl | hl
    · exact hfate.disjoint hstep hs hevent
    · exact ih (hstep.sound hs) (hstep.fate hs hfate) l hl other hevent

theorem Run.pairwise {ls : List Event} (h : Run (Step agent) s ls t) (hs : Sound s) :
    ls.Pairwise fun x y => ∀ batch result cancelled other, x = .apply batch result cancelled →
      ((∃ taken, y = .poll (some other) taken) ∨ ∃ r c, y = .apply other r c) →
        (settled batch result).Disjoint (ids other) := by
  induction h with
  | nil => exact .nil
  | cons hstep hrest ih =>
    refine .cons ?_ (ih (hstep.sound hs))
    rintro y hy batch result cancelled other rfl hevent
    exact Run.fate_disjoint hrest (hstep.sound hs) (hstep.applied hs).1 y hy other hevent

theorem Run.pending {s t : System} {ls : List Event} (h : Run (Step agent) s ls t)
    {receipt : Receipt} (hpending : s.pending = some receipt)
    (hphase : ∀ batch, s.phase ≠ .polled batch) :
    .deliver receipt true true ∈ ls ∨ t.pending = some receipt := by
  induction h with
  | nil => exact .inr hpending
  | @cons s v t l ls hstep _ ih =>
    have hlater : v.pending = some receipt → (∀ batch, v.phase ≠ .polled batch) →
        .deliver receipt true true ∈ l :: ls ∨ t.pending = some receipt :=
      fun hpending hphase => (ih hpending hphase).imp_left (List.mem_cons_of_mem l)
    cases hstep with
    | server => exact hlater hpending hphase
    | resume => exact hlater hpending nofun
    | poll he idle free | take he idle free =>
      rw [free] at hpending
      cases hpending
    | apply h => exact absurd h (hphase _)
    | deliver he delivering h processed returned =>
      rw [h] at hpending
      cases hpending
      cases returned with
      | true => exact .inl List.mem_cons_self
      | false => exact hlater rfl (fun _ => nofun)
    | undelivered => exact hlater hpending nofun

/-- The events an application was given, and those it carried out. -/
def passed : Event → List String
  | .apply batch _ _ => ids batch
  | _ => []

/-- The events an application carried out. -/
def carriedOut : Event → List String
  | .apply _ result _ => result.carriedOut
  | _ => []

theorem Run.batches {ls : List Event} (h : Run (Step agent) s ls t) (hs : Sound s) :
    ∀ l ∈ ls, (passed l).Nodup ∧ (carriedOut l).Sublist (passed l) := by
  induction h with
  | nil =>
    intro l hl
    cases hl
  | cons hstep _ ih =>
    intro l hl
    rcases List.mem_cons.mp hl with rfl | hl
    · cases l with
      | apply batch result cancelled => exact (hstep.applied hs).2
      | server | resume | poll | deliver => exact ⟨List.nodup_nil, .slnil⟩
    · exact ih (hstep.sound hs) l hl

theorem carriedOut_subset_settled (hfaithful : result.Faithful)
    (hwithin : result.carriedOut.Sublist (ids batch)) :
    result.carriedOut ⊆ settled batch result := by
  intro id hid
  cases result with
  | threw => exact hwithin.subset hid
  | returned succeeded acknowledged done =>
    cases succeeded with
    | false => exact hwithin.subset hid
    | true =>
      have hsame : acknowledged = done := hfaithful
      subst hsame
      exact List.mem_filter.mpr ⟨hwithin.subset hid, List.contains_iff_mem.mpr hid⟩

theorem settled_of_complete (hcomplete : result.Complete batch) :
    settled batch result = ids batch := by
  cases result with
  | threw => rfl
  | returned succeeded acknowledged done =>
    cases succeeded with
    | false => rfl
    | true =>
      obtain ⟨hacknowledged, hdone⟩ := hcomplete
      have hall : acknowledged = ids batch := hacknowledged.trans hdone
      subst hall
      exact List.filter_eq_self.mpr fun id hid => List.contains_iff_mem.mpr hid

/-- Console input along the steps of a run. -/
structure InputOnce (ls : List Event) : Prop where
  /-- a dispatcher whose successes acknowledge what they carried out carries out no event twice -/
  carriedOutOnce :
    (∀ batch result cancelled, .apply batch result cancelled ∈ ls → result.Faithful) →
      (ls.flatMap carriedOut).Nodup
  /-- where a success is that of its batch, no event is passed on twice -/
  passedOnce :
    (∀ batch result cancelled, .apply batch result cancelled ∈ ls → result.Complete batch) →
      (ls.flatMap passed).Nodup
  /-- the receipt of a batch is delivered before the next poll -/
  receiptFirst : ∀ before batch result cancelled middle offered taken after,
    ls = before ++ .apply batch result cancelled :: (middle ++ .poll offered taken :: after) →
      .deliver (result.receipt batch) true true ∈ middle
  /-- no event of a batch that failed or was interrupted is offered again -/
  failedOnce : ls.Pairwise fun x y => ∀ batch result cancelled other taken,
    x = .apply batch result cancelled → result.succeeded = false →
      y = .poll (some other) taken → (ids batch).Disjoint (ids other)

/-- Every run of the dispatcher and the control plane from a process that starts. -/
theorem consoleInput_once {s t : System} {ls : List Event} (hs : s.Started)
    (h : Run (Step agent) s ls t) : InputOnce ls := by
  have hsound : Sound s := .of_started hs
  have hpairs := Run.pairwise h hsound
  have hbatches := Run.batches h hsound
  refine ⟨fun hfaithful => ?_, fun hcomplete => ?_, ?_, ?_⟩
  · refine List.nodup_flatMap.mpr ⟨fun l hl => (hbatches l hl).1.sublist (hbatches l hl).2, ?_⟩
    refine hpairs.imp_of_mem ?_
    intro x y hx hy hxy
    cases x with
    | apply batch result cancelled =>
      cases y with
      | apply other result' cancelled' =>
        have hcarried := carriedOut_subset_settled (hfaithful _ _ _ hx) (hbatches _ hx).2
        have hdisjoint := hxy batch result cancelled other rfl (.inr ⟨_, _, rfl⟩)
        exact List.disjoint_of_subset_left hcarried
          (List.disjoint_of_subset_right (hbatches _ hy).2.subset hdisjoint)
      | server | resume | poll | deliver => exact List.disjoint_nil_right _
    | server | resume | poll | deliver => exact List.disjoint_nil_left _
  · refine List.nodup_flatMap.mpr ⟨fun l hl => (hbatches l hl).1, ?_⟩
    refine hpairs.imp_of_mem ?_
    intro x y hx hy hxy
    cases x with
    | apply batch result cancelled =>
      cases y with
      | apply other result' cancelled' =>
        have hdisjoint := hxy batch result cancelled other rfl (.inr ⟨_, _, rfl⟩)
        rw [settled_of_complete (hcomplete _ _ _ hx)] at hdisjoint
        exact hdisjoint
      | server | resume | poll | deliver => exact List.disjoint_nil_right _
    | server | resume | poll | deliver => exact List.disjoint_nil_left _
  · rintro before batch result cancelled middle offered taken after rfl
    obtain ⟨u, -, hafter⟩ := h.split
    obtain ⟨v, hstep, hrest⟩ := hafter.uncons
    obtain ⟨w, hmiddle, hpoll⟩ := hrest.split
    obtain ⟨w', hpoll, -⟩ := hpoll.uncons
    have hpending : v.pending = some (result.receipt batch) ∧ ∀ other, v.phase ≠ .polled other := by
      cases hstep with
      | apply h result once cancelled => exact ⟨rfl, afterApply_ne result cancelled⟩
    rcases Run.pending hmiddle hpending.1 hpending.2 with hdelivered | hkept
    · exact hdelivered
    · cases hpoll with
      | poll he idle free | take he idle free =>
        rw [free] at hkept
        cases hkept
  · refine hpairs.imp ?_
    rintro x y hxy batch result cancelled other taken rfl hfailed rfl
    have hsettled : settled batch result = ids batch := by
      cases result with
      | threw => rfl
      | returned succeeded acknowledged done =>
        have hfalse : succeeded = false := hfailed
        subst hfalse
        rfl
    rw [← hsettled]
    exact hxy batch result cancelled other rfl (.inl ⟨taken, rfl⟩)

end Runs

/-- The sample machine's console is open, and two keys are queued. -/
def sampleSystem : System where
  server := Server.HyperV.sampleState
  minted := []
  pending := none
  phase := .idle

/-- A key of the console. -/
def sampleKey (id : String) : Command :=
  .server (.queueInput id "session" "user" "key" (.obj [("key_code", .int 65), ("is_down", .bool true)]))

/-- Two keys are polled and pressed; the reply to their receipt is lost, it is delivered again, and
the third key is polled and lost in an exception. -/
def sampleCommands : List Command :=
  [.server (.createSession "session" "generation" Server.HyperV.sampleConsole), sampleKey "a",
   sampleKey "b", .poll, .apply (.returned true ["a", "b"] ["a", "b"]) false, .deliver true false,
   sampleKey "c", .resume, .deliver true true, .poll, .apply (.threw []) false, .resume,
   .deliver false false, .resume, .deliver true true]

/-- Of two keys that are polled together the first is carried out, acknowledged, and reported as a
success. -/
def samplePartial : List Command :=
  [.server (.createSession "session" "generation" Server.HyperV.sampleConsole), sampleKey "a",
   sampleKey "b", .poll, .apply (.returned true ["a"] ["a"]) false, .deliver true true, .poll,
   .apply (.returned true ["b"] ["b"]) false]

/-- A success of a part of its batch leaves the rest to be offered again: the second key is passed
on twice, and carried out once. -/
theorem partial_success_passed_twice :
    ∃ s ls t, s.Started ∧ Run (Step Server.HyperV.sampleEnrollment.id) s ls t ∧
      (∀ batch result cancelled, .apply batch result cancelled ∈ ls → result.Faithful) ∧
      ¬(ls.flatMap passed).Nodup := by
  have hsample : (sampleSystem.runAll Server.HyperV.sampleEnrollment samplePartial).any (fun run =>
      run.1.flatMap passed == ["a", "b", "b"] && run.1.all fun l => match l with
        | .apply _ result _ => decide result.Faithful
        | _ => true) = true := by
    decide +kernel
  obtain ⟨⟨ls, t⟩, hrun, h⟩ := (Option.any_eq_true _ _).mp hsample
  rw [Bool.and_eq_true, beq_iff_eq, List.all_eq_true] at h
  refine ⟨sampleSystem, ls, t, ⟨rfl, rfl, ?_⟩, System.run_of_runAll hrun, ?_, ?_⟩
  · intro event hevent
    cases hevent
  · intro batch result cancelled hl
    exact of_decide_eq_true (h.2 _ hl)
  · rw [h.1]
    decide

/-- In this run the three keys are passed on once each, and the lost one is not offered again. -/
theorem consoleInput_once_sample :
    ∃ ls, ls.flatMap passed = ["a", "b", "c"] ∧ InputOnce ls := by
  have hsample : (sampleSystem.runAll Server.HyperV.sampleEnrollment sampleCommands).any
      (fun run => run.1.flatMap passed == ["a", "b", "c"]) = true := by
    decide +kernel
  obtain ⟨⟨ls, t⟩, hrun, h⟩ := (Option.any_eq_true _ _).mp hsample
  have hstarted : sampleSystem.Started := by
    refine ⟨rfl, rfl, fun event hevent => ?_⟩
    cases hevent
  exact ⟨ls, beq_iff_eq.mp h, consoleInput_once hstarted (System.run_of_runAll hrun)⟩

end Ipms.Console
