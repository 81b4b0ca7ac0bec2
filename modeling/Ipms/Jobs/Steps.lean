import Ipms.Jobs.Life

/-
  Ipms.Jobs.Steps

  What each step of the system can do, once for every invariant below: the
  readings of a processed request, of a step of a cycle and of a step of an
  updater.
-/

namespace Ipms.Jobs

open Ipms.Lib Ipms.Server

/-! ## The messages -/

variable {t s : System} {o : Option Observation}

/-- The reading of a processed request. -/
theorem System.serve_cases {request : Request} {kept : Bool} {answered : Option Nat} {now : Time}
    (h : s.serve request kept answered now = some (t, o)) :
    request ∈ s.sent ∧ t.updaters = s.updaters ∧ t.files = s.files ∧ t.connections = s.connections ∧
      ((∃ message, s.server.process now request.message = (t.server, .inr message) ∧
          o = none ∧ answered = none ∧ t.cycles = s.cycles ∧
          t.sent = ⟨request.connection, message⟩ :: (if kept then s.sent else s.sent.erase request)) ∨
        ∃ answer, s.server.process now request.message = (t.server, .inl answer) ∧
          o = request.message.observation answer ∧
          t.sent = (if kept then s.sent else s.sent.erase request) ∧
          (answered = none ∧ t.cycles = s.cycles ∨
            ∃ c purpose, answered = some c ∧ s.cycles c = .waiting purpose request.connection ∧
              purpose.awaits request.message = true ∧
              t.cycles = (s.setCycle c (.answered purpose answer)).cycles)) := by
  unfold System.serve at h
  split at h
  · next hsent =>
      refine ⟨hsent, ?_⟩
      cases hprocess : s.server.process now request.message with
      | mk server reply =>
        rw [hprocess] at h
        cases reply with
        | inr message =>
          simp only at h
          split at h
          · next hnone =>
              cases h
              exact ⟨rfl, rfl, rfl, .inl ⟨message, rfl, rfl, hnone, rfl, rfl⟩⟩
          · cases h
        | inl answer =>
          cases answered with
          | none =>
            cases h
            exact ⟨rfl, rfl, rfl, .inr ⟨answer, rfl, rfl, rfl, .inl ⟨rfl, rfl⟩⟩⟩
          | some c =>
            simp only [System.answer, Option.bind_eq_bind, Option.bind_eq_some_iff] at h
            obtain ⟨u, hu, hpure⟩ := h
            cases hpure
            split at hu
            · next purpose connection hphase =>
                split at hu
                · next hawaits =>
                    cases hu
                    obtain ⟨rfl, hawaits⟩ := hawaits
                    exact ⟨rfl, rfl, rfl, .inr ⟨answer, rfl, rfl, rfl,
                      .inr ⟨c, purpose, rfl, hphase, hawaits, rfl⟩⟩⟩
                · cases hu
            · cases hu
  · cases h

/-- The steps of a cycle, with the state they leave and what they make happen. -/
inductive CycleStep (s : System) (c : Nat) : CycleAct → System → Option Observation → Prop where
  | begin (h : s.cycles c = .idle) :
      CycleStep s c .begin (s.setCycle c (.checking .lifecycle)) none
  | absent {kind : Kind} (h : s.cycles c = .checking kind) (hfile : s.files kind = none) :
      CycleStep s c .check (s.setCycle c (.afterFile kind)) none
  | pending {kind : Kind} {report : Report} (h : s.cycles c = .checking kind)
      (hfile : s.files kind = some report) :
      CycleStep s c .check (s.send c (.pending kind report)) none
  | send {purpose : Purpose} (h : (s.cycles c).next = some purpose) :
      CycleStep s c .send (s.send c purpose) none
  | proceed {purpose : Purpose} {answer : Answer} {phase : Phase}
      (h : s.cycles c = .answered purpose answer)
      (hphase : Phase.afterAnswer purpose answer = some phase) :
      CycleStep s c .proceed (s.setCycle c phase) none
  | keep {kind : Kind} (h : s.cycles c = .removing kind) :
      CycleStep s c (.remove false) (s.setCycle c (.afterFile kind)) none
  | remove {kind : Kind} (h : s.cycles c = .removing kind) :
      CycleStep s c (.remove true) ((s.setCycle c (.afterFile kind)).setFile kind none) none
  | execute {a : Assignment} (outcome : VmOutcome) (h : s.cycles c = .started a)
      (hkind : a.action.kind = .vm) :
      CycleStep s c (.execute outcome) (s.setCycle c (.executed a (outcome.report a.jobId)))
        (some (.started a.ref))
  | launchFailed {a : Assignment} (h : s.cycles c = .started a)
      (hkind : a.action.kind = .lifecycle) :
      CycleStep s c (.launch false) (s.setCycle c .idle) none
  | launch {a : Assignment} (h : s.cycles c = .started a) (hkind : a.action.kind = .lifecycle) :
      CycleStep s c (.launch true) ((s.setCycle c .idle).setUpdater a.jobId (.preparing a.action))
        (some (.started a.ref))
  | unfiled {report : Report} (h : s.cycles c = .filing report) :
      CycleStep s c (.file false) (s.setCycle c .idle) none
  | file {report : Report} (h : s.cycles c = .filing report) :
      CycleStep s c (.file true) ((s.setCycle c .idle).setFile .vm (some report)) none
  | fail : CycleStep s c .fail (s.setCycle c (s.cycles c).afterFailure) none
  | crash : CycleStep s c .crash (s.setCycle c .idle) none

variable {c : Nat}

/-- Every step of a cycle is one of these. -/
theorem System.cycleStep {act : CycleAct} (h : s.cycle c act = some (t, o)) :
    CycleStep s c act t o := by
  cases act with
  | begin =>
    simp only [System.cycle] at h
    split at h
    · next hphase =>
        cases h
        exact .begin hphase
    · cases h
  | check =>
    simp only [System.cycle] at h
    split at h
    · next kind hphase =>
        split at h
        · next report hfile =>
            cases h
            exact .pending hphase hfile
        · next hfile =>
            cases h
            exact .absent hphase hfile
    · cases h
  | send =>
    simp only [System.cycle, Option.bind_eq_bind, Option.bind_eq_some_iff, Option.pure_def] at h
    obtain ⟨purpose, hnext, h⟩ := h
    cases h
    exact .send hnext
  | proceed =>
    simp only [System.cycle] at h
    split at h
    · next purpose answer hphase =>
        simp only [Option.bind_eq_bind, Option.bind_eq_some_iff, Option.pure_def] at h
        obtain ⟨phase, hafter, h⟩ := h
        cases h
        exact .proceed hphase hafter
    · cases h
  | remove removed =>
    simp only [System.cycle] at h
    split at h
    · next kind hphase =>
        cases removed with
        | false =>
          cases h
          exact .keep hphase
        | true =>
          cases h
          exact .remove hphase
    · cases h
  | execute outcome =>
    simp only [System.cycle] at h
    split at h
    · next a hphase =>
        split at h
        · next haction =>
            cases h
            exact .execute outcome hphase (by rw [haction]; rfl)
        · cases h
    · cases h
  | launch launched =>
    simp only [System.cycle] at h
    split at h
    · next a hphase =>
        split at h
        · cases h
        · next hnot =>
            have hkind : a.action.kind = .lifecycle := by
              cases haction : a.action with
              | vm action machine source name => exact absurd haction (hnot action machine source name)
              | update version digest | uninstall => rfl
            cases launched with
            | false =>
              cases h
              exact .launchFailed hphase hkind
            | true =>
              cases h
              exact .launch hphase hkind
    · cases h
  | file written =>
    simp only [System.cycle] at h
    split at h
    · next report hphase =>
        cases written with
        | false =>
          cases h
          exact .unfiled hphase
        | true =>
          cases h
          exact .file hphase
    · cases h
  | fail =>
    cases h
    exact .fail
  | crash =>
    cases h
    exact .crash

theorem CycleStep.frame {act : CycleAct} (h : CycleStep s c act t o) :
    t.server = s.server ∧ ∀ other, other ≠ c → t.cycles other = s.cycles other := by
  cases h <;> exact ⟨rfl, fun _ hne => if_neg hne⟩

/-! ## The updaters -/

/-- The steps of an updater, with the state they leave. -/
inductive UpdaterStep (s : System) (jobId : String) : UpdaterAct → System → Prop where
  | prepared {version sha256 : String} (h : s.updaters jobId = .preparing (.update version sha256)) :
      UpdaterStep s jobId .advance (s.setUpdater jobId .replacing)
  | report {action : Action} (h : s.updaters jobId = .preparing action) :
      UpdaterStep s jobId .advance
        { s.setUpdater jobId .reporting with
          sent := ⟨s.connections, .result .lifecycle (uninstalled jobId)⟩ :: s.sent
          connections := s.connections + 1 }
  | replaced (h : s.updaters jobId = .replacing) :
      UpdaterStep s jobId .advance
        ((s.setUpdater jobId .restarting).setFile .lifecycle (some (updated jobId)))
  | finished (h : s.updaters jobId = .restarting ∨ s.updaters jobId = .reporting) :
      UpdaterStep s jobId .advance (s.setUpdater jobId .absent)
  | failed {code : String} (h : s.updaters jobId = .failing code) :
      UpdaterStep s jobId .advance
        ((s.setUpdater jobId .absent).setFile .lifecycle (some ⟨jobId, .failed, code⟩))
  | updateFailed {version sha256 : String}
      (h : s.updaters jobId = .preparing (.update version sha256)) :
      UpdaterStep s jobId .throws (s.setUpdater jobId (.failing "update_failed"))
  | rollBack (h : s.updaters jobId = .replacing ∨ s.updaters jobId = .restarting) :
      UpdaterStep s jobId .throws (s.setUpdater jobId (.failing "update_rolled_back"))
  | dropped (h : s.updaters jobId ≠ .absent) :
      UpdaterStep s jobId .throws (s.setUpdater jobId .absent)
  | crash : UpdaterStep s jobId .crash (s.setUpdater jobId .absent)

/-- Every step of an updater is one of these. -/
theorem System.updaterStep {jobId : String} {act : UpdaterAct} (h : s.updater jobId act = some t) :
    UpdaterStep s jobId act t := by
  cases act with
  | crash =>
    cases h
    exact .crash
  | advance =>
    simp only [System.updater] at h
    split at h
    · cases h
    · next hupdater =>
        cases h
        exact .prepared hupdater
    · next hupdater =>
        cases h
        exact .report hupdater
    · next hupdater =>
        cases h
        exact .replaced hupdater
    · next hupdater =>
        cases h
        exact .finished (.inl hupdater)
    · next hupdater =>
        cases h
        exact .finished (.inr hupdater)
    · next hupdater =>
        cases h
        exact .failed hupdater
  | throws =>
    simp only [System.updater] at h
    split at h
    · cases h
    · next hupdater =>
        cases h
        exact .updateFailed hupdater
    · next hupdater =>
        cases h
        exact .rollBack (.inl hupdater)
    · next hupdater =>
        cases h
        exact .rollBack (.inr hupdater)
    all_goals
      next hupdater =>
        cases h
        exact .dropped (by rw [hupdater]; simp)

theorem UpdaterStep.frame {jobId : String} {act : UpdaterAct} (h : UpdaterStep s jobId act t) :
    t.server = s.server ∧ t.cycles = s.cycles := by
  cases h <;> exact ⟨rfl, rfl⟩

variable {l : Event × Option Observation}

theorem Step.later (h : Step s l t) : s.server.Later t.server := by
  obtain ⟨event, o⟩ := l
  cases event with
  | admin act =>
    simp only [Step, System.step, Option.map_eq_some_iff] at h
    obtain ⟨server, hadmin, h⟩ := h
    cases h
    exact Server.later_administer hadmin
  | serve request kept answered now =>
    have hlater := s.server.later_process now request.message
    obtain ⟨-, -, -, -, ⟨_, hprocess, -⟩ | ⟨_, hprocess, -⟩⟩ := System.serve_cases h
    all_goals
      rw [hprocess] at hlater
      exact hlater
  | lose request =>
    cases h
    exact Table.Evolves.refl _
  | cycle c act =>
    rw [Server.Later, (System.cycleStep h).frame.1]
    exact Table.Evolves.refl _
  | updater jobId act =>
    simp only [Step, System.step, Option.map_eq_some_iff] at h
    obtain ⟨u, hupdater, h⟩ := h
    cases h
    rw [Server.Later, (System.updaterStep hupdater).frame.1]
    exact Table.Evolves.refl _

variable {ls : List (Event × Option Observation)}

theorem Runs.later (h : Runs s ls t) : s.server.Later t.server := by
  induction h with
  | nil => exact Table.Evolves.refl _
  | cons hstep _ ih => exact Table.Evolves.trans hstep.later ih

/-! ## What events leave alone -/

/-- An event that can change the phase of a cycle. -/
def Event.touches (c : Nat) : Event → Bool
  | .cycle other _ | .serve _ _ (some other) _ => other == c
  | _ => false

/-- An event that can change an updater. -/
def Event.updates : Event → Bool
  | .updater .. | .cycle _ (.launch true) => true
  | _ => false

theorem Step.cycles_of_untouched (h : Step s l t) (hl : l.1.touches c = false) :
    t.cycles c = s.cycles c := by
  obtain ⟨event, o⟩ := l
  cases event with
  | admin act =>
    simp only [Step, System.step, Option.map_eq_some_iff] at h
    obtain ⟨_, -, h⟩ := h
    cases h
    rfl
  | lose request =>
    cases h
    rfl
  | updater jobId act =>
    simp only [Step, System.step, Option.map_eq_some_iff] at h
    obtain ⟨u, hupdater, h⟩ := h
    cases h
    rw [(System.updaterStep hupdater).frame.2]
  | cycle other act =>
    have hne : c ≠ other := by
      rintro rfl
      simp [Event.touches] at hl
    exact (System.cycleStep h).frame.2 c hne
  | serve request kept answered now =>
    obtain ⟨-, -, -, -, ⟨_, -, -, -, hcycles, -⟩ | ⟨_, -, -, -, ⟨-, hcycles⟩ |
      ⟨other, _, hanswered, -, -, hcycles⟩⟩⟩ := System.serve_cases h
    · rw [hcycles]
    · rw [hcycles]
    · have hne : c ≠ other := by
        rintro rfl
        rw [hanswered] at hl
        simp [Event.touches] at hl
      rw [hcycles]
      exact if_neg hne

theorem Step.updaters_of_quiet (h : Step s l t) (hl : l.1.updates = false) :
    t.updaters = s.updaters := by
  obtain ⟨event, o⟩ := l
  cases event with
  | admin act =>
    simp only [Step, System.step, Option.map_eq_some_iff] at h
    obtain ⟨_, -, h⟩ := h
    cases h
    rfl
  | lose request =>
    cases h
    rfl
  | updater jobId act => cases hl
  | serve request kept answered now => exact (System.serve_cases h).2.1
  | cycle other act =>
    have hstep := System.cycleStep h
    clear h
    cases hstep with
    | launch h hkind => cases hl
    | _ => rfl

theorem Runs.cycles_of_untouched (h : Runs s ls t)
    (hls : ∀ event ∈ ls.map Prod.fst, event.touches c = false) : t.cycles c = s.cycles c := by
  induction h with
  | nil => rfl
  | cons hstep _ ih =>
    rw [ih fun event hevent => hls event (List.mem_cons_of_mem _ hevent),
      hstep.cycles_of_untouched (hls _ List.mem_cons_self)]

theorem Runs.updaters_of_quiet (h : Runs s ls t)
    (hls : ∀ event ∈ ls.map Prod.fst, event.updates = false) : t.updaters = s.updaters := by
  induction h with
  | nil => rfl
  | cons hstep _ ih =>
    rw [ih fun event hevent => hls event (List.mem_cons_of_mem _ hevent),
      hstep.updaters_of_quiet (hls _ List.mem_cons_self)]

/-- A run from the sample in which only one cycle takes part, and no updater, leaves the other
cycles idle. -/
theorem sample_idle {events : List Event} (hrun : sampleSystem.runAll events = some (t, ls))
    (hcycles : ∀ event ∈ events, ∀ c, c ≠ 0 → event.touches c = false)
    (hupdaters : ∀ event ∈ events, event.updates = false) (hzero : t.cycles 0 = .idle) :
    (∀ c, t.cycles c = .idle) ∧ ∀ jobId, t.updaters jobId = .absent := by
  obtain ⟨hruns, rfl⟩ := System.runs_of_runAll hrun
  refine ⟨fun c => ?_, fun jobId => ?_⟩
  · by_cases hc : c = 0
    · rw [hc, hzero]
    · rw [Runs.cycles_of_untouched hruns fun event hevent => hcycles event hevent c hc]
      rfl
  · rw [Runs.updaters_of_quiet hruns hupdaters]
    rfl

end Ipms.Jobs
