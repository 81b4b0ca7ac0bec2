import Ipms.Agent.Console.IdentityWorker

/-
  Ipms.Agent.Console.IdentityFreshness

  A ticket that is fresh is the current one, and the result published for it last
  is a success of its own operation that began less than ten seconds ago.  The
  invariant ties the generation, the two generations of results and the thread's
  local variables together; every call and every step of the thread keeps it.
-/

namespace Ipms.Agent.Console

open Ipms.Lib

variable {Op : Type}

/-! ## The thread's local variables -/

/-- The operation the thread is at work with. -/
def Phase.operation? : Phase Op → Option Op
  | .taken _ operation | .observed _ operation _ | .running _ operation _ _ => some operation
  | .returned _ _ validation => validation.map (·.operation)
  | .idle | .exited => none

/-- When the thread noted the time of its run, and when the run began as far as it did. -/
def Phase.times : Phase Op → List (Nat × Nat)
  | .running _ _ observedAt began => [(observedAt, began)]
  | .returned _ observedAt (some v) => [(observedAt, v.began)]
  | _ => []

/-- The ticket of the validation that has returned. -/
def Phase.ticket? : Phase Op → Option Nat
  | .returned _ _ (some v) => some v.ticket
  | _ => none

/-- The success the shared state tells of: the result published last for the current ticket. -/
structure Vouched (w : World Op) (v : Validation Op) : Prop where
  latest : latestPublished w.log w.shared.generation = some v
  operation : w.shared.operation = some v.operation
  succeeded : v.succeeded = true
  began : w.shared.lastSuccess ≤ ticks v.began

/-- What holds in every state of the worker. -/
structure WorkerSound (w : World Op) : Prop where
  current : ∀ operation, w.shared.operation = some operation →
    Current w.log w.shared.generation (some operation)
  bound : ∀ g, w.phase.generation? = some g → 0 < g ∧ g ≤ w.shared.generation
  operation : ∀ operation, w.phase.generation? = some w.shared.generation →
    w.phase.operation? = some operation → w.shared.operation = some operation
  observed : ∀ g operation observedAt, w.phase = .observed g operation observedAt → observedAt ≤ w.now
  times : ∀ t ∈ w.phase.times, t.1 ≤ t.2
  ticket : ∀ t, w.phase.ticket? = some t → w.phase.generation? = some t
  success : w.shared.successGeneration ≤ w.shared.generation
  failure : w.shared.failedGeneration ≤ w.shared.generation
  positive : ∀ operation, w.shared.operation = some operation → 0 < w.shared.generation
  vouched : 0 < w.shared.generation → w.shared.successGeneration = w.shared.generation →
    w.shared.failedGeneration ≠ w.shared.generation → ∃ v, Vouched w v

theorem sound_initial : WorkerSound ({} : World Op) where
  current := nofun
  bound := nofun
  operation := nofun
  observed := nofun
  times := nofun
  ticket := nofun
  success := Nat.le_refl _
  failure := Nat.le_refl _
  positive := nofun
  vouched := nofun

/-! ## What is written down -/

theorem Current.cons {log : List (Entry Op)} {ticket : Nat} {operation : Option Op} {e : Entry Op}
    (h : Current log ticket operation) (hsubmitted : ∀ t o, e ≠ .submitted t o)
    (hretired : e ≠ .retired ticket) : Current (e :: log) ticket operation := by
  obtain ⟨later, earlier, rfl, hlater, hkept⟩ := h
  refine ⟨e :: later, earlier, rfl, ?_, ?_⟩
  · intro t o hmem
    rcases List.mem_cons.mp hmem with heq | hmem
    · exact hsubmitted t o heq.symm
    · exact hlater t o hmem
  · intro hmem
    rcases List.mem_cons.mp hmem with heq | hmem
    · exact hretired heq.symm
    · exact hkept hmem

variable {log : List (Entry Op)} {ticket : Nat}

theorem latestPublished_cons {e : Entry Op} (h : publishedOf ticket e = none) :
    latestPublished (e :: log) ticket = latestPublished log ticket := by
  rw [latestPublished, List.findSome?_cons, h]
  rfl

theorem latestPublished_published {e : Entry Op} {v : Validation Op}
    (h : publishedOf ticket e = some v) : latestPublished (e :: log) ticket = some v := by
  rw [latestPublished, List.findSome?_cons, h]

variable {w : World Op}

theorem sound_submit (h : WorkerSound w) (operation : Option Op) :
    WorkerSound (w.submit operation) := by
  unfold World.submit Shared.submit
  by_cases hstopped : w.shared.stopped = true
  · rw [if_pos hstopped]
    exact h
  · rw [if_neg hstopped]
    have hpositive : 0 < w.shared.generation + 1 := Nat.succ_pos _
    have hsuccess := h.success
    have hfailure := h.failure
    refine ⟨?_, ?_, ?_, h.observed, h.times, h.ticket, ?_, ?_, fun _ _ => hpositive, ?_⟩
    · intro o ho
      simp only at ho
      subst ho
      exact ⟨[], w.log, rfl, nofun, nofun⟩
    · intro g hg
      obtain ⟨hpos, hle⟩ := h.bound g hg
      exact ⟨hpos, Nat.le_succ_of_le hle⟩
    · intro o hg
      have hle := (h.bound _ hg).2
      simp only at hle
      omega
    · simp only
      omega
    · simp only
      omega
    · intro _ heq
      simp only at heq
      omega

theorem sound_retire (h : WorkerSound w) (ticket : Nat) :
    WorkerSound { w with shared := w.shared.retire ticket, log := .retired ticket :: w.log } := by
  unfold Shared.retire
  by_cases hticket : w.shared.generation ≠ ticket
  · rw [if_pos hticket]
    refine ⟨?_, h.bound, h.operation, h.observed, h.times, h.ticket, h.success, h.failure, h.positive,
      ?_⟩
    · intro o ho
      refine (h.current o ho).cons nofun ?_
      rintro ⟨⟩
      exact hticket rfl
    · intro hpos hsuccess hfailed
      obtain ⟨v, hv⟩ := h.vouched hpos hsuccess hfailed
      exact ⟨v, by rw [latestPublished_cons rfl]; exact hv.latest, hv.operation, hv.succeeded,
        hv.began⟩
  · rw [if_neg hticket]
    have hsuccess := h.success
    have hfailure := h.failure
    refine ⟨nofun, ?_, ?_, h.observed, h.times, h.ticket, ?_, ?_, nofun, ?_⟩
    · intro g hg
      obtain ⟨hpos, hle⟩ := h.bound g hg
      exact ⟨hpos, Nat.le_succ_of_le hle⟩
    · intro o hg
      have hle := (h.bound _ hg).2
      simp only at hle
      omega
    · simp only
      omega
    · simp only
      omega
    · intro _ heq
      simp only at heq
      omega

/-! ## The worker's thread -/

theorem WorkerSound.at_rest (h : WorkerSound w) {phase : Phase Op}
    (hgeneration : phase.generation? = none) (htimes : phase.times = [])
    (hticket : phase.ticket? = none)
    (hobserved : ∀ g operation observedAt, phase ≠ .observed g operation observedAt) :
    WorkerSound { w with phase } := by
  refine ⟨h.current, ?_, ?_, ?_, ?_, ?_, h.success, h.failure, h.positive, ?_⟩
  · intro g hg
    rw [hgeneration] at hg
    cases hg
  · intro o hg
    rw [hgeneration] at hg
    cases hg
  · intro g o at' heq
    exact absurd heq (hobserved g o at')
  · intro t ht
    rw [htimes] at ht
    cases ht
  · intro t ht
    rw [hticket] at ht
    cases ht
  · intro hpos hsuccess hfailed
    obtain ⟨v, hv⟩ := h.vouched hpos hsuccess hfailed
    exact ⟨v, hv.latest, hv.operation, hv.succeeded, hv.began⟩

theorem sound_wake (h : WorkerSound w) : WorkerSound w.wake := by
  unfold World.wake
  split
  · exact h.at_rest rfl rfl rfl nofun
  · cases hoperation : w.shared.operation with
    | none => exact h
    | some operation =>
      refine ⟨h.current, ?_, ?_, nofun, nofun, nofun, h.success, h.failure, h.positive, ?_⟩
      · rintro g ⟨⟩
        exact ⟨h.positive operation hoperation, Nat.le_refl _⟩
      · rintro o - ⟨⟩
        exact hoperation
      · intro hpos hsuccess hfailed
        obtain ⟨v, hv⟩ := h.vouched hpos hsuccess hfailed
        exact ⟨v, hv.latest, hv.operation, hv.succeeded, hv.began⟩

theorem WorkerSound.goes_on (h : WorkerSound w) {phase : Phase Op}
    (hgeneration : phase.generation? = w.phase.generation?)
    (hoperation : ∀ o, phase.operation? = some o → w.phase.operation? = some o)
    (hobserved : ∀ g o observedAt, phase = .observed g o observedAt → observedAt ≤ w.now)
    (htimes : ∀ t ∈ phase.times, t.1 ≤ t.2)
    (hticket : ∀ t, phase.ticket? = some t → phase.generation? = some t)
    (hlog : log = w.log ∨ ∃ v, log = .completed v :: w.log) :
    WorkerSound { w with phase, log } := by
  have hcurrent : ∀ t o, Current w.log t o → Current log t o := by
    rintro t o hcurrent
    rcases hlog with rfl | ⟨v, rfl⟩
    · exact hcurrent
    · exact hcurrent.cons nofun nofun
  have hlatest : ∀ t, latestPublished log t = latestPublished w.log t := by
    intro t
    rcases hlog with rfl | ⟨v, rfl⟩
    · rfl
    · exact latestPublished_cons rfl
  refine ⟨fun o ho => hcurrent _ _ (h.current o ho), ?_, ?_, hobserved, htimes, hticket, h.success,
    h.failure, h.positive, ?_⟩
  · intro g hg
    exact h.bound g (hgeneration ▸ hg)
  · intro o hg ho
    exact h.operation o (hgeneration ▸ hg) (hoperation o ho)
  · intro hpos hsuccess hfailed
    obtain ⟨v, hv⟩ := h.vouched hpos hsuccess hfailed
    exact ⟨v, (hlatest _).trans hv.latest, hv.operation, hv.succeeded, hv.began⟩

variable {operation : Op} {g : Nat}

theorem sound_observe (h : WorkerSound w) (hphase : w.phase = .taken g operation) :
    WorkerSound { w with phase := .observed g operation w.now } := by
  refine h.goes_on ?_ ?_ ?_ nofun nofun (.inl rfl)
  · rw [hphase]
    rfl
  · rw [hphase]
    exact fun _ ho => ho
  · rintro _ _ _ ⟨⟩
    exact Nat.le_refl _

variable {observedAt : Nat}

theorem sound_begin (h : WorkerSound w) (hphase : w.phase = .observed g operation observedAt) :
    WorkerSound (w.begin g operation observedAt) := by
  have hle := h.observed g operation observedAt hphase
  unfold World.begin
  split
  · refine h.goes_on ?_ nofun nofun nofun nofun (.inl rfl)
    rw [hphase]
    rfl
  · refine h.goes_on ?_ ?_ nofun ?_ nofun (.inl rfl)
    · rw [hphase]
      rfl
    · rw [hphase]
      exact fun _ ho => ho
    · intro t ht
      rw [List.mem_singleton.mp ht]
      exact hle

theorem sound_finish (h : WorkerSound w) {began : Nat}
    (hphase : w.phase = .running g operation observedAt began) (succeeded : Bool) :
    WorkerSound (w.finish g observedAt ⟨g, operation, began, succeeded⟩) := by
  have hle : observedAt ≤ began := by
    have htimes := h.times (observedAt, began)
    rw [hphase] at htimes
    exact htimes List.mem_cons_self
  refine h.goes_on ?_ ?_ nofun ?_ ?_ (.inr ⟨_, rfl⟩)
  · rw [hphase]
    rfl
  · rw [hphase]
    exact fun _ ho => ho
  · intro t ht
    rw [List.mem_singleton.mp ht]
    exact hle
  · rintro t ⟨⟩
    rfl

/-- The result of a generation is published only while it is the current one. -/
theorem sound_publish (h : WorkerSound w) {validation : Option (Validation Op)}
    (hphase : w.phase = .returned g observedAt validation) :
    WorkerSound (w.publish g observedAt validation) := by
  have hrest : WorkerSound { w with phase := .idle } := h.at_rest rfl rfl rfl nofun
  unfold World.publish Shared.publish
  by_cases hcancelled : w.shared.cancelled g = true
  · rw [if_pos hcancelled]
    cases validation with
    | none => exact hrest
    | some v =>
      simp only [if_pos hcancelled]
      exact hrest
  · rw [if_neg hcancelled]
    have hgeneration : w.shared.generation = g := by
      simp only [Shared.cancelled, Bool.or_eq_true, bne_iff_ne, not_or, not_not] at hcancelled
      exact hcancelled.2
    subst hgeneration
    have hpos := (h.bound w.shared.generation (by rw [hphase]; rfl)).1
    have hcurrent : ∀ v o, Current w.log w.shared.generation o →
        Current (.published v :: w.log) w.shared.generation o :=
      fun v o hc => hc.cons nofun nofun
    cases validation with
    | none =>
      -- Nothing was run: the result counts as a failure.
      refine ⟨h.current, nofun, nofun, nofun, nofun, nofun, h.success, Nat.le_refl _, h.positive, ?_⟩
      intro _ _ hfailed
      exact absurd rfl hfailed
    | some v =>
      simp only [if_neg hcancelled]
      have hticket : v.ticket = w.shared.generation := by
        have hphase' := h.ticket v.ticket (by rw [hphase]; rfl)
        rw [hphase] at hphase'
        exact (Option.some.inj hphase').symm
      have hoperation : w.shared.operation = some v.operation :=
        h.operation v.operation (by rw [hphase]; rfl) (by rw [hphase]; rfl)
      have hbegan : observedAt ≤ v.began := by
        have htimes := h.times (observedAt, v.began)
        rw [hphase] at htimes
        exact htimes List.mem_cons_self
      cases hsucceeded : v.succeeded with
      | false =>
        rw [Option.any_some, hsucceeded, if_neg (by decide)]
        refine ⟨fun o ho => hcurrent _ _ (h.current o ho), nofun, nofun, nofun, nofun, nofun,
          h.success, Nat.le_refl _, h.positive, ?_⟩
        intro _ _ hfailed
        exact absurd rfl hfailed
      | true =>
        rw [Option.any_some, hsucceeded, if_pos rfl]
        refine ⟨fun o ho => hcurrent _ _ (h.current o ho), nofun, nofun, nofun, nofun, nofun,
          Nat.le_refl _, Nat.zero_le _, h.positive, ?_⟩
        intro _ _ _
        refine ⟨v, ?_, hoperation, hsucceeded, Nat.div_le_div_right hbegan⟩
        exact latestPublished_published (if_pos hticket)

/-- A step of the owners, or time that passes. -/
def Happening.ofOwner : Happening Op → Bool
  | .submit _ | .retire _ | .stop | .advance _ => true
  | .wake | .observe | .begin | .finish _ | .publish => false

variable {happening : Happening Op} {w' : World Op}

/-- What a step of the thread can do. -/
theorem thread_cases (hstep : w.Step happening w') (hthread : happening.ofOwner = false) :
    w.phase = .idle ∧ w' = w.wake ∨
    (∃ g operation, w.phase = .taken g operation ∧
      w' = { w with phase := .observed g operation w.now }) ∨
    (∃ g operation observedAt, w.phase = .observed g operation observedAt ∧
      w' = w.begin g operation observedAt) ∨
    (∃ g operation observedAt began succeeded, w.phase = .running g operation observedAt began ∧
      w' = w.finish g observedAt ⟨g, operation, began, succeeded⟩) ∨
    ∃ g observedAt validation, w.phase = .returned g observedAt validation ∧
      w' = w.publish g observedAt validation := by
  unfold World.Step at hstep
  cases happening with
  | submit _ | retire _ | stop | advance _ => cases hthread
  | wake =>
    cases hphase : w.phase with
    | idle => simp only [World.step, hphase, Option.some.injEq] at hstep; exact .inl ⟨rfl, hstep.symm⟩
    | _ => simp [World.step, hphase] at hstep
  | observe =>
    cases hphase : w.phase with
    | taken g operation =>
      simp only [World.step, hphase, Option.some.injEq] at hstep
      exact .inr (.inl ⟨g, operation, rfl, hstep.symm⟩)
    | _ => simp [World.step, hphase] at hstep
  | begin =>
    cases hphase : w.phase with
    | observed g operation observedAt =>
      simp only [World.step, hphase, Option.some.injEq] at hstep
      exact .inr (.inr (.inl ⟨g, operation, observedAt, rfl, hstep.symm⟩))
    | _ => simp [World.step, hphase] at hstep
  | finish succeeded =>
    cases hphase : w.phase with
    | running g operation observedAt began =>
      simp only [World.step, hphase, Option.some.injEq] at hstep
      exact .inr (.inr (.inr (.inl ⟨g, operation, observedAt, began, succeeded, rfl, hstep.symm⟩)))
    | _ => simp [World.step, hphase] at hstep
  | publish =>
    cases hphase : w.phase with
    | returned g observedAt validation =>
      simp only [World.step, hphase, Option.some.injEq] at hstep
      exact .inr (.inr (.inr (.inr ⟨g, observedAt, validation, rfl, hstep.symm⟩)))
    | _ => simp [World.step, hphase] at hstep

theorem sound_thread (hstep : w.Step happening w') (hthread : happening.ofOwner = false)
    (h : WorkerSound w) : WorkerSound w' := by
  rcases thread_cases hstep hthread with ⟨-, rfl⟩ | ⟨g, operation, hphase, rfl⟩ |
    ⟨g, operation, observedAt, hphase, rfl⟩ | ⟨g, operation, observedAt, began, succeeded, hphase, rfl⟩ |
    ⟨g, observedAt, validation, hphase, rfl⟩
  · exact sound_wake h
  · exact sound_observe h hphase
  · exact sound_begin h hphase
  · exact sound_finish h hphase succeeded
  · exact sound_publish h hphase

/-- Every call and every step of the thread keeps the invariant. -/
theorem sound_step (hstep : w.Step happening w') (h : WorkerSound w) : WorkerSound w' := by
  have hvouched : 0 < w.shared.generation → w.shared.successGeneration = w.shared.generation →
      w.shared.failedGeneration ≠ w.shared.generation → ∃ v,
        latestPublished w.log w.shared.generation = some v ∧ w.shared.operation = some v.operation ∧
          v.succeeded = true ∧ w.shared.lastSuccess ≤ ticks v.began := by
    intro hpos hsuccess hfailed
    obtain ⟨v, hv⟩ := h.vouched hpos hsuccess hfailed
    exact ⟨v, hv.latest, hv.operation, hv.succeeded, hv.began⟩
  cases happening with
  | submit operation => cases hstep; exact sound_submit h operation
  | retire ticket => cases hstep; exact sound_retire h ticket
  | stop =>
    cases hstep
    refine ⟨h.current, h.bound, h.operation, h.observed, h.times, h.ticket, h.success, h.failure,
      h.positive, ?_⟩
    intro hpos hsuccess hfailed
    obtain ⟨v, hlatest, hoperation, hsucceeded, hbegan⟩ := hvouched hpos hsuccess hfailed
    exact ⟨v, hlatest, hoperation, hsucceeded, hbegan⟩
  | advance later =>
    cases hstep
    refine ⟨h.current, h.bound, h.operation, ?_, h.times, h.ticket, h.success, h.failure,
      h.positive, ?_⟩
    · intro g o observedAt heq
      exact Nat.le_add_right_of_le (h.observed g o observedAt heq)
    · intro hpos hsuccess hfailed
      obtain ⟨v, hlatest, hoperation, hsucceeded, hbegan⟩ := hvouched hpos hsuccess hfailed
      exact ⟨v, hlatest, hoperation, hsucceeded, hbegan⟩
  | wake | observe | begin | finish succeeded | publish => exact sound_thread hstep rfl h

theorem sound_of_reachable (h : Reachable w) : WorkerSound w := by
  obtain ⟨happenings, hrun⟩ := h
  exact hrun.preserves (fun _ _ _ hstep hs => sound_step hstep hs) sound_initial

/-! ## Freshness -/

theorem fresh_iff {s : Shared Op} {now : Nat} : s.fresh ticket now = true ↔
    0 < ticket ∧ s.stopped = false ∧ s.generation = ticket ∧ s.failedGeneration ≠ ticket ∧
      s.successGeneration = ticket ∧ ticks now < s.lastSuccess + 10000 := by
  unfold Shared.fresh
  split
  · next h =>
      simp only [Bool.or_eq_true, beq_iff_eq, bne_iff_ne] at h
      constructor
      · intro hfalse
        cases hfalse
      · rintro ⟨hpos, hstopped, hgeneration, hfailed, hsuccess, -⟩
        rw [hstopped] at h
        rcases h with (((hzero | hstop) | hne) | heq) | hne
        · omega
        · cases hstop
        · exact absurd hgeneration hne
        · exact absurd heq hfailed
        · exact absurd hsuccess hne
  · next h =>
      simp only [Bool.or_eq_true, beq_iff_eq, bne_iff_ne, not_or, not_not, Bool.not_eq_true] at h
      obtain ⟨⟨⟨⟨hne, hstopped⟩, hgeneration⟩, hfailed⟩, hsuccess⟩ := h
      rw [decide_eq_true_eq]
      constructor
      · intro hlt
        exact ⟨Nat.pos_of_ne_zero hne, hstopped, hgeneration, hfailed, hsuccess, by omega⟩
      · rintro ⟨-, -, -, -, -, hlt⟩
        omega

/-- What a ticket that is fresh stands for: it is the current one, and the result published for it
last is a success of its own operation that began less than ten seconds before. -/
structure FreshMeans (w : World Op) (ticket now : Nat) : Prop where
  running : w.shared.stopped = false
  validated : ∃ operation v, Current w.log ticket (some operation) ∧
    latestPublished w.log ticket = some v ∧ v.operation = operation ∧ v.succeeded = true ∧
    now < v.began + 10 * 1000000000

/-- A step of the thread leaves what the owners are told of a ticket newer than its own. -/
theorem told_of_thread {w w' : World Op} {happening : Happening Op} (hstep : w.Step happening w')
    (hthread : happening.ofOwner = false) {older ticket : Nat}
    (hphase : w.phase.generation? = some older) (holder : older < ticket) (now : Nat) :
    w'.shared.fresh ticket now = w.shared.fresh ticket now ∧
      w'.shared.failed ticket = w.shared.failed ticket := by
  have hsame : ∀ s : Shared Op, s = w.shared →
      s.fresh ticket now = w.shared.fresh ticket now ∧ s.failed ticket = w.shared.failed ticket := by
    rintro s rfl
    exact ⟨rfl, rfl⟩
  rcases thread_cases hstep hthread with ⟨hidle, -⟩ | ⟨g, operation, -, rfl⟩ |
    ⟨g, operation, observedAt, -, rfl⟩ | ⟨g, operation, observedAt, began, succeeded, -, rfl⟩ |
    ⟨g, observedAt, validation, hreturned, rfl⟩
  · rw [hidle] at hphase
    cases hphase
  · exact hsame _ rfl
  · refine hsame _ ?_
    unfold World.begin
    split <;> rfl
  · exact hsame _ rfl
  · rw [hreturned] at hphase
    have hg : g = older := Option.some.inj hphase
    subst hg
    unfold World.publish
    by_cases hcancelled : w.shared.cancelled g = true
    · exact hsame _ (if_pos hcancelled)
    · -- What is published is published for the current generation, which the newer ticket is not.
      have hgeneration : w.shared.generation = g := by
        simp only [Shared.cancelled, Bool.or_eq_true, bne_iff_ne, not_or, not_not] at hcancelled
        exact hcancelled.2
      have hne : w.shared.generation ≠ ticket := by omega
      have hpublished : ∀ ok, (w.shared.publish g observedAt ok).generation = w.shared.generation ∧
          (w.shared.publish g observedAt ok).stopped = w.shared.stopped := by
        intro ok
        unfold Shared.publish
        rw [if_neg hcancelled]
        cases ok <;> exact ⟨rfl, rfl⟩
      obtain ⟨hkept, -⟩ := hpublished (validation.any (·.succeeded))
      have hold : ∀ s : Shared Op, s.generation = w.shared.generation →
          s.fresh ticket now = false ∧ s.failed ticket = true := by
        intro s hs
        have hnot : (s.generation != ticket) = true := by
          rw [hs]
          exact bne_iff_ne.mpr hne
        refine ⟨?_, ?_⟩
        · unfold Shared.fresh
          rw [hnot, Bool.or_true, Bool.true_or, Bool.true_or, if_pos rfl]
        · unfold Shared.failed
          rw [hnot, Bool.or_true, Bool.true_or]
      obtain ⟨hfresh, hfailed⟩ := hold _ hkept
      obtain ⟨hfresh', hfailed'⟩ := hold w.shared rfl
      exact ⟨hfresh.trans hfresh'.symm, hfailed.trans hfailed'.symm⟩

/-- In every state, a ticket that is fresh is the current one of a worker that is not stopped, and the
result published for it last is a recent success of its own operation.  A step of the thread for one
ticket makes no newer ticket fresh or failed, nor takes either back. -/
theorem fresh_sound (w : World Op) (hreachable : Reachable w) :
    (∀ ticket now, w.shared.fresh ticket now = true → FreshMeans w ticket now) ∧
    (∀ happening w' older ticket now, w.Step happening w' → happening.ofOwner = false →
      w.phase.generation? = some older → older < ticket →
      w'.shared.fresh ticket now = w.shared.fresh ticket now ∧
        w'.shared.failed ticket = w.shared.failed ticket) := by
  have h := sound_of_reachable hreachable
  constructor
  · intro ticket now hfresh
    obtain ⟨hpos, hstopped, hgeneration, hfailed, hsuccess, hrecent⟩ := fresh_iff.mp hfresh
    subst hgeneration
    obtain ⟨v, hv⟩ := h.vouched hpos hsuccess hfailed
    refine ⟨hstopped, v.operation, v, h.current _ hv.operation, hv.latest, rfl, hv.succeeded, ?_⟩
    have hbegan := hv.began
    unfold ticks at hrecent hbegan
    omega
  · intro happening w' older ticket now hstep hthread hphase holder
    exact told_of_thread hstep hthread hphase holder now

/-! ### A result that is not published yet -/

/-- A run of the worker along some happenings. -/
def World.performAll (w : World Op) : List (Happening Op) → Option (World Op)
  | [] => some w
  | happening :: rest => (w.step happening).bind fun next => next.performAll rest

theorem run_of_performAll {happenings : List (Happening Op)} (h : w.performAll happenings = some w')
    : Run World.Step w happenings w' := by
  induction happenings generalizing w with
  | nil =>
    cases h
    exact .nil _
  | cons happening rest ih =>
    obtain ⟨next, hstep, hrest⟩ := Option.bind_eq_some_iff.mp h
    exact .cons hstep (ih hrest)

/-- A validation that succeeds, and another one that fails a second later. -/
def secondFails : List (Happening Unit) :=
  [.submit (some ()), .wake, .observe, .begin, .finish true, .publish, .advance 1000000000, .wake,
    .observe, .begin, .finish false]

/-- The state after the second validation has returned. -/
def secondFailed : World Unit :=
  { shared := { generation := 1, successGeneration := 1, operation := some () }
    phase := .returned 1 1000000000 (some ⟨1, (), 1000000000, false⟩)
    now := 1000000000
    log := [.completed ⟨1, (), 1000000000, false⟩, .published ⟨1, (), 0, true⟩,
      .completed ⟨1, (), 0, true⟩, .submitted 1 (some ())] }

theorem secondFailed_reachable : Reachable secondFailed :=
  ⟨secondFails, run_of_performAll (by decide)⟩

/-- A ticket is still fresh when its latest validation has returned failure, which is not published. -/
theorem fresh_of_completed_failure :
    Reachable secondFailed ∧ secondFailed.shared.fresh 1 secondFailed.now = true ∧
      (latestCompleted secondFailed.log 1).map (·.succeeded) = some false :=
  ⟨secondFailed_reachable, by decide, by decide⟩

theorem fresh_sound_sample : FreshMeans secondFailed 1 9000000000 :=
  (fresh_sound secondFailed secondFailed_reachable).1 1 9000000000 (by decide)

end Ipms.Agent.Console
