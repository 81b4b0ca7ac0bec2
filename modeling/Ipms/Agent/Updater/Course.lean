import Ipms.Agent.Updater.Update

/-
  Ipms.Agent.Updater.Course

  What an attempt leaves of the three things the next attempt looks at: the binary,
  its rollback copy and the registered version.  The result file and the service play
  no part in it, so the course of an attempt is a function of the outcomes of its
  operations alone, and the update of the machine follows it.
-/

namespace Ipms.Agent.Updater

open Ipms.Lib
open Ipms.Lib.Prog
open Ipms.ManagementJson (Bytes)

/-! ## Courses -/

/-- What the next attempt looks at. -/
structure Files where
  agent : Option Bytes
  backup : Option Bytes
  displayVersion : String
  deriving DecidableEq

/-- What the next attempt looks at on a machine. -/
def Disk.files (d : Disk) : Files := ⟨d.agent, d.backup, d.displayVersion⟩

/-- One operation behind another. -/
def Fate.andThen : Fate → Fate → Fate
  | .done, fate => fate
  | .fails, _ => .fails
  | .stops, _ => .stops

/-- What becomes of `write_result`. -/
def WriteFate.fate (w : WriteFate) : Fate := w.opening.andThen w.moving

/-- What becomes of `replace_file_with_retry`. -/
def replaced (fates : Nat → MoveFate) : Nat → Fate
  | 0 => .fails
  | attempts + 1 =>
    match fates attempts with
    | .done => .done
    | .fails true => replaced fates attempts
    | .fails false => .fails
    | .stops => .stops

/-- What `copy_file_with_retry` leaves of the agent, and what becomes of it. -/
def restored (fates : Nat → CopyFate) (backup : Bytes) : Nat → Option Bytes → Option Bytes × Fate
  | 0, agent => (agent, .fails)
  | attempts + 1, agent =>
    match fates attempts with
    | .done => (some backup, .done)
    | .fails true left => restored fates backup attempts (left.leaves backup agent)
    | .fails false left => (left.leaves backup agent, .fails)
    | .stops left => (left.leaves backup agent, .stops)

/-- The binary the rollback leaves behind. -/
def Faults.restoredAgent (f : Faults) (kept : Bytes) (agent : Option Bytes) : Option Bytes :=
  (restored f.restore kept 40 agent).1

/-- The rollback gets to the registration and writes it. -/
def Faults.sourceRegistered (f : Faults) (kept : Bytes) (agent : Option Bytes) : Bool :=
  (restored f.restore kept 40 agent).2 != .stops && f.registerSource == .done

/-- The course of the rollback. -/
def rolledBack (f : Faults) (kept : Bytes) (source : String) (files : Files) : Files where
  agent := f.restoredAgent kept files.agent
  backup := files.backup
  displayVersion :=
    if f.sourceRegistered kept files.agent then source else files.displayVersion

/-- The course of the inner block with its handler. -/
def installed (a : Attempt) (kept : Bytes) (source : String) (files : Files) : Files :=
  let f := a.faults
  match replaced f.replace 40 with
  | .stops => files
  | .fails => rolledBack f kept source files
  | .done =>
    let files := { files with agent := a.staged }
    match f.register with
    | .stops => files
    | .fails => rolledBack f kept source files
    | .done =>
      let files := { files with displayVersion := a.version }
      match f.write.fate.andThen f.start with
      | .stops => files
      | .fails => rolledBack f kept source files
      | .done => if f.remove = .done then { files with backup := none } else files

/-- The rollback copy behind the backup of a binary, and what becomes of it. -/
def backedUp (fate : CopyFate) (backup : Option Bytes) (agent : Bytes) : Option Bytes × Fate :=
  match backup with
  | some kept => (some kept, .done)
  | none =>
    match fate with
    | .done => (some agent, .done)
    | .fails _ left => (left.leaves agent none, .fails)
    | .stops left => (left.leaves agent none, .stops)

/-- The course of an attempt that passed its checks. -/
def admitted (a : Attempt) (source : String) (agent : Bytes) (files : Files) : Files :=
  let (backup, fate) := backedUp a.faults.backup files.backup agent
  if fate.andThen a.faults.stop = .done then
    installed a (files.backup.getD agent) source { files with backup }
  else { files with backup }

def course (d : Disk) (a : Attempt) : Files :=
  if safeValue a.job then
    match check d a with
    | .error _ => d.files
    | .ok (source, agent, _) => admitted a source agent d.files
  else d.files

/-! ## Rules for the operations -/

variable {α : Type} {d : Disk}

variable {E : Break → Disk → Prop}

theorem wp_run (fate : Fate) {Q : Unit → Disk → Prop} : wp fate.run Q E d ↔
      (fate = .done → Q () d) ∧ (fate = .fails → E .thrown d) ∧ (fate = .stops → E .stopped d) := by
  cases fate with
  | done | fails | stops => simp [Fate.run]

variable {Q : α → Disk → Prop}

theorem wp_catchAll (body handler : Program α) : wp (catchAll body handler) Q E d ↔
      wp body Q (fun e d' => match e with
        | .thrown => wp handler Q E d'
        | .stopped => E .stopped d') d := by
  unfold catchAll
  rw [wp_tryCatch]
  constructor
  · intro h
    refine wp_mono h (fun _ _ hq => hq) ?_
    intro e d' he
    cases e with
    | thrown | stopped => exact he
  · intro h
    refine wp_mono h (fun _ _ hq => hq) ?_
    intro e d' he
    cases e with
    | thrown | stopped => exact he

/-- A program ends with these files and throws nothing a handler would see. -/
def Ends (p : Program α) (files : Files) (d : Disk) : Prop :=
  wp p (fun _ d' => d'.files = files) (fun e d' => e = .stopped ∧ d'.files = files) d

/-- A program leaves these files and has this outcome. -/
def Leaves (p : Program Unit) (files : Files) (fate : Fate) (d : Disk) : Prop :=
  wp p (fun _ d' => fate = .done ∧ d'.files = files)
    (fun e d' => (e = .thrown ∧ fate = .fails ∨ e = .stopped ∧ fate = .stops) ∧ d'.files = files) d

theorem leaves_run (fate : Fate) : Leaves fate.run d.files fate d := by
  unfold Leaves
  rw [wp_run]
  refine ⟨?_, ?_, ?_⟩
  · intro h
    exact ⟨h, rfl⟩
  · intro h
    exact ⟨Or.inl ⟨rfl, h⟩, rfl⟩
  · intro h
    exact ⟨Or.inr ⟨rfl, h⟩, rfl⟩

variable {files : Files}

theorem Leaves.wp_bind {p : Program Unit} {q : Program α} {fate : Fate} (hp : Leaves p files fate d)
    (hdone : fate = .done → ∀ d' : Disk, d'.files = files → wp q Q E d')
    (hfails : fate = .fails → ∀ d' : Disk, d'.files = files → E .thrown d')
    (hstops : fate = .stops → ∀ d' : Disk, d'.files = files → E .stopped d') :
    wp (do p; q) Q E d := by
  unfold Leaves at hp
  rw [Prog.wp_bind]
  refine wp_mono hp ?_ ?_
  · rintro _ d' ⟨hfate, hfiles⟩
    exact hdone hfate d' hfiles
  · rintro e d' ⟨he, hfiles⟩
    rcases he with ⟨rfl, hfate⟩ | ⟨rfl, hfate⟩
    · exact hfails hfate d' hfiles
    · exact hstops hfate d' hfiles

theorem leaves_writeResult (w : WriteFate) (job result code : String) :
    Leaves (writeResult w job result code) d.files w.fate d := by
  unfold writeResult Leaves
  simp only [wp_bind, wp_run, wp_modify]
  unfold WriteFate.fate
  cases hopening : w.opening with
  | done =>
    simp only [Fate.andThen, true_implies, reduceCtorEq, false_implies, and_true]
    refine ⟨?_, ?_, ?_⟩
    · intro h
      exact ⟨h, rfl⟩
    · intro h
      exact ⟨Or.inl ⟨trivial, h⟩, rfl⟩
    · intro h
      exact ⟨Or.inr ⟨trivial, h⟩, rfl⟩
  | fails | stops => simp [Fate.andThen]

theorem Leaves.ignoring_bind {p : Program Unit} {q : Program α} {fate : Fate}
    (hp : Leaves p files fate d) (hgo : fate ≠ .stops → ∀ d' : Disk, d'.files = files → wp q Q E d')
    (hstops : fate = .stops → ∀ d' : Disk, d'.files = files → E .stopped d') :
    wp (do ignoring p; q) Q E d := by
  unfold Leaves at hp
  rw [Prog.wp_bind]
  unfold ignoring
  rw [wp_catchAll]
  refine wp_mono hp ?_ ?_
  · rintro _ d' ⟨rfl, hfiles⟩
    exact hgo (by decide) d' hfiles
  · rintro e d' ⟨he, hfiles⟩
    rcases he with ⟨rfl, rfl⟩ | ⟨rfl, hfate⟩
    · exact hgo (by decide) d' hfiles
    · exact hstops hfate d' hfiles

/-! ## The loops -/

theorem leaves_replaceFileWithRetry (fates : Nat → MoveFate) (staged : Option Bytes)
    (attempts : Nat) :
    Leaves (replaceFileWithRetry fates staged attempts)
      (if replaced fates attempts = .done then { d.files with agent := staged } else d.files)
      (replaced fates attempts) d := by
  induction attempts with
  | zero => exact ⟨Or.inl ⟨rfl, rfl⟩, rfl⟩
  | succ attempts ih =>
    unfold replaceFileWithRetry replaced
    cases hfate : fates attempts with
    | done => exact ⟨rfl, rfl⟩
    | fails retryable =>
      cases retryable with
      | true => exact ih
      | false => exact ⟨Or.inl ⟨rfl, rfl⟩, rfl⟩
    | stops => exact ⟨Or.inr ⟨rfl, rfl⟩, rfl⟩

theorem leaves_copyFileWithRetry (fates : Nat → CopyFate) (backup : Bytes) (attempts : Nat)
    (d : Disk) :
    Leaves (copyFileWithRetry fates backup attempts)
      { d.files with agent := (restored fates backup attempts d.agent).1 }
      (restored fates backup attempts d.agent).2 d := by
  induction attempts generalizing d with
  | zero => exact ⟨Or.inl ⟨rfl, rfl⟩, rfl⟩
  | succ attempts ih =>
    unfold copyFileWithRetry restored
    cases hfate : fates attempts with
    | done => exact ⟨rfl, rfl⟩
    | fails retryable left =>
      cases retryable with
      | true => exact ih { d with agent := left.leaves backup d.agent }
      | false => exact ⟨Or.inl ⟨rfl, rfl⟩, rfl⟩
    | stops left => exact ⟨Or.inr ⟨rfl, rfl⟩, rfl⟩

variable {kept : Bytes}

theorem leaves_restoreBackup (f : Faults) (hkept : d.backup = some kept) :
    Leaves (restoreBackup f.restore) { d.files with agent := f.restoredAgent kept d.agent }
      (restored f.restore kept 40 d.agent).2 d := by
  unfold restoreBackup
  have h := leaves_copyFileWithRetry f.restore kept 40 d
  unfold Leaves at h ⊢
  rw [Prog.wp_bind, wp_get]
  simp only [hkept]
  exact h

theorem leaves_setDisplayVersion (fate : Fate) (version : String) :
    Leaves (setDisplayVersion fate version)
      (if fate = .done then { d.files with displayVersion := version } else d.files) fate d := by
  cases fate with
  | done => exact ⟨rfl, rfl⟩
  | fails => exact ⟨Or.inl ⟨rfl, rfl⟩, rfl⟩
  | stops => exact ⟨Or.inr ⟨rfl, rfl⟩, rfl⟩

theorem leaves_removeBackup (fate : Fate) :
    Leaves (removeBackup fate)
      (if fate = .done then { d.files with backup := none } else d.files) fate d := by
  cases fate with
  | done => exact ⟨rfl, rfl⟩
  | fails => exact ⟨Or.inl ⟨rfl, rfl⟩, rfl⟩
  | stops => exact ⟨Or.inr ⟨rfl, rfl⟩, rfl⟩

/-! ## The blocks -/

/-- The rollback follows its course, and nothing leaves it but a stop. -/
theorem ends_rollBack (a : Attempt) (source : String) (hkept : d.backup = some kept) :
    Ends (rollBack a source) (rolledBack a.faults kept source d.files) d := by
  unfold Ends rollBack
  refine (leaves_restoreBackup a.faults hkept).ignoring_bind ?_ ?_
  · intro hgo d₁ h₁
    refine (leaves_setDisplayVersion _ _).ignoring_bind ?_ ?_
    · intro hregister d₂ h₂
      have hcourse : d₂.files = rolledBack a.faults kept source d.files := by
        rw [h₂, h₁]
        unfold rolledBack Faults.sourceRegistered
        cases hfate : a.faults.registerSource with
        | done => simp [hgo, Disk.files]
        | fails => simp [Disk.files]
        | stops => exact absurd hfate hregister
      refine (leaves_writeResult _ _ _ _).ignoring_bind ?_ ?_
      · intro _ d₃ h₃
        refine (leaves_run _).ignoring_bind ?_ ?_
        · intro _ d₄ h₄
          exact (h₄.trans h₃).trans hcourse
        · intro _ d₄ h₄
          exact ⟨rfl, (h₄.trans h₃).trans hcourse⟩
      · intro _ d₃ h₃
        exact ⟨rfl, h₃.trans hcourse⟩
    · intro hregister d₂ h₂
      refine ⟨rfl, ?_⟩
      rw [h₂, h₁]
      simp [hregister, rolledBack, Faults.sourceRegistered, Disk.files]
  · intro hstop d₁ h₁
    refine ⟨rfl, ?_⟩
    rw [h₁]
    simp [rolledBack, Faults.sourceRegistered, hstop, Disk.files]

theorem ends_rollBack_of (a : Attempt) (source : String) (hfiles : d.files = files)
    (hkept : files.backup = some kept) :
    Ends (rollBack a source) (rolledBack a.faults kept source files) d := by
  subst hfiles
  exact ends_rollBack a source hkept

/-- The inner block with its handler follows its course. -/
theorem ends_install (a : Attempt) (source : String) (hkept : d.backup = some kept) :
    Ends (catchAll (install a) (rollBack a source)) (installed a kept source d.files) d := by
  unfold Ends
  rw [wp_catchAll]
  unfold install installed
  refine (leaves_replaceFileWithRetry a.faults.replace a.staged 40).wp_bind ?_ ?_ ?_
  · intro hreplaced d₁ h₁
    rw [if_pos hreplaced] at h₁
    simp only [hreplaced]
    refine (leaves_setDisplayVersion a.faults.register a.version).wp_bind ?_ ?_ ?_
    · intro hregister d₂ h₂
      rw [if_pos hregister, h₁] at h₂
      simp only [hregister]
      refine (leaves_writeResult a.faults.write a.job "succeeded" "updated").wp_bind ?_ ?_ ?_
      · intro hwrite d₃ h₃
        simp only [hwrite, Fate.andThen]
        refine (leaves_run a.faults.start).wp_bind ?_ ?_ ?_
        · intro hstart d₄ h₄
          have hfiles := (h₄.trans h₃).trans h₂
          simp only [hstart]
          refine (leaves_removeBackup a.faults.remove).ignoring_bind ?_ ?_
          · intro _ d₅ h₅
            show d₅.files = _
            rw [h₅, hfiles]
          · intro hremove d₅ h₅
            refine ⟨trivial, ?_⟩
            rw [h₅, hfiles]
        · intro hstart d₄ h₄
          simp only [hstart]
          exact ends_rollBack_of a source ((h₄.trans h₃).trans h₂) hkept
        · intro hstart d₄ h₄
          simp only [hstart]
          exact ⟨trivial, (h₄.trans h₃).trans h₂⟩
      · intro hwrite d₃ h₃
        simp only [hwrite, Fate.andThen]
        exact ends_rollBack_of a source (h₃.trans h₂) hkept
      · intro hwrite d₃ h₃
        simp only [hwrite, Fate.andThen]
        exact ⟨trivial, h₃.trans h₂⟩
    · intro hregister d₂ h₂
      rw [if_neg (by rw [hregister]; decide), h₁] at h₂
      simp only [hregister]
      exact ends_rollBack_of a source h₂ hkept
    · intro hregister d₂ h₂
      rw [if_neg (by rw [hregister]; decide), h₁] at h₂
      simp only [hregister]
      exact ⟨trivial, h₂⟩
  · intro hreplaced d₁ h₁
    rw [if_neg (by rw [hreplaced]; decide)] at h₁
    simp only [hreplaced]
    exact ends_rollBack_of a source h₁ hkept
  · intro hreplaced d₁ h₁
    rw [if_neg (by rw [hreplaced]; decide)] at h₁
    simp only [hreplaced]
    exact ⟨trivial, h₁⟩

theorem leaves_backUp (a : Attempt) (agent : Bytes) :
    Leaves (backUp a agent)
      { d.files with backup := (backedUp a.faults.backup d.backup agent).1 }
      (backedUp a.faults.backup d.backup agent).2 d := by
  unfold backUp Leaves
  rw [Prog.wp_bind, wp_get]
  obtain ⟨agentFile, backup, displayVersion, result, temporary⟩ := d
  cases backup with
  | some kept => exact ⟨rfl, rfl⟩
  | none =>
    unfold backedUp copyToBackup
    cases a.faults.backup with
    | done => exact ⟨rfl, rfl⟩
    | fails _ left => exact ⟨Or.inl ⟨rfl, rfl⟩, rfl⟩
    | stops left => exact ⟨Or.inr ⟨rfl, rfl⟩, rfl⟩

theorem backedUp_done {fate : CopyFate} {backup : Option Bytes} {agent : Bytes}
    (h : (backedUp fate backup agent).2 = .done) :
    (backedUp fate backup agent).1 = some (backup.getD agent) := by
  unfold backedUp at h ⊢
  cases backup with
  | some kept => rfl
  | none =>
    cases fate with
    | done => rfl
    | fails _ left | stops left => cases h

theorem wp_outer_handler (a : Attempt) (hfiles : d.files = files) : wp (do
        ignoring (writeResult a.faults.writeFailed a.job "failed" "update_failed")
        ignoring a.faults.startFailed.run
        pure 1 : Program Nat)
      (fun _ d' => d'.files = files) (fun _ d' => d'.files = files) d := by
  refine (leaves_writeResult _ _ _ _).ignoring_bind ?_ ?_
  · intro _ d₁ h₁
    refine (leaves_run _).ignoring_bind ?_ ?_
    · intro _ d₂ h₂
      exact (h₂.trans h₁).trans hfiles
    · intro _ d₂ h₂
      exact (h₂.trans h₁).trans hfiles
  · intro _ d₁ h₁
    exact h₁.trans hfiles

/-- Every attempt follows its course. -/
theorem files_update (d : Disk) (a : Attempt) : (update d a).files = course d a := by
  unfold update
  refine (wp_iff_after (I := fun d' : Disk => d'.files = course d a)).mp ?_
  unfold runUpdater course
  cases hjob : safeValue a.job with
  | false => rfl
  | true =>
    simp only [if_true]
    rw [wp_catchAll]
    unfold updateBranch
    rw [Prog.wp_bind, wp_get, Prog.wp_bind]
    cases hcheck : check d a with
    | error e =>
      cases e with
      | thrown => exact wp_outer_handler a rfl
      | stopped => rfl
    | ok passed =>
      obtain ⟨source, agent, staged⟩ := passed
      show wp (do
        backUp a agent
        a.faults.stop.run
        catchAll (install a) (rollBack a source)) _ _ d
      unfold admitted
      refine (leaves_backUp a agent).wp_bind ?_ ?_ ?_
      · intro hbackup d₁ h₁
        have hkept := backedUp_done hbackup
        rw [show d.files.backup = d.backup from rfl]
        refine (leaves_run a.faults.stop).wp_bind ?_ ?_ ?_
        · intro hstop d₂ h₂
          simp only [hbackup, hstop, Fate.andThen, if_true]
          have hbackup₂ : d₂.backup = some (d.backup.getD agent) :=
            (congrArg Files.backup (h₂.trans h₁)).trans hkept
          have h := ends_install a source hbackup₂
          rw [h₂, h₁] at h
          refine wp_mono h (fun _ _ hq => hq) ?_
          rintro e d' ⟨rfl, hfiles⟩
          exact hfiles
        · intro hstop d₂ h₂
          simp only [hbackup, hstop, Fate.andThen]
          exact wp_outer_handler a (h₂.trans h₁)
        · intro hstop d₂ h₂
          simp only [hbackup, hstop, Fate.andThen]
          exact h₂.trans h₁
      · intro hbackup d₁ h₁
        rw [show d.files.backup = d.backup from rfl]
        simp only [hbackup, Fate.andThen]
        exact wp_outer_handler a h₁
      · intro hbackup d₁ h₁
        rw [show d.files.backup = d.backup from rfl]
        simp only [hbackup, Fate.andThen]
        exact h₁

end Ipms.Agent.Updater
