import Ipms.Agent.Updater.Course

/-
  Ipms.Agent.Updater.Recovery

  Which attempts leave a machine that can be updated again.  The next attempt
  compares the rollback copy with the installed binary, so an attempt that has
  replaced the binary and ends without removing the copy, whether by a crash or by
  an error it ignores, leaves two binaries that no later attempt accepts.
-/

namespace Ipms.Agent.Updater

open Ipms.Lib
open Ipms.Lib.Prog
open Ipms.ManagementJson (Bytes)
open Ipms.Crypto (sha256)
open Option (some)

variable {d : Disk} {a : Attempt}

/-! ## The greatest version -/

/-- The version no other is greater than. -/
def Version.last : Version := ⟨65535, 65535, 65535⟩

/-- The text of the greatest version. -/
def lastVersion : String := "65535.65535.65535"

theorem versionDigits_le {cs rest : List Char} {component n : Nat}
    (h : versionDigits component cs = some (n, rest)) (hle : component ≤ 65535) : n ≤ 65535 := by
  induction cs generalizing component with
  | nil =>
    simp only [versionDigits, some.injEq, Prod.mk.injEq] at h
    omega
  | cons c cs ih =>
    unfold versionDigits at h
    split at h
    · simp only at h
      split at h
      · cases h
      · exact ih h (by omega)
    · simp only [some.injEq, Prod.mk.injEq] at h
      omega

theorem versionComponent_le {cs rest : List Char} {n : Nat}
    (h : versionComponent cs = some (n, rest)) : n ≤ 65535 := by
  cases cs with
  | nil => cases h
  | cons c cs =>
    simp only [versionComponent] at h
    by_cases hdigit : c.isDigit = true
    · rw [if_pos hdigit] at h
      exact versionDigits_le h (by omega)
    · rw [if_neg hdigit] at h
      cases h

variable {v : Version}

theorem versionTuple_le {value : String} (h : versionTuple value = some v) :
    v.major ≤ 65535 ∧ v.minor ≤ 65535 ∧ v.patch ≤ 65535 := by
  unfold versionTuple at h
  simp only [Option.bind_eq_some_iff, Prod.exists] at h
  obtain ⟨major, _, hmajor, _, -, minor, _, hminor, _, -, patch, _, hpatch, h⟩ := h
  split at h
  · simp only [some.injEq] at h
    subst h
    exact ⟨versionComponent_le hmajor, versionComponent_le hminor, versionComponent_le hpatch⟩
  · cases h

theorem Version.less_iff {w : Version} : v.less w = true ↔ v.major < w.major ∨ v.major = w.major ∧
      (v.minor < w.minor ∨ v.minor = w.minor ∧ v.patch < w.patch) := by
  simp [Version.less]

theorem less_last_iff {value : String} (h : versionTuple value = some v) :
    v.less Version.last = true ↔ v ≠ Version.last := by
  obtain ⟨hmajor, hminor, hpatch⟩ := versionTuple_le h
  obtain ⟨major, minor, patch⟩ := v
  rw [Version.less_iff]
  simp only [Version.last, ne_eq, Version.mk.injEq]
  simp only at hmajor hminor hpatch
  omega

theorem versionTuple_lastVersion : versionTuple lastVersion = some Version.last := by
  decide

/-- No version is greater than the registered one. -/
def IsLast (displayVersion : String) : Prop := versionTuple displayVersion = some Version.last

variable {displayVersion : String}

theorem newer_last_iff (h : (versionTuple displayVersion).isSome) :
    newer lastVersion displayVersion = true ↔ ¬IsLast displayVersion := by
  obtain ⟨v, hv⟩ := Option.isSome_iff_exists.mp h
  unfold newer IsLast
  rw [versionTuple_lastVersion, hv]
  simp only [some.injEq]
  exact less_last_iff hv

variable {source : String}

theorem newer_cases {version : String} (h : newer version source = true) :
    ∃ v w, versionTuple version = some v ∧ versionTuple source = some w ∧ w.less v = true := by
  unfold newer at h
  split at h
  · exact ⟨_, _, ‹_›, ‹_›, h⟩
  · cases h

theorem not_isLast_of_newer {version : String} (h : newer version source = true) :
    ¬IsLast source := by
  obtain ⟨v, w, hv, hw, hless⟩ := newer_cases h
  intro hlast
  rw [IsLast, hw, some.injEq] at hlast
  subst hlast
  obtain ⟨hmajor, hminor, hpatch⟩ := versionTuple_le hv
  rw [Version.less_iff] at hless
  simp only [Version.last] at hless
  omega

/-! ## Attempts that should succeed -/

/-- No operation fails. -/
def noFaults : Faults where
  readVersion := .done
  hashStaged := .done
  hashAgent := .done
  findBackup := .done
  hashBackup := .done
  backup := .done
  stop := .done
  replace := fun _ => .done
  register := .done
  write := ⟨.done, none, .done⟩
  start := .done
  remove := .done
  restore := fun _ => .done
  registerSource := .done
  writeRolledBack := ⟨.done, none, .done⟩
  startRolledBack := .done
  writeFailed := ⟨.done, none, .done⟩
  startFailed := .done

/-- The staged binary has the expected digest, and its version is greater than the registered
one. -/
structure Attempt.Fits (a : Attempt) (d : Disk) : Prop where
  job : safeValue a.job = true
  version : safeValue a.version = true
  newer : newer a.version d.displayVersion = true
  staged : ∃ staged, a.staged = some staged ∧ sha256 staged = a.expectedSha256

/-- The attempt installs its binary and says so. -/
structure Attempt.Succeeds (a : Attempt) (d : Disk) : Prop where
  exit : ((runUpdater a).exec d).1 = .ok 0
  files : (update d a).files = ⟨a.staged, none, a.version⟩
  result : (update d a).result = some (resultDocument a.job "succeeded" "updated")

/-- Every later update that should succeed does. -/
def Recoverable (d : Disk) : Prop := ∀ a : Attempt, a.Fits d → a.faults = noFaults → a.Succeeds d

/-- What the checks of the next attempt ask of the files. -/
def Files.Ready (f : Files) : Prop :=
  f.displayVersion.toList.length < 64 ∧
    ∃ agent, f.agent = some agent ∧ ∀ backup, f.backup = some backup → sha256 backup = sha256 agent

theorem lowerHex_hexDigit {c : Char} (h : Ipms.Agent.Gpo.lowerHex c = true) :
    hexDigit c = true := by
  unfold Ipms.Agent.Gpo.lowerHex at h
  unfold hexDigit
  simp only [Bool.or_eq_true, Bool.and_eq_true, decide_eq_true_eq] at h ⊢
  rcases h with ⟨hlow, hhigh⟩ | hletter
  · refine Or.inl (Or.inl ?_)
    simp only [Char.isDigit, Bool.and_eq_true, decide_eq_true_eq]
    exact ⟨hlow, hhigh⟩
  · exact Or.inl (Or.inr hletter)

theorem hexDigest_sha256 (bytes : Bytes) : hexDigest (sha256 bytes) = true := by
  have h := Ipms.Crypto.digest_sha256 bytes
  unfold Ipms.Agent.Gpo.digest at h
  unfold hexDigest
  simp only [Bool.and_eq_true, beq_iff_eq, List.all_eq_true] at h ⊢
  exact ⟨h.1, fun c hc => lowerHex_hexDigit (h.2 c hc)⟩

theorem reading_ok_iff {α : Type} {fate : Fate} {value : Option α} {x : α} :
    fate.reading value = .ok x ↔ fate = .done ∧ value = some x := by
  cases fate with
  | done | fails | stops => cases value <;> simp [Fate.reading]

theorem require_ok_iff {c : Bool} {u : Unit} : require c = .ok u ↔ c = true := by
  cases c <;> simp [require]

theorem bind_ok_iff {α β : Type} {x : Except Break α} {f : α → Except Break β} {b : β} :
    (x >>= f) = .ok b ↔ ∃ y, x = .ok y ∧ f y = .ok b := by
  cases x with
  | ok y | error e => simp [bind, Except.bind]

theorem installedVersion_eq_some : installedVersion displayVersion = some source ↔
      displayVersion.toList.length < 64 ∧ displayVersion = source := by
  unfold installedVersion
  split
  · simp [*]
  · simp [*]

theorem check_ok {agent staged : Bytes} (h : check d a = .ok (source, agent, staged)) :
    source = d.displayVersion ∧ newer a.version d.displayVersion = true ∧
      safeValue a.version = true ∧ d.agent = some agent ∧ a.staged = some staged ∧ d.files.Ready := by
  unfold check at h
  simp only [bind_ok_iff, require_ok_iff, reading_ok_iff, installedVersion_eq_some,
    some.injEq, Bool.and_eq_true] at h
  obtain ⟨_, ⟨hversion, -⟩, source', ⟨-, hshort, rfl⟩, _, hnewer, staged', ⟨-, hstaged⟩, _, -,
    agent', ⟨-, hagent⟩, found, ⟨-, rfl⟩, h⟩ := h
  cases hbackup : d.backup with
  | none =>
    rw [hbackup] at h
    cases h
    exact ⟨rfl, hnewer, hversion, hagent, hstaged, hshort, agent, hagent, by
      simp [Disk.files, hbackup]⟩
  | some backup =>
    rw [hbackup] at h
    simp only [bind_ok_iff, require_ok_iff, reading_ok_iff, some.injEq, beq_iff_eq] at h
    obtain ⟨backup', ⟨-, rfl⟩, _, hdigest, h⟩ := h
    cases h
    refine ⟨rfl, hnewer, hversion, hagent, hstaged, hshort, agent, hagent, ?_⟩
    intro kept hkept
    rw [show d.files.backup = d.backup from rfl, hbackup, some.injEq] at hkept
    rw [← hkept]
    exact hdigest

theorem check_of_ready (hfits : a.Fits d) (hfaults : a.faults = noFaults)
    (hready : d.files.Ready) : ∃ agent staged, check d a = .ok (d.displayVersion, agent, staged) := by
  obtain ⟨hshort, agent, hagent, hbackup⟩ := hready
  obtain ⟨staged, hstaged, hdigest⟩ := hfits.staged
  refine ⟨agent, staged, ?_⟩
  unfold check
  simp only [bind_ok_iff, require_ok_iff, reading_ok_iff, installedVersion_eq_some,
    some.injEq, Bool.and_eq_true, hfaults, noFaults, true_and]
  refine ⟨(), ⟨hfits.version, ?_⟩, d.displayVersion, ⟨hshort, rfl⟩, (), hfits.newer, staged, hstaged,
    (), ?_, agent, hagent, d.backup, rfl, ?_⟩
  · rw [← hdigest]
    exact hexDigest_sha256 staged
  · exact beq_iff_eq.mpr hdigest
  · cases hkept : d.backup with
    | none => rfl
    | some kept =>
      simp only [bind_ok_iff, require_ok_iff, reading_ok_iff, some.injEq, true_and]
      exact ⟨kept, rfl, (), beq_iff_eq.mpr (hbackup kept hkept), rfl⟩

theorem exit_of_check_error {e : Break} (h : check d a = .error e) :
    wp (runUpdater a) (fun code _ => code = 1) (fun _ _ => True) d := by
  unfold runUpdater
  cases hjob : safeValue a.job with
  | false => exact rfl
  | true =>
    simp only [if_true]
    rw [wp_catchAll]
    unfold updateBranch
    rw [Prog.wp_bind, wp_get, Prog.wp_bind, h]
    cases e with
    | thrown =>
      refine (leaves_writeResult _ _ _ _).ignoring_bind ?_ (fun _ _ _ => trivial)
      intro _ d₁ _
      exact (leaves_run _).ignoring_bind (fun _ _ _ => rfl) (fun _ _ _ => trivial)
    | stopped => trivial

theorem check_of_exit (h : ((runUpdater a).exec d).1 = .ok 0) :
    ∃ source agent staged, check d a = .ok (source, agent, staged) := by
  cases hcheck : check d a with
  | ok passed => exact ⟨passed.1, passed.2.1, passed.2.2, rfl⟩
  | error e =>
    have hexit := exit_of_check_error hcheck
    unfold wp at hexit
    rcases hrun : (runUpdater a).exec d with ⟨r, d'⟩
    rw [hrun] at h hexit
    cases h
    exact absurd hexit (by simp [Prog.Meets])

theorem exec_of_check (hjob : safeValue a.job = true) (hfaults : a.faults = noFaults)
    {agent staged : Bytes} (h : check d a = .ok (source, agent, staged)) :
    (runUpdater a).exec d = (.ok 0, ⟨a.staged, none, a.version,
      some (resultDocument a.job "succeeded" "updated"), none⟩) := by
  unfold runUpdater
  rw [if_pos hjob]
  unfold catchAll updateBranch backUp install
  simp only [exec_tryCatch, exec_bind, exec_get, exec_ofExcept, h, hfaults, noFaults, catchAll]
  cases hbackup : d.backup with
  | none => rfl
  | some kept => rfl

theorem succeeds_of_ready (hfits : a.Fits d) (hfaults : a.faults = noFaults)
    (hready : d.files.Ready) : a.Succeeds d := by
  obtain ⟨agent, staged, hcheck⟩ := check_of_ready hfits hfaults hready
  have hexec := exec_of_check hfits.job hfaults hcheck
  refine ⟨?_, ?_, ?_⟩
  · rw [hexec]
  · unfold update after
    rw [hexec]
    rfl
  · unfold update after
    rw [hexec]

/-- The attempt that updates to the greatest version. -/
def lastAttempt : Attempt where
  job := "job"
  version := lastVersion
  expectedSha256 := sha256 []
  staged := some []
  faults := noFaults

/-- Later updates succeed exactly where the files are ready for them, or where no version is
left to update to. -/
theorem recoverable_iff (h : (versionTuple d.displayVersion).isSome) :
    Recoverable d ↔ IsLast d.displayVersion ∨ d.files.Ready := by
  constructor
  · intro hrecoverable
    by_cases hlast : IsLast d.displayVersion
    · exact Or.inl hlast
    · have hfits : lastAttempt.Fits d :=
        { job := by decide
          version := by decide
          newer := (newer_last_iff h).mpr hlast
          staged := ⟨[], rfl, rfl⟩ }
      obtain ⟨source, agent, staged, hcheck⟩ := check_of_exit (hrecoverable _ hfits rfl).exit
      exact Or.inr (check_ok hcheck).2.2.2.2.2
  · rintro (hlast | hready) a hfits hfaults
    · exact absurd hlast (not_isLast_of_newer hfits.newer)
    · exact succeeds_of_ready hfits hfaults hready

/-! ## Attempts that leave the machine recoverable -/

/-- The binary is the complete old or the complete new one, and every later update that should
succeed does. -/
def Intact (d : Disk) (a : Attempt) (d' : Disk) : Prop :=
  (∃ binary, d'.agent = some binary ∧ (d.agent = some binary ∨ a.staged = some binary)) ∧
    Recoverable d'

/-- A machine with the agent installed, which can be updated. -/
structure Installed (d : Disk) : Prop where
  agent : d.agent.isSome
  version : (versionTuple d.displayVersion).isSome
  recoverable : Recoverable d

/-- The registration of the new version is no obstacle: its text fits the buffer it is read
into, and the binary has the digest of the rollback copy; or no later version exists. -/
def Attempt.Accepts (a : Attempt) (binary kept : Bytes) : Prop :=
  IsLast a.version ∨ a.version.toList.length < 64 ∧ sha256 binary = sha256 kept

/-- What a rollback has to achieve: the whole old or new binary, which agrees with the rollback
copy, under a version that can be read. -/
def Attempt.RollsBack (a : Attempt) (old new kept current : Bytes) (registered : Bool) : Prop :=
  ∃ binary, a.faults.restoredAgent kept (some current) = some binary ∧
    (binary = old ∨ binary = new) ∧
    if registered ∧ a.faults.sourceRegistered kept (some current) = false then
      a.Accepts binary kept
    else sha256 binary = sha256 kept

/-- The backup is not cut short with a part of the binary left behind. -/
def Attempt.BacksUp (a : Attempt) (backup : Option Bytes) (old : Bytes) : Prop :=
  ∀ kept, (backedUp a.faults.backup backup old).1 = some kept → sha256 kept = sha256 old

/-- Once the service is stopped: the new binary, if it replaced the old one, either gets through to
the removal of the rollback copy or is rolled back. -/
def Attempt.Completes (a : Attempt) (old new kept : Bytes) : Prop :=
  match replaced a.faults.replace 40 with
  | .stops => True
  | .fails => a.RollsBack old new kept old false
  | .done =>
    match a.faults.register with
    | .stops => sha256 new = sha256 kept
    | .fails => a.RollsBack old new kept new false
    | .done =>
      match a.faults.write.fate.andThen a.faults.start with
      | .stops => a.Accepts new kept
      | .fails => a.RollsBack old new kept new true
      | .done =>
        if a.faults.remove = .done then IsLast a.version ∨ a.version.toList.length < 64
        else a.Accepts new kept

/-- The condition under which an attempt leaves the machine recoverable. -/
def Survives (d : Disk) (a : Attempt) : Prop :=
  safeValue a.job = true → ∀ source old new, check d a = .ok (source, old, new) →
    a.BacksUp d.backup old ∧
      ((backedUp a.faults.backup d.backup old).2.andThen a.faults.stop = .done →
        a.Completes old new (d.backup.getD old))

/-- Files that are the complete old or new binary and are accepted by later updates. -/
def Files.Sound (f : Files) (old new : Bytes) : Prop :=
  ∃ binary, f.agent = some binary ∧ (binary = old ∨ binary = new) ∧
    (IsLast f.displayVersion ∨ f.Ready)

variable {binary : Bytes}

theorem files_ready_iff {backup : Option Bytes} :
    Files.Ready ⟨some binary, backup, displayVersion⟩ ↔ displayVersion.toList.length < 64 ∧
      ∀ kept, backup = some kept → sha256 kept = sha256 binary := by
  simp [Files.Ready]

variable {kept old new : Bytes}

theorem sound_kept_iff : Files.Sound ⟨some binary, some kept, displayVersion⟩ old new ↔
      (binary = old ∨ binary = new) ∧ (IsLast displayVersion ∨
        displayVersion.toList.length < 64 ∧ sha256 binary = sha256 kept) := by
  unfold Files.Sound
  simp only [some.injEq, exists_eq_left', files_ready_iff, forall_eq']
  rw [eq_comm (a := sha256 kept)]

theorem sound_source_iff (hshort : source.toList.length < 64) (hlast : ¬IsLast source) :
    Files.Sound ⟨some binary, some kept, source⟩ old new ↔
      (binary = old ∨ binary = new) ∧ sha256 binary = sha256 kept := by
  rw [sound_kept_iff]
  simp [hshort, hlast]

theorem sound_rolledBack_iff {current : Bytes} {registered : Bool}
    (hshort : source.toList.length < 64) (hlast : ¬IsLast source)
    (hdisplay : displayVersion = if registered then a.version else source) :
    (rolledBack a.faults kept source ⟨some current, some kept, displayVersion⟩).Sound old new ↔
      a.RollsBack old new kept current registered := by
  unfold rolledBack Attempt.RollsBack
  simp only
  cases hagent : a.faults.restoredAgent kept (some current) with
  | none => simp [Files.Sound]
  | some binary =>
    simp only [some.injEq, exists_eq_left']
    cases hsource : a.faults.sourceRegistered kept (some current) with
    | true =>
      rw [if_pos rfl, sound_source_iff hshort hlast]
      simp
    | false =>
      rw [if_neg (by decide), hdisplay]
      cases registered with
      | true =>
        rw [if_pos rfl, sound_kept_iff]
        simp [Attempt.Accepts]
      | false =>
        rw [if_neg (by decide), sound_source_iff hshort hlast]
        simp

/-- From the stopped service on. -/
theorem sound_installed_iff (hstaged : a.staged = some new) (hshort : source.toList.length < 64)
    (hlast : ¬IsLast source) (hkept : sha256 old = sha256 kept) :
    (installed a kept source ⟨some old, some kept, source⟩).Sound old new ↔
      a.Completes old new kept := by
  unfold installed Attempt.Completes
  simp only
  cases replaced a.faults.replace 40 with
  | stops =>
    simp only [iff_true]
    rw [sound_source_iff hshort hlast]
    exact ⟨Or.inl rfl, hkept⟩
  | fails => exact sound_rolledBack_iff hshort hlast rfl
  | done =>
    simp only [hstaged]
    cases a.faults.register with
    | stops =>
      rw [sound_source_iff hshort hlast]
      simp
    | fails => exact sound_rolledBack_iff hshort hlast rfl
    | done =>
      simp only
      cases a.faults.write.fate.andThen a.faults.start with
      | stops =>
        rw [sound_kept_iff]
        simp [Attempt.Accepts]
      | fails => exact sound_rolledBack_iff hshort hlast rfl
      | done =>
        simp only
        by_cases hremove : a.faults.remove = .done
        · rw [if_pos hremove, if_pos hremove]
          simp [Files.Sound, files_ready_iff]
        · rw [if_neg hremove, if_neg hremove, sound_kept_iff]
          simp [Attempt.Accepts]

variable {files : Files}

/-- From the passed checks on. -/
theorem sound_admitted_iff (hstaged : a.staged = some new) (hfiles : files.Ready)
    (hold : files.agent = some old) (hsource : files.displayVersion = source)
    (hlast : ¬IsLast source) : (admitted a source old files).Sound old new ↔
      a.BacksUp files.backup old ∧
        ((backedUp a.faults.backup files.backup old).2.andThen a.faults.stop = .done →
          a.Completes old new (files.backup.getD old)) := by
  obtain ⟨agentFile, backup, displayVersion⟩ := files
  obtain ⟨hshort, agent, hagent, hbackup⟩ := hfiles
  simp only at hold hsource hshort hagent hbackup
  subst hsource hold
  obtain rfl : old = agent := some.inj hagent
  unfold admitted
  by_cases hgo : (backedUp a.faults.backup backup old).2.andThen a.faults.stop = .done
  · have hdone : (backedUp a.faults.backup backup old).2 = .done := by
      cases hfate : (backedUp a.faults.backup backup old).2 with
      | done => rfl
      | fails | stops => rw [hfate] at hgo; cases hgo
    have hcopy := backedUp_done hdone
    have hkept : sha256 old = sha256 (backup.getD old) := by
      cases backup with
      | none => rfl
      | some kept => exact (hbackup kept rfl).symm
    simp only [if_pos hgo]
    rw [hcopy, sound_installed_iff hstaged hshort hlast hkept]
    have hbacksUp : a.BacksUp backup old := by
      intro kept h
      rw [hcopy, some.injEq] at h
      rw [← h, hkept]
    simp [hbacksUp, hgo]
  · simp only [if_neg hgo]
    simp only [hgo, false_implies, and_true, Attempt.BacksUp]
    unfold Files.Sound
    simp [files_ready_iff, hshort, hlast]

theorem rolledBack_displayVersion :
    (rolledBack a.faults kept source files).displayVersion = source ∨
      (rolledBack a.faults kept source files).displayVersion = files.displayVersion := by
  simp only [rolledBack]
  split
  · exact Or.inl rfl
  · exact Or.inr rfl

theorem installed_displayVersion (h : files.displayVersion = source) :
    (installed a kept source files).displayVersion = source ∨
      (installed a kept source files).displayVersion = a.version := by
  unfold installed
  simp only
  cases replaced a.faults.replace 40 with
  | stops => exact Or.inl h
  | fails => exact Or.inl (rolledBack_displayVersion.elim id (·.trans h))
  | done =>
    simp only
    cases a.faults.register with
    | stops => exact Or.inl h
    | fails => exact Or.inl (rolledBack_displayVersion.elim id (·.trans h))
    | done =>
      simp only
      cases a.faults.write.fate.andThen a.faults.start with
      | stops => exact Or.inr rfl
      | fails => exact rolledBack_displayVersion
      | done =>
        simp only
        split
        · exact Or.inr rfl
        · exact Or.inr rfl

theorem admitted_displayVersion (a : Attempt) (agent : Bytes) (files : Files)
    (h : files.displayVersion = source) : (admitted a source agent files).displayVersion = source ∨
      (admitted a source agent files).displayVersion = a.version := by
  unfold admitted
  simp only
  split
  · exact installed_displayVersion h
  · exact Or.inl h

theorem versionTuple_update (h : (versionTuple d.displayVersion).isSome) :
    (versionTuple (update d a).displayVersion).isSome := by
  have hfiles : (update d a).displayVersion = (course d a).displayVersion :=
    congrArg Files.displayVersion (files_update d a)
  rw [hfiles]
  unfold course
  cases safeValue a.job with
  | false => exact h
  | true =>
    simp only [if_true]
    cases hcheck : check d a with
    | error e => exact h
    | ok passed =>
      obtain ⟨source, agent, new⟩ := passed
      obtain ⟨hsource, hnewer, -⟩ := check_ok hcheck
      obtain ⟨v, w, hv, -⟩ := newer_cases hnewer
      rcases admitted_displayVersion a agent d.files hsource.symm
        with hversion | hversion
      · show (versionTuple (admitted a source agent d.files).displayVersion).isSome
        rw [hversion, hsource]
        exact h
      · show (versionTuple (admitted a source agent d.files).displayVersion).isSome
        rw [hversion, hv]
        rfl

/-- An attempt leaves an installed machine intact exactly where it meets the condition. -/
theorem intact_update_iff (hd : Installed d) : Intact d a (update d a) ↔ Survives d a := by
  obtain ⟨old, hold⟩ := Option.isSome_iff_exists.mp hd.agent
  have hfiles := files_update d a
  have hready := (recoverable_iff hd.version).mp hd.recoverable
  -- An attempt that ends before its first write leaves the files as they were.
  have hsame : (update d a).files = d.files → Intact d a (update d a) := by
    intro h
    have hagent : (update d a).agent = d.agent := congrArg Files.agent h
    have hversion : (update d a).displayVersion = d.displayVersion :=
      congrArg Files.displayVersion h
    refine ⟨⟨old, hagent.trans hold, Or.inl hold⟩, ?_⟩
    rw [recoverable_iff (by rw [hversion]; exact hd.version), hversion, h]
    exact hready
  unfold course at hfiles
  cases hjob : safeValue a.job with
  | false =>
    rw [hjob] at hfiles
    simp only [Survives, hjob, Bool.false_eq_true, false_implies, iff_true]
    exact hsame hfiles
  | true =>
    rw [hjob] at hfiles
    simp only [Survives, hjob, true_implies]
    cases hcheck : check d a with
    | error e =>
      rw [hcheck] at hfiles
      simp only [reduceCtorEq, false_implies, implies_true, iff_true]
      exact hsame hfiles
    | ok passed =>
      obtain ⟨source, agent, new⟩ := passed
      rw [hcheck] at hfiles
      obtain ⟨hsource, hnewer, -, hagent, hstaged, hready⟩ := check_ok hcheck
      have hsound := sound_admitted_iff hstaged
        hready hagent hsource.symm (by rw [hsource]; exact not_isLast_of_newer hnewer)
      have hparses := versionTuple_update (a := a) hd.version
      have hintact : Intact d a (update d a) ↔ (update d a).files.Sound agent new := by
        unfold Intact Files.Sound
        rw [recoverable_iff hparses, hagent, hstaged]
        simp only [some.injEq, eq_comm (a := agent), eq_comm (a := new),
          show (update d a).agent = (update d a).files.agent from rfl,
          show (update d a).displayVersion = (update d a).files.displayVersion from rfl]
        constructor
        · rintro ⟨⟨binary, hbinary, heither⟩, hrecoverable⟩
          exact ⟨binary, hbinary, heither, hrecoverable⟩
        · rintro ⟨binary, hbinary, heither, hrecoverable⟩
          exact ⟨⟨binary, hbinary, heither⟩, hrecoverable⟩
      rw [hintact, hfiles]
      simp only [if_true]
      rw [hsound]
      constructor
      · rintro h _ _ _ ⟨⟩
        exact h
      · intro h
        exact h source agent new rfl

/-- A property of every attempt of a run, from the machine it finds. -/
def Along (P : Disk → Attempt → Prop) (d : Disk) : List Attempt → Prop
  | [] => True
  | a :: as => P d a ∧ Along P (update d a) as

theorem Intact.installed (hd : Installed d) (h : Intact d a (update d a)) :
    Installed (update d a) := by
  obtain ⟨⟨binary, hbinary, -⟩, hrecoverable⟩ := h
  exact ⟨by rw [hbinary]; rfl, versionTuple_update hd.version, hrecoverable⟩

/-- Every attempt of a run leaves the machine intact exactly where every attempt meets the
condition: a crash or a failing step is harmless where the rollback copy it leaves agrees with the
binary. -/
theorem attempts_intact_iff (attempts : List Attempt) (hd : Installed d) :
    Along (fun d a => Intact d a (update d a)) d attempts ↔ Along Survives d attempts := by
  induction attempts generalizing d with
  | nil => exact Iff.rfl
  | cons a as ih =>
    simp only [Along]
    rw [intact_update_iff hd]
    refine and_congr_right fun hsurvives => ?_
    exact ih (Intact.installed hd ((intact_update_iff hd).mpr hsurvives))

/-! ## A run that cannot be updated any more -/

/-- A machine as the installer leaves it. -/
def sampleDisk : Disk := ⟨some [1], none, "1.0.0", none, none⟩

/-- An update whose rollback copy cannot be removed. -/
def sampleAttempt : Attempt where
  job := "job"
  version := "1.0.1"
  expectedSha256 := sha256 [2]
  staged := some [2]
  faults := { noFaults with remove := .fails }

theorem sampleDisk_installed : Installed sampleDisk where
  agent := rfl
  version := by decide
  recoverable := by
    rw [recoverable_iff (by decide)]
    exact Or.inr (files_ready_iff.mpr ⟨by decide, nofun⟩)

theorem files_update_sample :
    (update sampleDisk sampleAttempt).files = ⟨some [2], some [1], "1.0.1"⟩ := by
  decide +kernel

/-- The attempt reports success, but its rollback copy stays and every later attempt is refused,
whatever it brings and whether or not an operation fails. -/
theorem rollback_copy_bars_updates :
    Installed sampleDisk ∧ sampleAttempt.Fits sampleDisk ∧
      ((runUpdater sampleAttempt).exec sampleDisk).1 = .ok 0 ∧
      ¬Intact sampleDisk sampleAttempt (update sampleDisk sampleAttempt) ∧
      (∃ a : Attempt, a.Fits (update sampleDisk sampleAttempt)) ∧
      ∀ a : Attempt, ¬a.Succeeds (update sampleDisk sampleAttempt) := by
  have hversion : (update sampleDisk sampleAttempt).displayVersion = "1.0.1" :=
    congrArg Files.displayVersion files_update_sample
  have hrefused : ∀ a : Attempt, ¬a.Succeeds (update sampleDisk sampleAttempt) := by
    intro a ha
    obtain ⟨source, agent, staged, hcheck⟩ := check_of_exit ha.exit
    have hready := (check_ok hcheck).2.2.2.2.2
    rw [files_update_sample, files_ready_iff] at hready
    exact absurd (hready.2 [1] rfl) (by decide +kernel)
  have hfits : lastAttempt.Fits (update sampleDisk sampleAttempt) :=
    { job := by decide
      version := by decide
      newer := by rw [hversion]; decide
      staged := ⟨[], rfl, rfl⟩ }
  refine ⟨sampleDisk_installed, ?_, by decide +kernel, ?_, ⟨lastAttempt, hfits⟩, hrefused⟩
  · exact
      { job := by decide
        version := by decide
        newer := by decide
        staged := ⟨[2], rfl, rfl⟩ }
  · intro h
    exact hrefused lastAttempt (h.2 lastAttempt hfits rfl)

theorem attempts_intact_iff_sample :
    Installed sampleDisk ∧
      (Along (fun d a => Intact d a (update d a)) sampleDisk [sampleAttempt] ↔
        Along Survives sampleDisk [sampleAttempt]) :=
  ⟨sampleDisk_installed, attempts_intact_iff [sampleAttempt] sampleDisk_installed⟩

end Ipms.Agent.Updater
