import Ipms.Lib.Throwing
import Ipms.Crypto.Sha256

/-
  Ipms.Agent.Updater.Update

  The update branch of the updater.  The program writes four things one after the
  other: the agent's binary, its rollback copy, the registered version and the
  result file.  Every operation takes its outcome as an input, so an attempt ranges
  over every failing step and every crash point: an operation that `fails` throws
  and the handlers above it run, one that `stops` ends the process and no handler
  runs.
-/

namespace Ipms.Agent.Updater

open Ipms.Lib
open Ipms.Lib.Prog
open Ipms.ManagementJson (Bytes)
open Ipms.Crypto (sha256)

/-! ## Values -/

/-- A letter, a digit or one of `-._`. -/
def safeCharacter (c : Char) : Bool := c.isAlphanum || c == '-' || c == '.' || c == '_'

def safeValue (value : String) : Bool :=
  !value.toList.isEmpty && decide (value.toList.length ≤ 64) && value.toList.all safeCharacter

/-- `std::iswxdigit`. -/
def hexDigit (c : Char) : Bool :=
  c.isDigit || decide ('a' ≤ c) && decide (c ≤ 'f') || decide ('A' ≤ c) && decide (c ≤ 'F')

/-- The checks of the expected digest. -/
def hexDigest (value : String) : Bool := value.toList.length == 64 && value.toList.all hexDigit

/-- The three components of a version. -/
structure Version where
  major : Nat
  minor : Nat
  patch : Nat
  deriving DecidableEq

/-- The lexicographic order of the components. -/
def Version.less (v w : Version) : Bool :=
  decide (v.major < w.major) || v.major == w.major &&
    (decide (v.minor < w.minor) || v.minor == w.minor && decide (v.patch < w.patch))

/-- The digits of a component behind the first ones, which make `component`. -/
def versionDigits (component : Nat) : List Char → Option (Nat × List Char)
  | [] => some (component, [])
  | c :: cs =>
    if c.isDigit then
      let next := component * 10 + (c.toNat - '0'.toNat)
      if 65535 < next then none else versionDigits next cs
    else some (component, c :: cs)

/-- A component of a version: one digit at least, and no more than 65535. -/
def versionComponent : List Char → Option (Nat × List Char)
  | [] => none
  | c :: cs => if c.isDigit then versionDigits 0 (c :: cs) else none

/-- The dot between two components. -/
def versionDot : List Char → Option (List Char)
  | '.' :: cs => some cs
  | _ => none

def versionTuple (value : String) : Option Version :=
  (versionComponent value.toList).bind fun (major, rest) =>
    (versionDot rest).bind fun rest =>
      (versionComponent rest).bind fun (minor, rest) =>
        (versionDot rest).bind fun rest =>
          (versionComponent rest).bind fun (patch, rest) =>
            if rest.isEmpty then some ⟨major, minor, patch⟩ else none

/-! ## The machine -/

/-- What the updater reads and writes: the binary, its rollback copy, the value
`DisplayVersion` of the registration, and the result file with the file it is moved from. -/
structure Disk where
  agent : Option Bytes
  backup : Option Bytes
  displayVersion : String
  result : Option String
  temporary : Option String
  deriving DecidableEq

/-- Why a program does not go on. -/
inductive Break where
  | thrown
  | stopped
  deriving DecidableEq

/-- What becomes of one operation. -/
inductive Fate where
  | done
  | fails
  | stops
  deriving DecidableEq

/-- What a copy that is not done leaves of its target. -/
inductive Left where
  | kept
  | gone
  | part (n : Nat)
  deriving DecidableEq

/-- What becomes of one call of `MoveFileEx`; an error may be one the updater retries. -/
inductive MoveFate where
  | done
  | fails (retryable : Bool)
  | stops
  deriving DecidableEq

/-- What becomes of one call of `CopyFile`. -/
inductive CopyFate where
  | done
  | fails (retryable : Bool) (left : Left)
  | stops (left : Left)
  deriving DecidableEq

/-- The target behind a copy that was not done. -/
def Left.leaves (source : Bytes) (target : Option Bytes) : Left → Option Bytes
  | .kept => target
  | .gone => none
  | .part n => some (source.take n)

/-- What becomes of the steps of `write_result`: opening the new file, the characters of the
document that reach it, which nobody checks, and moving it. -/
structure WriteFate where
  opening : Fate
  written : Option Nat
  moving : Fate

/-- What becomes of every operation of an attempt. -/
structure Faults where
  readVersion : Fate
  hashStaged : Fate
  hashAgent : Fate
  findBackup : Fate
  hashBackup : Fate
  backup : CopyFate
  stop : Fate
  replace : Nat → MoveFate
  register : Fate
  write : WriteFate
  start : Fate
  remove : Fate
  restore : Nat → CopyFate
  registerSource : Fate
  writeRolledBack : WriteFate
  startRolledBack : Fate
  writeFailed : WriteFate
  startFailed : Fate

/-- One start of the updater with the action `update`. -/
structure Attempt where
  job : String
  version : String
  expectedSha256 : String
  staged : Option Bytes
  faults : Faults

/-! ## Operations -/

/-- A program of the updater. -/
abbrev Program (α : Type) := Prog Disk Break α

/-- An operation without an effect of its own. -/
def Fate.run : Fate → Program Unit
  | .done => pure ()
  | .fails => throw .thrown
  | .stops => throw .stopped

/-- `catch (...)`: no handler runs in a process that stopped. -/
def catchAll {α : Type} (body handler : Program α) : Program α :=
  tryCatch body fun
    | .thrown => handler
    | .stopped => throw .stopped

/-- `try { … } catch (...) {}`. -/
def ignoring (body : Program Unit) : Program Unit := catchAll body (pure ())

/-- `CopyFileW` of the agent to its rollback copy, which does not exist yet. -/
def copyToBackup (fate : CopyFate) (agent : Bytes) : Program Unit :=
  match fate with
  | .done => modify fun d => { d with backup := some agent }
  | .fails _ left => do
    modify fun d => { d with backup := left.leaves agent d.backup }
    throw .thrown
  | .stops left => do
    modify fun d => { d with backup := left.leaves agent d.backup }
    throw .stopped

/-- `replace_file_with_retry` of the staged binary over the agent, with the attempts left. -/
def replaceFileWithRetry (fates : Nat → MoveFate) (staged : Option Bytes) : Nat → Program Unit
  | 0 => throw .thrown
  | attempts + 1 =>
    match fates attempts with
    | .done => modify fun d => { d with agent := staged }
    | .fails true => replaceFileWithRetry fates staged attempts
    | .fails false => throw .thrown
    | .stops => throw .stopped

/-- `copy_file_with_retry` of the rollback copy over the agent, with the attempts left. -/
def copyFileWithRetry (fates : Nat → CopyFate) (backup : Bytes) : Nat → Program Unit
  | 0 => throw .thrown
  | attempts + 1 =>
    match fates attempts with
    | .done => modify fun d => { d with agent := some backup }
    | .fails true left => do
      modify fun d => { d with agent := left.leaves backup d.agent }
      copyFileWithRetry fates backup attempts
    | .fails false left => do
      modify fun d => { d with agent := left.leaves backup d.agent }
      throw .thrown
    | .stops left => do
      modify fun d => { d with agent := left.leaves backup d.agent }
      throw .stopped

/-- The rollback copy, copied over the agent if it is there. -/
def restoreBackup (fates : Nat → CopyFate) : Program Unit := do
  let d ← get
  match d.backup with
  | none => throw .thrown
  | some backup => copyFileWithRetry fates backup 40

/-- The document of `write_result`. -/
def resultDocument (job result code : String) : String :=
  "\x7b\"job_id\":\"" ++ job ++ "\",\"result\":\"" ++ result ++ "\",\"result_code\":\"" ++ code ++
    "\"\x7d"

/-- The characters of a text that were written. -/
def writtenPart (written : Option Nat) (text : String) : String :=
  match written with
  | none => text
  | some n => String.ofList (text.toList.take n)

def writeResult (fate : WriteFate) (job result code : String) : Program Unit := do
  fate.opening.run
  let text := writtenPart fate.written (resultDocument job result code)
  modify fun d => { d with temporary := some text }
  fate.moving.run
  modify fun d => { d with temporary := none, result := some text }

def setDisplayVersion (fate : Fate) (version : String) : Program Unit := do
  fate.run
  modify fun d => { d with displayVersion := version }

/-- `std::filesystem::remove` of the rollback copy; its error is ignored. -/
def removeBackup (fate : Fate) : Program Unit := do
  fate.run
  modify fun d => { d with backup := none }

/-! ## The checks -/

/-- A reading operation: its value is there unless the operation fails or the process stops. -/
def Fate.reading {α : Type} (fate : Fate) (value : Option α) : Except Break α :=
  match fate, value with
  | .done, some x => .ok x
  | .stops, _ => .error .stopped
  | _, _ => .error .thrown

/-- A check of the updater. -/
def require (c : Bool) : Except Break Unit := if c then .ok () else .error .thrown

/-- `installed_version`: the value and its terminator fit a buffer of 64 characters. -/
def installedVersion (displayVersion : String) : Option String :=
  if displayVersion.toList.length < 64 then some displayVersion else none

/-- `version_tuple(version) > version_tuple(source_version)`. -/
def newer (version source : String) : Bool :=
  match versionTuple version, versionTuple source with
  | some v, some w => w.less v
  | _, _ => false

/-- The checks before the first write: the registered version and the bytes of the installed
and of the staged binary. -/
def check (d : Disk) (a : Attempt) : Except Break (String × Bytes × Bytes) := do
  require (safeValue a.version && hexDigest a.expectedSha256)
  let source ← a.faults.readVersion.reading (installedVersion d.displayVersion)
  require (newer a.version source)
  let staged ← a.faults.hashStaged.reading a.staged
  require (sha256 staged == a.expectedSha256)
  let agent ← a.faults.hashAgent.reading d.agent
  let found ← a.faults.findBackup.reading (some d.backup)
  match found with
  | none => pure (source, agent, staged)
  | some _ =>
    let backup ← a.faults.hashBackup.reading found
    require (sha256 backup == sha256 agent)
    pure (source, agent, staged)

/-! ## The update -/

/-- The handler of the inner block. -/
def rollBack (a : Attempt) (source : String) : Program Nat := do
  ignoring (restoreBackup a.faults.restore)
  ignoring (setDisplayVersion a.faults.registerSource source)
  ignoring (writeResult a.faults.writeRolledBack a.job "failed" "update_rolled_back")
  ignoring a.faults.startRolledBack.run
  pure 1

/-- The inner block. -/
def install (a : Attempt) : Program Nat := do
  replaceFileWithRetry a.faults.replace a.staged 40
  setDisplayVersion a.faults.register a.version
  writeResult a.faults.write a.job "succeeded" "updated"
  a.faults.start.run
  ignoring (removeBackup a.faults.remove)
  pure 0

/-- The rollback copy of the installed binary, made unless it is there. -/
def backUp (a : Attempt) (agent : Bytes) : Program Unit := do
  let d ← get
  match d.backup with
  | some _ => pure ()
  | none => copyToBackup a.faults.backup agent

/-- The outer block of the action `update`. -/
def updateBranch (a : Attempt) : Program Nat := do
  let d ← get
  let (source, agent, _) ← Prog.ofExcept (check d a)
  backUp a agent
  a.faults.stop.run
  catchAll (install a) (rollBack a source)

/-- `run_windows_updater` with the action `update`: the exit code, or where it stopped. -/
def runUpdater (a : Attempt) : Program Nat :=
  if safeValue a.job then
    catchAll (updateBranch a) do
      ignoring (writeResult a.faults.writeFailed a.job "failed" "update_failed")
      ignoring a.faults.startFailed.run
      pure 1
  else pure 1

/-- The machine after an attempt. -/
def update (d : Disk) (a : Attempt) : Disk := (runUpdater a).after d

end Ipms.Agent.Updater
