import Ipms.Lib.Throwing
import Ipms.Agent.Hgs.Journal

/-
  Ipms.Agent.Hgs.Store

  The protected files of the agent's HGS directory: the current journal, the
  receipts of finished steps, the fence of a step that asks for reconciliation
  and the releases.  A file holds the document that was serialized into it.
-/

namespace Ipms.Agent.Hgs

open Ipms.Lib Ipms.ManagementJson

/-- `fail()`. -/
def providerFailed : Exn := ⟨"hgs_provider_failed"⟩

/-- The files: `current.json`, `receipts/<job_id>.json`, `fence.json`, `releases/<job_id>.json`. -/
structure Disk where
  current : Option Value := none
  receipts : String → Option Value := fun _ => none
  fence : Option Value := none
  releases : String → Option Value := fun _ => none

/-- The files and every state they went through, the latest last. -/
structure Storage where
  disk : Disk
  history : List Disk := []

/-- Code that reads and writes the files. -/
abbrev Files (α : Type) := Prog Storage Exn α

namespace Files

/-- The files as they are. -/
def disk : Files Disk := do pure (← get).disk

/-- One complete write of a file. -/
def write (f : Disk → Disk) : Files Unit :=
  modify fun s => { disk := f s.disk, history := s.history ++ [f s.disk] }

variable {α : Type} {E : Exn → Storage → Prop} {s : Storage}

@[simp] theorem wp_disk {Q : Disk → Storage → Prop} : Prog.wp disk Q E s ↔ Q s.disk s := Iff.rfl

@[simp] theorem exec_disk : Prog.exec disk s = (.ok s.disk, s) := rfl

@[simp] theorem wp_write {Q : Unit → Storage → Prop} (f : Disk → Disk) :
    Prog.wp (write f) Q E s ↔ Q ⟨⟩ ⟨f s.disk, s.history ++ [f s.disk]⟩ := Iff.rfl

end Files

/-! ## The writes -/

/-- Replace `current.json`. -/
def Disk.withCurrent (d : Disk) (v : Value) : Disk := { d with current := some v }

/-- Create the receipt of a job. -/
def Disk.withReceipt (d : Disk) (jobId : String) (v : Value) : Disk :=
  { d with receipts := Function.update d.receipts jobId (some v) }

/-- Replace `fence.json`. -/
def Disk.withFence (d : Disk) (v : Value) : Disk := { d with fence := some v }

/-- Create the release of a job. -/
def Disk.withRelease (d : Disk) (jobId : String) (v : Value) : Disk :=
  { d with releases := Function.update d.releases jobId (some v) }

/-! ## Reading and writing journals -/

/-- `load_hgs_receipt`. -/
def loadReceipt (assignment : Job) : Files (Option Journal) := do
  match (← Files.disk).receipts assignment.jobId with
  | none => pure none
  | some document =>
    let record ← Prog.ofExcept (parseJournal document)
    throwIf (record.assignment ≠ assignment ∨ record.state ≠ .terminal) providerFailed
    pure (some record)

/-- The document of the release of a journal's step. -/
def Journal.release (j : Journal) : Value :=
  .obj (releaseMembers j.assignment.jobId j.assignment.planDigest)

/-- `load_hgs_fence`. -/
def loadFence : Files (Option Journal) := do
  let disk ← Files.disk
  match disk.fence with
  | none => pure none
  | some document =>
    let record ← Prog.ofExcept (parseJournal document)
    throwIf (record.uncertain = false) providerFailed
    match disk.releases record.assignment.jobId with
    | none => pure (some record)
    | some release =>
      throwIf (release ≠ record.release) providerFailed
      pure none

/-- Create the receipt of a terminal journal, or see that it is the one there is. -/
def saveReceipt (record : Journal) : Files Unit := do
  let document := journalDocument record
  match (← Files.disk).receipts record.assignment.jobId with
  | some existing => throwIf (existing ≠ document) providerFailed
  | none => Files.write fun d => d.withReceipt record.assignment.jobId document

/-- Raise the fence of a journal, unless that of another step is open. -/
def saveFence (record : Journal) : Files Unit := do
  let previous ← loadFence
  throwIf (previous.any (fun fenced => decide (fenced.assignment ≠ record.assignment)) = true)
    providerFailed
  Files.write fun d => d.withFence (journalDocument record)

/-- `save_hgs_journal`. -/
def saveJournal (record : Journal) : Files Unit := do
  let document := journalDocument record
  let _ ← Prog.ofExcept (parseJournal document)
  if record.state = .terminal then
    saveReceipt record
    if record.uncertain then saveFence record
  Files.write fun d => d.withCurrent document

/-- `load_hgs_journal`. -/
def loadJournal : Files (Option Journal) := do
  match (← Files.disk).current with
  | none => pure none
  | some document =>
    let record ← Prog.ofExcept (parseJournal document)
    match ← loadReceipt record.assignment with
    | none => pure (some record)
    | some receipt =>
      if receipt.uncertain then saveJournal receipt
      pure (some receipt)

/-- `release_hgs_fence`. -/
def releaseFence (release : Object) : Files Unit := do
  throwIf (release.length ≠ 2 ∨ ((Value.obj release).get? "job_id").isNone ∨
    ((Value.obj release).get? "plan_digest").isNone) providerFailed
  let jobId ← Prog.ofExcept (text release "job_id")
  throwIf (Gpo.validUuid jobId = false) providerFailed
  match (← Files.disk).releases jobId with
  | some existing => throwIf (existing ≠ .obj release) providerFailed
  | none =>
    match ← loadFence with
    | none => pure ()
    | some fence =>
      if releaseMatches fence release then
        Files.write fun d => d.withRelease jobId (.obj release)

end Ipms.Agent.Hgs
