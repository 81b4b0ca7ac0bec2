import Ipms.Agent.Hgs.Execute
import Ipms.Agent.Hgs.Store

/-
  Ipms.Agent.Hgs.Cycle

  One HGS cycle of the agent: settle and report the retained record, poll,
  apply a release, and execute the offered step unless the fence forbids it.
-/

namespace Ipms.Agent.Hgs

open Ipms.Lib Ipms.ManagementJson

/-- `error("hgs_authority_lost")`. -/
def authorityLost : Exn := ⟨"hgs_authority_lost"⟩

/-- `TransportResult`. -/
structure CycleResult where
  ok : Bool
  message : String
  deriving DecidableEq

/-- What a cycle calls: the provider, the authenticated exchange with the control plane, the
checks before it starts and while it runs, and the clocks. -/
structure Network (W : Type) extends Provider W where
  deviceUri : String
  agentVersion : String
  /-- The lock, the worker, the enrollment and the credentials: a reason to end at once. -/
  awaits : Call W (Option CycleResult)
  exchange : Object → Call W Object
  /-- Not stopping, the same identity, and no lifecycle transition. -/
  standing : Call W Bool
  now : W → Int
  tick : W → Nat

/-- The state of a cycle: the files, the world, the grant's deadline, and the assignments that
were executed, each with the files as they were. -/
structure Station (W : Type) where
  store : Storage
  world : W
  deadline : Nat := 0
  executed : List (Job × Disk) := []

/-- The station in which a cycle starts from the files. -/
def Station.start {W : Type} (disk : Disk) (world : W) : Station W := { store := ⟨disk, []⟩, world }

/-- Code of a cycle. -/
abbrev Work (W α : Type) := Prog (Station W) Exn α

namespace Work

variable {W α : Type}

/-- Call into the world. -/
def call (f : Call W α) : Work W α :=
  Prog.ofFun fun s => ((f s.world).1, { s with world := (f s.world).2 })

def files (p : Files α) : Work W α :=
  Prog.ofFun fun s => ((p.exec s.store).1, { s with store := (p.exec s.store).2 })

/-- The tick count. -/
def tick (net : Network W) : Work W Nat := do pure (net.tick (← get).world)

/-- Run code of the provider state machine on a journal. -/
def onJournal (p : Exec (Station W) α) (j : Journal) : Work W (α × Journal) :=
  Prog.ofFun fun s =>
    ((p.exec (Run.start j s)).1.map (·, (p.exec (Run.start j s)).2.journal),
      (p.exec (Run.start j s)).2.world)

/-! ## Preconditions of the work -/

variable {Q : α → Station W → Prop} {E : Exn → Station W → Prop} {s : Station W}

theorem wp_call (f : Call W α)
    (hq : ∀ a w, f s.world = (.ok a, w) → Q a { s with world := w })
    (he : ∀ e w, f s.world = (.error e, w) → E e { s with world := w }) :
    Prog.wp (call f) Q E s := by
  show Prog.Meets Q E ((f s.world).1, { s with world := (f s.world).2 })
  rcases hf : f s.world with ⟨r, w⟩
  cases r with
  | ok a => exact hq a w hf
  | error e => exact he e w hf

theorem wp_files (p : Files α) :
    Prog.wp (files p) Q E s ↔ Prog.wp p (fun a t => Q a { s with store := t })
      (fun e t => E e { s with store := t }) s.store := by
  show Prog.Meets Q E ((p.exec s.store).1, { s with store := (p.exec s.store).2 }) ↔ _
  unfold Prog.wp
  rcases p.exec s.store with ⟨r, t⟩
  cases r with
  | ok a => rfl
  | error e => rfl

theorem wp_onJournal {Q : α × Journal → Station W → Prop} (p : Exec (Station W) α) (j : Journal) :
    Prog.wp (onJournal p j) Q E s ↔ Prog.wp p (fun a t => Q (a, t.journal) t.world)
      (fun e t => E e t.world) (Run.start j s) := by
  show Prog.Meets Q E ((p.exec (Run.start j s)).1.map (·, (p.exec (Run.start j s)).2.journal),
    (p.exec (Run.start j s)).2.world) ↔ _
  unfold Prog.wp
  rcases p.exec (Run.start j s) with ⟨r, t⟩
  cases r with
  | ok a => rfl
  | error e => rfl

end Work

section
variable {W : Type} (net : Network W)

def resultRequest (record : Journal) : Object :=
  [("device_uri", .str net.deviceUri), ("job_id", .str record.assignment.jobId),
    ("mode", .str "result"), ("plan_digest", .str record.assignment.planDigest),
    ("result", .obj (outcomeMembers record.outcome)), ("type", .str "hgs")]

def pollRequest : Object :=
  [("agent_version", .str net.agentVersion), ("device_uri", .str net.deviceUri),
    ("hgs_provider_version", .int 1), ("mode", .str "poll"), ("type", .str "hgs")]

def claimRequest (assignment : Job) : Object :=
  [("device_uri", .str net.deviceUri), ("job_id", .str assignment.jobId),
    ("mode", .str "claim"), ("plan_digest", .str assignment.planDigest), ("type", .str "hgs")]

def report (record : Journal) : Work W Unit := do
  let _ ← Prog.ofExcept (validateResult (.obj (outcomeMembers record.outcome)))
  let ack ← Work.call (net.exchange (resultRequest net record))
  let accepted ← Prog.ofExcept (flag ack "accepted")
  throwIf (accepted = false) authorityLost

/-! ## Executing an assignment -/

/-- The `claim` callback: the grant must be the assignment itself. -/
def claim (assignment : Job) : Work W Bool := do
  let started ← Work.tick net
  let reply ← Work.call (net.exchange (claimRequest net assignment))
  let grant ← Prog.ofExcept ((Value.obj reply).at! "hgs_job")
  if grant = .null then pure false
  else
    let granted ← Prog.ofExcept (parseJob grant)
    throwIf (granted ≠ assignment) contractInvalid
    modify fun s => { s with deadline := started + 60000 }
    return decide ((← Work.tick net) < started + 60000)

/-- The `authority` callback. -/
def authority : Work W Bool := do
  if !(← Work.call net.standing) then pure false
  else
    let deadline := (← get).deadline
    if deadline = 0 then pure true
    else return decide ((← Work.tick net) < deadline)

/-- The provider and the callbacks of a cycle. -/
def stationHost (assignment : Job) : Host (Station W) where
  inspect j := (Work.call (net.inspect j)).exec
  apply j := (Work.call (net.apply j)).exec
  save record := (Work.files (saveJournal record)).exec
  claim := (claim net assignment).exec
  authority := (authority net).exec
  now s := net.now s.world

/-- Execute an offered assignment that has no receipt. -/
def executeOffered (assignment : Job) : Work W CycleResult := do
  Work.files (saveJournal { assignment })
  modify fun s => { s with deadline := 0, executed := s.executed ++ [(assignment, s.store.disk)] }
  let (_, record) ← Work.onJournal (execute (stationHost net assignment)) { assignment }
  report net record
  pure ⟨true, "The bounded HGS operation receipt was delivered."⟩

/-- Apply the release of a poll response, if it has one. -/
def applyRelease (response : Object) : Work W Unit := do
  match (Value.obj response).get? "hgs_reconciliation_release" with
  | none => pure ()
  | some release =>
    if release = .null then pure ()
    else
      let members ← Prog.ofExcept release.asObj
      Work.files (releaseFence members)

/-- Poll for a step, and execute it unless the fence forbids it. -/
def pollStep : Work W CycleResult := do
  let response ← Work.call (net.exchange (pollRequest net))
  applyRelease response
  let fence ← Work.files loadFence
  let offered ← Prog.ofExcept ((Value.obj response).at! "hgs_job")
  if offered = .null then pure ⟨true, "No HGS operation is pending."⟩
  else
    let assignment ← Prog.ofExcept (parseJob offered)
    throwIf (boundTo assignment net.deviceUri = false) authorityLost
    if fence.any (fun fenced => !permittedWhileFenced fenced assignment) then
      pure ⟨false,
        "Only separately authorized HGS inspection is permitted while reconciliation is open."⟩
    else
      match ← Work.files (loadReceipt assignment) with
      | some completed =>
        report net completed
        pure ⟨true, "The retained HGS receipt was replayed."⟩
      | none => executeOffered net assignment

/-- Recover a record that is not terminal, and report what it came to. -/
def recoverRecord (record : Journal) : Work W Journal := do
  let (_, recovered) ←
    Work.onJournal (recover (stationHost net record.assignment)) record
  report net recovered
  pure recovered

/-- Settle the retained record; a record that still waits ends the cycle. -/
def settleRecord (record : Journal) : Work W (Option CycleResult) := do
  throwIf (boundTo record.assignment net.deviceUri = false) authorityLost
  let record ← if record.state ≠ .terminal then recoverRecord net record else pure record
  if record.state ≠ .terminal then pure (some ⟨true, "HGS recovery evidence was delivered."⟩)
  else
    report net record
    pure none

/-- The try block of `run_hgs_cycle`. -/
def cycle : Work W CycleResult := do
  match ← Work.call net.awaits with
  | some result => pure result
  | none =>
    match ← Work.files loadJournal with
    | none => pollStep net
    | some record =>
      match ← settleRecord net record with
      | some result => pure result
      | none => pollStep net

/-- `run_hgs_cycle`. -/
def runCycle : Work W CycleResult :=
  tryCatch (cycle net) fun _ =>
    pure ⟨false, "The HGS cycle failed; its protected journal was retained."⟩

end

end Ipms.Agent.Hgs
