import Ipms.Agent.Gpo.Journal

/-
  Ipms.Agent.Gpo.Host

  What a run of the agent's GPO code calls: the provider, the journal store,
  the authority check and the single-use approval.  Every call may change the
  world behind it, return anything of its type, or throw anything.  The reply to
  the first claim of a granted job is recorded before anything else: an execution
  grant, a confirmed cancellation, or an uncertain claim.
-/

namespace Ipms.Agent.Gpo

open Ipms.Lib Ipms.ManagementJson Prog

/-- A call into the world `W`. -/
abbrev Call (W α : Type) := W → Except Exn α × W

/-- `managed_provider`. -/
structure Provider (W : Type) where
  inspect : Call W Value
  prepare : Call W Unit
  create : Call W String
  initializeGpo : String → Call W Unit
  adopt : String → Call W Unit
  backup : String → Call W (String × String)
  link : String → Call W Unit
  activate : String → Call W Unit
  deactivate : String → Call W Unit
  remove : String → Call W Unit

/-- The provider with the callbacks of one execution. -/
structure Host (W : Type) extends Provider W where
  save : Journal → Call W Unit
  authority : Call W Bool
  consume : Call W Unit

/-- The provider calls that write the directory. -/
inductive Mutation where
  | create
  | initializeGpo (guid : String)
  | adopt (guid : String)
  | link (guid : String)
  | activate (guid : String)
  | deactivate (guid : String)
  | remove (guid : String)
  deriving DecidableEq

/-- The state of an execution: the journal in memory, the world, whether the write
intent is recorded, and what was saved and which writes were invoked so far. -/
structure Run (W : Type) where
  journal : Journal
  world : W
  writeIntent : Bool := false
  saved : List Journal := []
  mutations : List Mutation := []

/-- Code of the agent over a world. -/
abbrev Exec (W α : Type) := Prog (Run W) Exn α

namespace Exec

variable {W α : Type}

/-- Call into the world. -/
def call (f : Call W α) : Exec W α :=
  Prog.ofFun fun r => ((f r.world).1, { r with world := (f r.world).2 })

/-- Invoke a provider call that writes the directory. -/
def mutate (m : Mutation) (f : Call W α) : Exec W α := do
  modify fun r => { r with mutations := r.mutations ++ [m] }
  call f

/-- Change the journal in memory. -/
def update (f : Journal → Journal) : Exec W Unit :=
  modify fun r => { r with journal := f r.journal }

/-- Pass the journal to `save`. -/
def save (h : Host W) : Exec W Unit := do
  modify fun r => { r with saved := r.saved ++ [r.journal] }
  call (h.save (← get).journal)

/-- The journal in memory. -/
def journal : Exec W Journal := do pure (← get).journal

/-! ## Preconditions of the calls -/

variable {Q : α → Run W → Prop} {E : Exn → Run W → Prop} {s : Run W}

theorem wp_call (f : Call W α) :
    wp (call f) Q E s ↔
      Meets Q E ((f s.world).1, { s with world := (f s.world).2 }) := Iff.rfl

theorem wp_call_of (f : Call W α) (hq : ∀ a w, Q a { s with world := w })
    (he : ∀ e w, E e { s with world := w }) : wp (call f) Q E s := by
  rw [wp_call]
  rcases f s.world with ⟨r, w⟩
  cases r with
  | ok a => exact hq a w
  | error e => exact he e w

@[simp] theorem wp_update {Q : PUnit → Run W → Prop} (f : Journal → Journal) :
    wp (update f : Exec W Unit) Q E s ↔ Q ⟨⟩ { s with journal := f s.journal } := Iff.rfl

@[simp] theorem wp_journal {Q : Journal → Run W → Prop} :
    wp (journal : Exec W Journal) Q E s ↔ Q s.journal s := Iff.rfl

@[simp] theorem wp_mutate (m : Mutation) (f : Call W α) :
    wp (mutate m f) Q E s ↔
      wp (call f) Q E { s with mutations := s.mutations ++ [m] } := by
  simp only [mutate, wp_bind, wp_modify]

@[simp] theorem wp_save {Q : Unit → Run W → Prop} (h : Host W) :
    wp (save h) Q E s ↔
      wp (call (h.save s.journal)) Q E { s with saved := s.saved ++ [s.journal] } := by
  simp only [save, wp_bind, wp_modify, wp_get]

theorem keeps_call {I : Run W → Prop} (hI : ∀ s w, I s → I { s with world := w }) (f : Call W α) :
    Keeps I (call f) := fun _ h => wp_call_of f (fun _ w => hI _ w h) (fun _ w => hI _ w h)

theorem save_keeps_journal (h : Host W) {j : Journal} :
    Keeps (fun s : Run W => s.journal = j) (save h) := by
  refine Keeps.bind (keeps_modify fun _ hs => hs) fun _ => ?_
  exact Keeps.bind keeps_get fun _ => keeps_call (fun _ _ hs => hs) _

theorem exec_call_eq_ok {f : Call W α} {a : α} {s' : Run W} :
    exec (call f) s = (.ok a, s') ↔
      ∃ w, f s.world = (.ok a, w) ∧ s' = { s with world := w } := by
  show ((f s.world).1, { s with world := (f s.world).2 }) = (.ok a, s') ↔ _
  constructor
  · intro h
    obtain ⟨h1, h2⟩ := Prod.ext_iff.mp h
    exact ⟨(f s.world).2, Prod.ext h1 rfl, h2.symm⟩
  · rintro ⟨w, hf, rfl⟩
    rw [hf]

theorem exec_save {h : Host W} {w : W} (hsave : h.save s.journal s.world = (.ok (), w)) :
    exec (save h) s = (.ok (), { s with world := w, saved := s.saved ++ [s.journal] }) := by
  refine exec_bind_eq_ok.mpr ⟨⟨⟩, _, rfl, exec_bind_eq_ok.mpr ⟨_, _, rfl, ?_⟩⟩
  exact exec_call_eq_ok.mpr ⟨w, hsave, rfl⟩

end Exec

/-- The state in which an execution of a journal starts. -/
def Run.start {W : Type} (journal : Journal) (world : W) : Run W := { journal, world }

/-! ## The reply to a claim -/

/-- The journal error. -/
def invalidJournal : Exn := operationError "gpo_journal_invalid"

/-- The number of members of an object, nothing for other values. -/
def objectSize : Value → Option Nat
  | .obj members => some members.length
  | _ => none

/-- The checks of a claim's reply before anything is recorded: whether the job is authorized,
and in which mode it ends here. -/
def checkClaim (catalog : Catalog) (j : Journal) (reply : Value) (deadline : UInt64)
    (expectedApproval : Value) : Except Exn (Bool × String) := do
  throwIf (j.state ≠ .granted ∨ j.grantDeadlineTick ≠ 0 ∨ j.gpoGuid ≠ "" ∨ j.result ≠ none ∨
    j.portalApproval ≠ none ∨ deadline = 0) invalidJournal
  let authorized ← (← reply.at! "authorized").asBool
  let mode ← (← reply.at! "mode").asStr
  let portal := decide (j.assignment.schema ≥ 2)
  throwIf (j.assignment.inspection = true) invalidJob
  throwIf (objectSize reply ≠ some (if portal && authorized && mode == "execute" then 4 else 3))
    invalidJob
  let job ← parseJob catalog (← reply.at! "job")
  throwIf (job ≠ j.assignment) invalidJob
  throwIf (!portal ∧ expectedApproval ≠ .null) (operationError "gpo_local_approval_invalid")
  pure (authorized, mode)

/-- The approval a grant leaves in the journal: for a portal job the expected one, still
current, in place of none. -/
def grantApproval (j : Journal) (reply : Value) (expectedApproval : Value) (now : Time) :
    Except Exn (Option Approval) :=
  if j.assignment.schema ≥ 2 then do
    let approved ← parsePortalApproval (← reply.at! "approval") j.assignment j.deviceUri
    throwIf (approved.toJson ≠ expectedApproval ∨
      portalApprovalCurrent approved j.assignment j.deviceUri now = false) invalidApproval
    pure (some approved)
  else pure j.portalApproval

section
variable {W : Type} (h : Host W)

/-- An execution grant with its deadline. -/
def recordGrant (j : Journal) (reply : Value) (deadline : UInt64) (expectedApproval : Value)
    (now : Time) : Exec W Bool := do
  let approval ← Prog.ofExcept (grantApproval j reply expectedApproval now)
  Exec.update fun j => { j with portalApproval := approval, grantDeadlineTick := deadline.toNat }
  Exec.save h
  pure true

/-- A claim that ends the job here: its phase, status and code. -/
def recordRefusal (phase : Phase) (status : Status) (code : String) : Exec W Bool := do
  Exec.update fun j => { j with state := phase }
  let r ← Prog.ofExcept (result status code)
  Exec.update fun j => { j with result := some r }
  Exec.save h
  pure false

/-- `record_claim`: permitted only right after this process requested its first claim. -/
def recordClaim (catalog : Catalog) (reply : Value) (deadline : UInt64) (expectedApproval : Value)
    (now : Time) : Exec W Bool := do
  let j ← Exec.journal
  let (authorized, mode) ← Prog.ofExcept (checkClaim catalog j reply deadline expectedApproval)
  if authorized && mode == "execute" then recordGrant h j reply deadline expectedApproval now
  else if !authorized && mode == "cancelled" then
    recordRefusal h .terminal .failed "gpo_authority_expired"
  else recordRefusal h .reconciliation .requiresReconciliation "gpo_claim_uncertain"

end

end Ipms.Agent.Gpo
