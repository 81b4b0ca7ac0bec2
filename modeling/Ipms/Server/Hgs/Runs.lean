import Ipms.Server.Hgs.Effects
import Ipms.Server.Hgs.ObservationAgreement

/-
  Ipms.Server.Hgs.Runs

  Runs of the control plane: every plan of a reachable state is sound, so its
  steps follow the script of its nodes one after another.
-/

namespace Ipms.Server.Hgs

open Ipms.Lib Ipms.ManagementJson
open Ipms.Agent.Hgs (Operation Observation)

section
variable {runtime : Runtime} {uuid : Nat → String} {s s' : ControlPlane} {a : Action}
  {p q : HgsDeployment}

/-! ## One step -/

theorem planStep_sound (hp : Sound p) (h : PlanStep runtime uuid s a p q) : Kept p q ∧ Sound q := by
  cases h with
  | served hchange _ => exact ⟨hchange.kept, hchange.sound⟩
  | claimed job node hjob hunclaimed _ _ _ hq =>
    rw [hq]
    exact ⟨rfl, (handOut_sound (k := { job with status := .running, claimedAt := some s.now }) hp
      hjob ⟨rfl, rfl, rfl, rfl, rfl, rfl⟩ rfl hunclaimed (.inr rfl)).1⟩
  | fenced code _ hq =>
    rw [hq]
    exact ⟨rfl, (fence_fenced hp s.now code).sound⟩
  | reported code hchange _ _ => exact ⟨Kept.trans rfl hchange.kept, hchange.sound⟩
  | resolved tenant user document job inspection _ hchange _ =>
    exact ⟨hchange.kept, hchange.sound⟩

theorem Effect.row (h : Effect runtime uuid s a s')
    (hq : q ∈ s'.plans.rows) :
    q ∈ s.plans.rows ∨ Created s q ∨ ∃ p ∈ s.plans.rows, PlanStep runtime uuid s a p q := by
  cases h with
  | idle hplans _ =>
    rw [hplans] at hq
    exact .inl hq
  | created new hnew hrows _ =>
    rw [hrows] at hq
    rcases List.mem_cons.mp hq with rfl | hq
    · exact .inr (.inl hnew)
    · exact .inl hq
  | saved p new hp hstep hplans _ =>
    rw [hplans] at hq
    rcases Table.mem_save.mp hq with ⟨hq, _⟩ | ⟨rfl, _⟩
    · exact .inl hq
    · exact .inr (.inr ⟨p, hp, hstep⟩)

theorem Effect.kept_row (hs : ∀ p ∈ s.plans.rows, Sound p) (h : Effect runtime uuid s a s')
    (hp : p ∈ s.plans.rows) : ∃ q ∈ s'.plans.rows, q.id = p.id := by
  cases h with
  | idle hplans _ => exact ⟨p, by rw [hplans]; exact hp, rfl⟩
  | created new _ hrows _ => exact ⟨p, by rw [hrows]; exact List.mem_cons_of_mem _ hp, rfl⟩
  | saved p' new hp' hstep hplans _ =>
    have hid : new.id = p'.id := (planStep_sound (hs p' hp') hstep).1.id
    rw [hplans]
    by_cases hsame : p.id = new.id
    · exact ⟨new, Table.mem_save.mpr (.inr ⟨rfl, p', hp', hid.symm⟩), hsame.symm⟩
    · exact ⟨p, Table.mem_save.mpr (.inl ⟨hp, hsame⟩), rfl⟩

theorem Effect.row_of (hs : ∀ p ∈ s.plans.rows, Sound p) (h : Effect runtime uuid s a s')
    (hp : p ∈ s.plans.rows) (hq : q ∈ s'.plans.rows) (hid : q.id = p.id) :
    q = p ∨ PlanStep runtime uuid s a p q := by
  rcases h.row hq with hold | hnew | ⟨p', hp', hstep⟩
  · exact .inl (s.plans.row_unique hold hp hid)
  · exact absurd hid.symm (hnew.fresh p hp)
  · have hsame := (planStep_sound (hs p' hp') hstep).1.id
    rw [s.plans.row_unique hp hp' (hid.symm.trans hsame)]
    exact .inr hstep

theorem step_sound {e : Event} (hs : ∀ p ∈ s.plans.rows, Sound p) (h : Step runtime s e s') :
    ∀ q ∈ s'.plans.rows, Sound q := by
  intro q hq
  rcases (step_does hs h).1.row hq with hold | hnew | ⟨p, hp, hstep⟩
  · exact hs q hold
  · exact hnew.sound
  · exact (planStep_sound (hs p hp) hstep).2

/-- A control plane before its first plan. -/
def Blank (s : ControlPlane) : Prop := s.plans.rows = [] ∧ s.withdrawals = []

/-- The states of the runs that start before the first plan. -/
def Reachable (runtime : Runtime) (s : ControlPlane) : Prop :=
  ∃ blank events, Blank blank ∧ Run (Step runtime) blank events s

theorem Reachable.sound (hs : Reachable runtime s) : ∀ p ∈ s.plans.rows, Sound p := by
  obtain ⟨blank, events, hblank, hrun⟩ := hs
  refine hrun.preserves (I := fun s => ∀ p ∈ s.plans.rows, Sound p)
    (fun _ _ _ hstep hs => step_sound hs hstep) fun p hp => ?_
  rw [hblank.1] at hp
  cases hp

/-! ## The order of the steps -/

theorem Sound.one_active (hp : Sound p) : p.steps.countP (·.status.active) ≤ 1 := by
  by_cases hnone : p.steps = []
  · rw [hnone]
    exact Nat.zero_le 1
  · obtain ⟨done, j, hdone⟩ := steps_concat hnone
    have hprogress := hp.progress
    rw [hdone] at hprogress
    have hzero : done.countP (·.status.active) = 0 := by
      rw [List.countP_eq_zero]
      intro i hi
      rw [(progress_concat.mp hprogress).2.1 i hi]
      decide
    rw [hdone, List.countP_append, hzero, Nat.zero_add]
    exact List.countP_le_length

theorem Sound.all_succeeded (hp : Sound p) (hs : p.status = .succeeded) :
    p.steps.map HgsJob.position = script p.nodes ∧ ∀ j ∈ p.steps, j.status = .succeeded := by
  have hprogress := hp.progress
  have hlength := hprogress.finished hs
  refine ⟨hprogress.script.eq_of_length (by rw [List.length_map, hlength]), fun j hj => ?_⟩
  by_contra hopen
  obtain ⟨done, hdone⟩ := hprogress.last hj hopen
  rw [hdone] at hprogress
  have hconsistent := (progress_concat.mp hprogress).2.2.2.1
  rw [hs] at hconsistent
  exact hopen (consistent_succeeded _ _ hconsistent)

/-- The steps of a plan follow the script of its nodes, in their ordinal order, without a gap or a
repetition; at most one of them is active; and a plan has succeeded only when every step of every
node has a job that succeeded. -/
theorem steps_follow_script (hs : Reachable runtime s) (hp : p ∈ s.plans.rows) :
    Ordered p.nodes ∧ p.steps.map HgsJob.position <+: script p.nodes ∧
      (∀ j ∈ p.steps.dropLast, j.status = .succeeded) ∧
      p.steps.countP (·.status.active) ≤ 1 ∧
      (p.status = .succeeded → ∀ n ∈ p.nodes, ∀ i operation,
        (nodeSteps n.role)[i]? = some operation →
          ∃ j ∈ p.jobs, j.position = (n.id, operation, i) ∧ j.status = .succeeded) := by
  have hsound := hs.sound p hp
  refine ⟨hsound.rows.ordered, hsound.progress.script, hsound.progress.settled, hsound.one_active,
    fun hsucceeded n hn i operation hoperation => ?_⟩
  obtain ⟨hscript, hall⟩ := hsound.all_succeeded hsucceeded
  obtain ⟨m, hm, hget⟩ := List.mem_iff_getElem.mp hn
  have hposition := script_next (by rw [List.getElem?_eq_getElem hm, hget]) hoperation
  rw [← hscript] at hposition
  obtain ⟨j, hj, hjob⟩ := List.mem_map.mp (List.mem_of_getElem? hposition)
  exact ⟨j, job_of_step hj, hjob, hall j hj⟩

end

/-- Perform actions one after another, each with the identifiers it gets. -/
def performAll (runtime : Runtime) :
    List (Action × (Nat → String)) → ControlPlane → Except ServerError (List Event × ControlPlane)
  | [], s => .ok ([], s)
  | (action, uuid) :: rest, s => do
    let (reply, s) ← (perform runtime uuid action).exec s
    let (events, s) ← performAll runtime rest s
    return (⟨action, uuid, reply⟩ :: events, s)

theorem run_of_performAll {runtime : Runtime} {actions : List (Action × (Nat → String))}
    {s s' : ControlPlane} {events : List Event}
    (h : performAll runtime actions s = .ok (events, s')) : Run (Step runtime) s events s' := by
  induction actions generalizing s events with
  | nil =>
    cases h
    exact .nil _
  | cons head rest ih =>
    obtain ⟨⟨reply, t⟩, hstep, h⟩ := bind_eq_ok.mp h
    obtain ⟨⟨later, u⟩, hrest, h⟩ := bind_eq_ok.mp h
    cases pure_eq_ok.mp h
    exact .cons (l := ⟨head.1, head.2, reply⟩) hstep (ih hrest)

/-! ## A sample plan -/

/-- A plan of one node. -/
def samplePlan (name : String) : Value :=
  .obj [("name", .str name), ("profile", .str "vtpm"), ("attestation_mode", .str "host_key"),
    ("domain_name", .str "hgs.lab"), ("service_name", .str "hgs"),
    ("feature_source", .str "C:\\sxs"),
    ("signing_thumbprint", .str (String.ofList (List.replicate 40 'A'))),
    ("encryption_thumbprint", .str (String.ofList (List.replicate 40 'B'))),
    ("dsrm_secret_ref", .str "dsrm"), ("join_secret_ref", .str ""), ("allow_reboot", .bool true),
    ("primary_server", .str ""), ("node_ids", .arr [.str "00000000-0000-4000-8000-000000000001"])]

/-- The hashes of the contents of the plans that are created first and third in a run. -/
def sampleDigest (v : Value) : String :=
  if v.str? "name" = some "first" then
    "4ce804aab0b382528d88ec68ff2f102192570ae99c03a3fd8e71bd28a92c8003"
  else "27c0137163260647131f25f6f0e623194d227efd97c8048f92c74e04a6124ff5"

def sampleRuntime : Runtime where
  unicode := asciiTables
  digest := sampleDigest
  usableAddress _ := true

def sampleEnrollment : Gpo.AgentEnrollment where
  id := "agent"
  tenant := "tenant"
  deviceUri := "uri"
  platform := .windows
  status := .active
  lastHeartbeatAt := some 0

def sampleDirectory : Directory where
  tenants := [⟨"tenant", .active, .hgs⟩]
  users := [⟨7, true, false, false, false⟩]
  memberships := [⟨"tenant", 7, .tenantAdmin, true, none⟩]
  enrollments := [sampleEnrollment]
  systems := [⟨"00000000-0000-4000-8000-000000000001", "tenant", "uri", "agent", "server", "20348",
    "host", "0.2.49"⟩]

def sampleBlank : ControlPlane where
  now := 0
  directory := sampleDirectory

/-- The identifiers of one action of a sample run. -/
def sampleUuids (action index : Nat) : String :=
  "00000000-0000-4000-8000-0000000" ++ String.ofList [Char.ofNat (48 + action / 10),
    Char.ofNat (48 + action % 10), '0', '0', Char.ofNat (48 + index)]

/-- Each action of a sample run with its identifiers. -/
def sampleActions (actions : List Action) : List (Action × (Nat → String)) :=
  actions.zipIdx.map fun (action, index) => (action, sampleUuids index)

def sampleExchange (mode : String) (members : List (String × Value)) : Action :=
  .exchange sampleEnrollment (.obj ([("type", .str "hgs"), ("device_uri", .str "uri"),
    ("mode", .str mode)] ++ members))

def samplePoll : Action :=
  sampleExchange "poll" [("agent_version", .str "0.2.49"), ("hgs_provider_version", .int 1)]

def sampleClaim (jobId planDigest : String) : Action :=
  sampleExchange "claim" [("job_id", .str jobId), ("plan_digest", .str planDigest)]

def sampleResult (jobId planDigest status code : String) (observation : Value) : Action :=
  sampleExchange "result" [("job_id", .str jobId), ("plan_digest", .str planDigest),
    ("result", .obj [("status", .str status), ("result_code", .str code),
      ("observation", observation)])]

/-- A node before its plan. -/
def sampleFresh : Observation where
  osBuild := "20348"
  isServer := true
  computerName := "host"
  domainName := "WORKGROUP"
  domainJoined := false
  domainRole := 2
  roleInstalled := false
  serviceInitialized := false
  attestationMode := "none"
  signingCertificateReady := true
  encryptionCertificateReady := true
  featureSourceReady := true
  dsrmSecretReady := true
  joinSecretReady := false
  rebootPending := false
  bootId := "1"
  serviceHealthy := false
  keyAccessVerified := false
  modeSupported := true
  offlineSourcePolicyReady := true
  configuredServiceName := ""
  configuredSigningThumbprint := ""
  configuredEncryptionThumbprint := ""

/-- A plan is created, inspected and approved, and its first step is offered and claimed. -/
def sampleRun : List Action :=
  let digest := "4ce804aab0b382528d88ec68ff2f102192570ae99c03a3fd8e71bd28a92c8003"
  [.createPlan "tenant" 7 (samplePlan "first"), .act "tenant" 7 (sampleUuids 0 0) .inspect,
    sampleClaim (sampleUuids 1 0) digest,
    sampleResult (sampleUuids 1 0) digest "succeeded" "hgs_inspected"
      (observationDocument sampleFresh),
    .act "tenant" 7 (sampleUuids 0 0)
      (.execute (.obj [("plan_digest", .str digest), ("confirm", .bool true)])),
    samplePoll, sampleClaim (sampleUuids 4 1) digest]

/-- A run on given actions that ends in plans with a property. -/
def endsIn (runtime : Runtime) (actions : List Action) (s : ControlPlane)
    (f : List HgsDeployment → Bool) : Bool :=
  match performAll runtime (sampleActions actions) s with
  | .ok (_, s') => f s'.plans.rows
  | .error _ => false

theorem reachable_of_endsIn {runtime : Runtime} {actions : List Action} {s : ControlPlane}
    {f : List HgsDeployment → Bool} (hs : Blank s) (h : endsIn runtime actions s f = true) :
    ∃ s', Reachable runtime s' ∧ f s'.plans.rows = true := by
  unfold endsIn at h
  split at h
  · rename_i events s' hrun
    exact ⟨s', ⟨s, events, hs, run_of_performAll hrun⟩, h⟩
  · cases h

/-- A plan whose first step runs. -/
theorem steps_follow_script_sample : ∃ s, Reachable sampleRuntime s ∧ ∃ p ∈ s.plans.rows,
    p.steps.map (·.status) = [.running] ∧ Ordered p.nodes ∧
      p.steps.map HgsJob.position <+: script p.nodes ∧ p.steps.countP (·.status.active) ≤ 1 := by
  have hends : endsIn sampleRuntime sampleRun sampleBlank
      (·.any fun p => p.steps.map (·.status) == [.running]) = true := by decide +kernel
  obtain ⟨s, hs, hplans⟩ := reachable_of_endsIn ⟨rfl, rfl⟩ hends
  obtain ⟨p, hp, hf⟩ := List.any_eq_true.mp hplans
  have h := steps_follow_script hs hp
  exact ⟨s, hs, p, hp, beq_iff_eq.mp hf, h.1, h.2.1, h.2.2.2.1⟩

end Ipms.Server.Hgs
