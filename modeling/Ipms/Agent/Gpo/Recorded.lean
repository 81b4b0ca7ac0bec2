import Ipms.Agent.Gpo.Reload

/-
  Ipms.Agent.Gpo.Recorded

  When an execution whose saves succeed returns with its outcome recorded.  The
  catch block builds its result from the policy the journal carries, so it only
  throws itself when a create has put a GUID there that no result may name.
-/

namespace Ipms.Agent.Gpo

open Ipms.Lib Ipms.ManagementJson Exec Run
open Prog (Keeps wp wp_bind wp_get wp_ite wp_modify wp_mono wp_ofExcept wp_of_exec_ok wp_throwIf)

variable {j : ManagedJob}

section
variable {W : Type} {catalog : Catalog} {h : Host W}

/-- Every save succeeds. -/
def Host.SavesAll (h : Host W) : Prop := ∀ j w, ∃ w', h.save j w = (.ok (), w')

/-- The last journal saved carries an outcome. -/
def LastCompleted (s : Run W) : Prop :=
  ∃ j, s.saved.getLast? = some j ∧ j.state.completed = true

/-- The policy the catch block would name can be named. -/
def Recoverable (s : Run W) : Prop :=
  s.writeIntent = true → s.journal.gpoGuid = "" ∨ usableGuid s.journal.gpoGuid = true

/-! ## What the parts of an execution keep -/

variable {s : Run W}

theorem recoverable_of_unwritten (hs : s.writeIntent = false) : Recoverable s :=
  fun hi => absurd (hs.symm.trans hi) (by decide)

theorem save_of_savesAll (hsave : h.SavesAll) {Q : Unit → Run W → Prop} {E : Exn → Run W → Prop}
    (hq : ∀ w, Q () { s with world := w, saved := s.saved ++ [s.journal] }) :
    (save h).wp Q E s := by
  obtain ⟨w, hw⟩ := hsave s.journal s.world
  exact (wp_of_exec_ok (exec_save hw)).mpr (hq w)

theorem recordFailure_completed (hsave : h.SavesAll) {phase : Phase}
    (hphase : phase.completed = true) (r : Receipt) (s : Run W) :
    (recordFailure h phase r).wp (fun _ => LastCompleted) (fun _ _ => False) s := by
  unfold recordFailure
  rw [wp_bind, wp_update, wp_bind]
  exact save_of_savesAll hsave fun w => ⟨_, List.getLast?_concat, hphase⟩

variable {guid : String}

theorem failureResult_isOk {status : Status} (hstatus : status = .failed ∨
    status = .requiresReconciliation) (e : Exn)
    (hguid : guid = "" ∨ status = .requiresReconciliation ∧ usableGuid guid = true) :
    ∃ r, failureResult status e guid = .ok r := by
  unfold failureResult
  cases result status e.what guid with
  | ok r => exact ⟨r, rfl⟩
  | error _ =>
    refine ⟨_, result_eq_ok.mpr ⟨rfl, ?_⟩⟩
    have hknown : knownCode "gpo_provider_failed" = true := by decide
    rcases hguid with rfl | ⟨rfl, hu⟩
    · rcases hstatus with rfl | rfl <;> simp [Receipt.valid, hknown, successCodes]
    · simp only [usableGuid, Bool.and_eq_true] at hu
      have hne := validUuid_ne_empty hu.1
      simp [Receipt.valid, hknown, successCodes, hne, hu.1, hu.2]

theorem executeFailed_completed (hsave : h.SavesAll) (e : Exn) (hs : Recoverable s) :
    (executeFailed h e).wp (fun _ => LastCompleted) (fun _ _ => False) s := by
  unfold executeFailed
  rw [wp_bind, wp_get]
  cases hi : s.writeIntent with
  | true =>
    obtain ⟨r, hr⟩ := failureResult_isOk (.inr rfl) e ((hs hi).imp id fun hu => ⟨rfl, hu⟩)
    simp only [if_true, hr, wp_bind, Prog.wp_ofExcept_ok]
    exact recordFailure_completed hsave rfl r s
  | false =>
    obtain ⟨r, hr⟩ := failureResult_isOk (.inl rfl) e (.inl rfl)
    simp only [Bool.false_eq_true, if_false, hr, wp_bind, Prog.wp_ofExcept_ok]
    exact recordFailure_completed hsave rfl r s

theorem terminal_completed (hsave : h.SavesAll) (j : ManagedJob) (status : Status) (code : String)
    {state : Snapshot} (hstate : state.valid = true) (backup : String × String) (s : Run W) :
    (terminal h j status code state backup).wp (fun _ => LastCompleted) (fun _ => Recoverable)
      s := by
  unfold terminal
  rw [wp_bind, wp_update, wp_bind, wp_ofExcept]
  refine ⟨fun r _ => ?_, fun _ _ _ => Snapshot.guid_usable hstate⟩
  rw [wp_bind, wp_update, wp_bind]
  exact save_of_savesAll hsave fun w => ⟨_, List.getLast?_concat, rfl⟩

/-- The policy in the journal, once the write intent is recorded. -/
def Named (guid : String) (s : Run W) : Prop := s.writeIntent = true ∧ s.journal.gpoGuid = guid

theorem worldFree_named {guid : String} : WorldFree (W := W) (Named guid) := fun _ _ hs => hs

theorem keeps_named_save : Keeps (Named guid) (save h) := by
  refine Keeps.bind (Prog.keeps_modify fun _ hs => hs) fun _ => ?_
  exact Keeps.bind Prog.keeps_get fun _ => keeps_call worldFree_named _

theorem keeps_named_mutate {α : Type} (m : Mutation) (f : Call W α) :
    Keeps (Named guid) (mutate m f) :=
  Keeps.bind (Prog.keeps_modify fun _ hs => hs) fun _ => keeps_call worldFree_named _

theorem Named.recoverable (hs : Named guid s) (hguid : guid = "" ∨ usableGuid guid = true) :
    Recoverable s := fun _ => hs.2 ▸ hguid

theorem writePolicy_named (j : ManagedJob) (adoption : Bool) (state : Snapshot) (guid : String) :
    Keeps (Named guid) (writePolicy h j adoption state guid) := by
  have himport : Keeps (Named guid) (importContent h j adoption guid) :=
    Keeps.ite (keeps_named_mutate _ _)
      (Keeps.ite (keeps_named_mutate _ _) (Prog.keeps_pure _))
  unfold writePolicy
  split
  · exact himport
  · refine Keeps.bind himport fun _ => ?_
    refine Keeps.bind (keeps_call worldFree_named _) fun _ => ?_
    refine Keeps.bind (Prog.keeps_ofExcept _) fun _ => ?_
    refine Keeps.bind keeps_named_save fun _ => ?_
    exact Keeps.bind (worldFree_named.requireAuthority h) fun _ => keeps_named_mutate _ _
  all_goals exact keeps_named_mutate _ _

/-- The end of a write is recorded, or throws with a policy that can be named. -/
theorem finish_completed (hsave : h.SavesAll) (j : ManagedJob) (state : Snapshot)
    (husable : usableGuid guid = true) (backup : String × String) (hs : Named guid s) :
    (finish catalog h j state guid backup).wp (fun _ => LastCompleted) (fun _ => Recoverable) s := by
  have hrec : ∀ {t : Run W}, Named guid t → Recoverable t := fun ht => ht.recoverable (.inr husable)
  have hverified : ∀ (status : Status) (code : String) (after : Value) (t : Run W), Named guid t →
      (do
        let s ← Prog.ofExcept (postconditions catalog j state after)
        terminal h j status code s backup : Exec W Receipt).wp (fun _ => LastCompleted)
        (fun _ => Recoverable) t := by
    intro status code after t ht
    rw [wp_bind, wp_ofExcept]
    refine ⟨fun s hok => ?_, fun _ _ => hrec ht⟩
    have hvalid := (validSnapshot_eq_some.mp (postconditions_eq_ok catalog hok).2).2
    exact terminal_completed hsave j status code hvalid backup t
  have hchecked : ∀ (x : Except Exn Unit) (status : Status) (code : String) (after : Value)
      (t : Run W), Named guid t →
      (do
        Prog.ofExcept x
        let s ← Prog.ofExcept (postconditions catalog j state after)
        terminal h j status code s backup : Exec W Receipt).wp (fun _ => LastCompleted)
        (fun _ => Recoverable) t := by
    intro x status code after t ht
    rw [wp_bind, wp_ofExcept]
    exact ⟨fun _ _ => hverified status code after t ht, fun _ _ => hrec ht⟩
  unfold finish
  rw [wp_bind]
  refine wp_mono (keeps_call worldFree_named _ s hs) (fun after t ht => ?_)
    (fun _ _ ht => hrec ht)
  split
  · rw [wp_bind, wp_ofExcept]
    refine ⟨fun _ _ => ?_, fun _ _ => hrec ht⟩
    rw [wp_bind, wp_throwIf]
    exact ⟨fun _ => hrec ht, fun _ => hverified _ _ _ t ht⟩
  all_goals exact hchecked _ _ _ _ t ht

/-! ## The GUID of a new policy -/

/-- From a journal in the creating phase, authority is still given and the create returns a GUID
that is neither empty nor one a result may name. -/
def UnusableCreate (h : Host W) (w : W) (guid : String) (w' : W) : Prop :=
  ∃ w₁, h.authority w = (.ok true, w₁) ∧ h.create w₁ = (.ok guid, w') ∧ guid ≠ "" ∧
    usableGuid guid = false

/-- The GUID is in the journal before it is checked, and the catch block cannot name it. -/
def CreatesUnusable (catalog : Catalog) (h : Host W) (journal : Journal) (j : ManagedJob) (w : W) :
    Prop :=
  journal.state = .granted ∧ j.gpoGuid = "" ∧ ∃ s backup w₁ w₂ guid w₃,
    Ready catalog h journal j w s backup w₁ ∧
    h.save (journal.moved .creating journal.gpoGuid journal.result) w₁ = (.ok (), w₂) ∧
    UnusableCreate h w₂ guid w₃

/-- What opening the policy leaves when the create returns an unusable GUID. -/
theorem openPolicy_recorded (hsave : h.SavesAll)
    (hname : j.gpoGuid = "" ∨ usableGuid j.gpoGuid = true) (hguid : s.journal.gpoGuid = "") :
    (openPolicy h j).wp (fun guid s' => usableGuid guid = true ∧ Named guid s')
      (fun _ s' => Recoverable s' ∨ j.gpoGuid = "" ∧ ∃ w₁ guid w₂,
        h.save (s.journal.moved .creating s.journal.gpoGuid s.journal.result) s.world = (.ok (), w₁) ∧
        UnusableCreate h w₁ guid w₂) s := by
  obtain ⟨w₁, hw₁⟩ := hsave (s.journal.moved .creating s.journal.gpoGuid s.journal.result) s.world
  unfold openPolicy
  rw [wp_bind, wp_update, wp_bind, wp_of_exec_ok (exec_save hw₁),
    wp_bind, wp_modify, wp_bind]
  have hempty : ∀ {t : Run W}, Named "" t → Recoverable t := fun ht => ht.recoverable (.inl rfl)
  refine Prog.wp_of_exec (fun _ t ht => ?_) fun _ t ht => .inl (hempty
    ((worldFree_named.requireAuthority h).after (by exact ⟨rfl, hguid⟩) ht))
  obtain ⟨w₂, hw₂, rfl⟩ := (requireAuthority_eq_ok h).mp ht
  rw [wp_bind]
  -- A new policy's GUID is whatever the create returns; otherwise it is the job's own.
  have hopened : (createOrOpen h j).wp (fun guid t => Named "" t ∧ (guid = "" ∨
      usableGuid guid = true ∨ j.gpoGuid = "" ∧ ∃ w, UnusableCreate h w₁ guid w)) (fun _ => Named "")
      { s with journal := { s.journal with state := .creating }, world := w₂, writeIntent := true,
               saved := s.saved ++ [{ s.journal with state := .creating }] } := by
    unfold createOrOpen
    refine (wp_ite _ _).mpr ⟨fun hnew => ?_, fun hold => ?_⟩
    · rw [wp_mutate, wp_call]
      rcases hc : h.create w₂ with ⟨r, w₃⟩
      cases r with
      | error e => exact ⟨rfl, hguid⟩
      | ok guid =>
        refine ⟨⟨rfl, hguid⟩, ?_⟩
        by_cases hg : guid = ""
        · exact .inl hg
        · cases hu : usableGuid guid with
          | true => exact .inr (.inl rfl)
          | false => exact .inr (.inr ⟨hnew, w₃, w₂, hw₂, hc, hg, hu⟩)
    · exact ⟨⟨rfl, hguid⟩, .inr (.inl (hname.resolve_left hold))⟩
  refine wp_mono hopened (fun guid t ht => ?_) fun _ t ht => .inl (hempty ht)
  obtain ⟨ht, hcase⟩ := ht
  rw [wp_bind, wp_update, wp_bind, wp_throwIf]
  have hnamed : Named guid { t with journal := { t.journal with gpoGuid := guid } } := ⟨ht.1, rfl⟩
  refine ⟨fun hbad => ?_, fun hgood => ?_⟩
  · rcases hcase with rfl | hu | ⟨hnew, w, hcreate⟩
    · exact .inl (hempty hnamed)
    · exact .inl (hnamed.recoverable (.inr hu))
    · exact .inr ⟨hnew, w₁, guid, w, hw₁, hcreate⟩
  · have husable : usableGuid guid = true := by simpa [usableGuid] using hgood
    have hrec : ∀ {t : Run W}, Named guid t → Recoverable t :=
      fun ht => ht.recoverable (.inr husable)
    have hk : Keeps (Named guid) (save h) := keeps_named_save
    rw [wp_bind, wp_update, wp_bind]
    refine wp_mono (hk _ ⟨ht.1, rfl⟩) (fun _ t ht => ?_)
      fun _ _ ht => .inl (hrec ht)
    rw [wp_bind, wp_update, wp_bind]
    exact wp_mono (hk _ ⟨ht.1, ht.2⟩) (fun _ _ ht => ⟨husable, ht⟩)
      fun _ _ ht => .inl (hrec ht)

theorem openPolicy_unusable (hnew : j.gpoGuid = "") {w₁ w₂ : W}
    (hsaved : h.save (s.journal.moved .creating s.journal.gpoGuid s.journal.result) s.world =
      (.ok (), w₁)) (hcreate : UnusableCreate h w₁ guid w₂) :
    (openPolicy h j).wp (fun _ _ => False) (fun _ => Named guid) s := by
  obtain ⟨w, hauth, hc, -, hu⟩ := hcreate
  have hopen : ∀ t : Run W, t.world = w → (createOrOpen h j).exec t =
      (.ok guid, { t with world := w₂, mutations := t.mutations ++ [.create] }) := by
    rintro t rfl
    unfold createOrOpen
    rw [if_pos hnew]
    exact Prog.exec_bind_eq_ok.mpr ⟨⟨⟩, _, rfl, exec_call_eq_ok.mpr ⟨w₂, hc, rfl⟩⟩
  unfold openPolicy
  rw [wp_bind, wp_update, wp_bind, wp_of_exec_ok (exec_save hsaved),
    wp_bind, wp_modify, wp_bind,
    wp_of_exec_ok ((requireAuthority_eq_ok h (u := ())).mpr ⟨w, hauth, rfl⟩), wp_bind,
    wp_of_exec_ok (hopen _ rfl), wp_bind, wp_update, wp_bind, wp_throwIf]
  refine ⟨fun _ => ⟨rfl, rfl⟩, fun hgood => absurd hu ?_⟩
  simpa [usableGuid] using hgood

theorem failureResult_unusable {e : Exn} (hne : guid ≠ "") (hu : usableGuid guid = false)
    (r : Receipt) : failureResult .requiresReconciliation e guid ≠ .ok r := by
  intro hr
  obtain ⟨hv, -, hguid, he⟩ := failureResult_eq_ok hr
  rw [if_neg hne] at hguid
  rcases Receipt.usable_of_valid hv he with hg | hg
  · rw [hguid] at hg
    exact hne hg
  · rw [hguid] at hg
    exact absurd (hu.symm.trans hg) (by decide)

/-! ## The execution -/

variable {journal : Journal} {world : W}

/-- The execution records its outcome, or throws where the catch block can or cannot name the
policy. -/
theorem executeBody_recorded (hsave : h.SavesAll) (hwrite : j.inspection = false)
    (hstate : journal.state = .granted) (hguid : journal.gpoGuid = "") :
    (executeBody catalog h j).wp (fun _ => LastCompleted)
      (fun _ s' => Recoverable s' ∨ CreatesUnusable catalog h journal j world)
      (start journal world) := by
  have hunwritten : WorldFree (fun s : Run W => s.writeIntent = false) := fun _ _ hs => hs
  unfold executeBody
  rw [wp_bind]
  refine Prog.wp_of_exec (fun a t ht => ?_) fun _ t ht => .inl (recoverable_of_unwritten
    ((hunwritten.prepareWrite catalog h j).after (by exact rfl) ht))
  obtain ⟨state, backup⟩ := a
  obtain ⟨w, hready, rfl⟩ := (prepareWrite_eq_ok catalog h).mp ht
  have hvalid := hready.valid.valid
  have hnamed := hready.valid.guid_of_write catalog hwrite
  refine (wp_ite _ _).mpr ⟨fun _ => ?_, fun _ => ?_⟩
  · exact wp_mono (terminal_completed hsave j _ _ hvalid _ _) (fun _ _ h' => h')
      (fun _ _ h' => .inl h')
  · rw [wp_bind]
    refine wp_mono (openPolicy_recorded hsave (hnamed ▸ Snapshot.guid_usable hvalid) hguid)
      (fun guid t ht => ?_) (fun _ t ht => ht.imp id ?_)
    · rw [wp_bind]
      refine wp_mono (writePolicy_named j j.adoption state guid t ht.2) (fun _ u hu => ?_)
        (fun _ _ hu => .inl (hu.recoverable (.inr ht.1)))
      exact wp_mono (finish_completed hsave j state ht.1 backup hu) (fun _ _ h' => h')
        (fun _ _ h' => .inl h')
    · rintro ⟨hnew, w₁, guid, w₂, hsaved, hcreate⟩
      exact ⟨hstate, hnew, state, backup, w, w₁, guid, w₂, hready, hsaved, hcreate⟩

theorem executeBody_unusable (hcreates : CreatesUnusable catalog h journal j world) :
    (executeBody catalog h j).wp (fun _ _ => False)
      (fun _ s' => ∃ guid, guid ≠ "" ∧ usableGuid guid = false ∧ Named guid s')
      (start journal world) := by
  obtain ⟨-, hnew, s, backup, w₁, w₂, guid, w₃, hready, hsaved, hcreate⟩ := hcreates
  have hexec := (prepareWrite_eq_ok catalog h (r := start journal world)).mpr ⟨w₁, hready, rfl⟩
  unfold executeBody
  rw [wp_bind, wp_of_exec_ok hexec]
  refine (wp_ite _ _).mpr ⟨fun hold => absurd hnew hold.2.1, fun _ => ?_⟩
  rw [wp_bind]
  obtain ⟨-, -, -, hne, hu⟩ := id hcreate
  exact wp_mono (openPolicy_unusable hnew hsaved hcreate) (fun _ _ hf => hf.elim)
    (fun _ _ h' => ⟨guid, hne, hu, h'⟩)

/-- The execution returned, and the last journal it saved, or the one it started from when it
saved none, carries an outcome. -/
def EndsRecorded (journal : Journal) (outcome : Except Exn Receipt × Run W) : Prop :=
  (∃ r, outcome.1 = .ok r) ∧ (outcome.2.saved.getLast?.getD journal).state.completed = true

theorem endsRecorded_iff {p : Exec W Receipt} : EndsRecorded journal (p.exec s) ↔
      p.wp (fun _ s' => (s'.saved.getLast?.getD journal).state.completed = true) (fun _ _ => False)
        s := by
  unfold EndsRecorded wp
  rcases p.exec s with ⟨r, s'⟩
  cases r with
  | ok r => exact ⟨fun h' => h'.2, fun h' => ⟨⟨r, rfl⟩, h'⟩⟩
  | error e =>
    constructor
    · rintro ⟨⟨_, h'⟩, _⟩
      exact nomatch h'
    · exact False.elim

theorem LastCompleted.getD (hs : LastCompleted s) :
    (s.saved.getLast?.getD journal).state.completed = true := by
  obtain ⟨j, hlast, hdone⟩ := hs
  rw [hlast]
  exact hdone

theorem executeManaged_granted {Q : Receipt → Run W → Prop} {E : Exn → Run W → Prop}
    (hjob : journal.assignment = .managed j) (hwrite : j.inspection = false)
    (hstate : journal.state = .granted) :
    (executeManaged catalog h).wp Q E (start journal world) ↔
      (executeBody catalog h j).wp Q (fun e => (executeFailed h e).wp Q E)
        (start journal world) := by
  have hdone : ¬(start journal world).journal.state.completed = true := by
    rw [show (start journal world).journal.state = .granted from hstate]
    decide
  have hgranted : ¬(start journal world).journal.state ≠ .granted := not_not.mpr hstate
  have hinspection : ¬j.inspection = true := by simp [hwrite]
  unfold executeManaged
  rw [wp_bind, wp_journal]
  simp only [show (start journal world).journal.assignment = .managed j from hjob]
  rw [wp_bind, wp_throwIf, if_neg hdone, wp_bind, wp_throwIf, wp_bind,
    wp_modify, Prog.wp_tryCatch]
  constructor
  · rintro ⟨-, hrest⟩
    exact (hrest hinspection).2 hgranted
  · exact fun hbody => ⟨fun hf => absurd hf hinspection,
      fun _ => ⟨fun hf => absurd hf hgranted, fun _ => hbody⟩⟩

theorem executeManaged_completed (hj : journal.Wellformed catalog)
    (hjob : journal.assignment = .managed j) (hwrite : j.inspection = false)
    (hdone : journal.state.completed = true) :
    EndsRecorded journal ((executeManaged catalog h).exec (start journal world)) := by
  have hresult : ∃ r, journal.result = some r := by
    have hc := hj.consistent
    simp only [Journal.consistent, hdone, if_true, Bool.and_eq_true] at hc
    cases hr : journal.result with
    | none => simp [hr] at hc
    | some r => exact ⟨r, rfl⟩
  obtain ⟨r, hr⟩ := hresult
  have hinspection : ¬j.inspection = true := by simp [hwrite]
  rw [endsRecorded_iff]
  unfold executeManaged
  rw [wp_bind, wp_journal]
  simp only [show (start journal world).journal.assignment = .managed j from hjob,
    show (start journal world).journal.state = journal.state from rfl,
    show (start journal world).journal.result = some r from hr]
  rw [wp_bind, wp_throwIf, if_pos hdone]
  exact ⟨fun hf => absurd hf hinspection, fun _ => hdone⟩

theorem executeManaged_unusable (hjob : journal.assignment = .managed j)
    (hwrite : j.inspection = false) (hcreates : CreatesUnusable catalog h journal j world) :
    ¬EndsRecorded journal ((executeManaged catalog h).exec (start journal world)) := by
  intro hends
  rw [endsRecorded_iff, executeManaged_granted hjob hwrite hcreates.1] at hends
  have hboth := Prog.wp_and hends (executeBody_unusable hcreates)
  -- The body throws, and then the catch block throws as well.
  have hfalse : (executeBody catalog h j).wp (fun _ _ => False) (fun _ _ => False)
      (start journal world) := by
    refine wp_mono hboth (fun _ _ h' => h'.2) ?_
    rintro e s' ⟨hcatch, guid, hne, hu, hintent, hguid⟩
    unfold executeFailed at hcatch
    rw [wp_bind, wp_get, hintent, hguid, wp_bind, wp_ofExcept] at hcatch
    cases hr : failureResult .requiresReconciliation e guid with
    | ok r => exact failureResult_unusable hne hu r hr
    | error e' => exact hcatch.2 e' hr
  exact (Prog.wp_iff_after (I := fun _ => False)).mp hfalse

/-- With saves that succeed, an execution of a granted or completed journal returns with its
outcome recorded, except where a create returns a GUID that is neither empty nor usable. -/
theorem executeManaged_recorded_iff (catalog : Catalog) (h : Host W) (journal : Journal)
    (j : ManagedJob) (world : W) (hj : journal.Closed catalog)
    (hjob : journal.assignment = .managed j) (hwrite : j.inspection = false)
    (hstate : journal.state = .granted ∨ journal.state.completed = true) (hsave : h.SavesAll) :
    EndsRecorded journal ((executeManaged catalog h).exec (Run.start journal world)) ↔
      ¬CreatesUnusable catalog h journal j world := by
  have hwell := Journal.closed_iff.mp hj
  refine ⟨fun hends hcreates => executeManaged_unusable hjob hwrite hcreates hends, fun hno => ?_⟩
  rcases hstate with hstate | hdone
  · rw [endsRecorded_iff, executeManaged_granted hjob hwrite hstate]
    refine wp_mono (executeBody_recorded hsave hwrite hstate (hwell.granted hstate).1)
      (fun _ _ h' => h'.getD) (fun e s' h' => ?_)
    exact wp_mono (executeFailed_completed hsave e (h'.resolve_right hno))
      (fun _ _ h' => h'.getD) (fun _ _ hf => hf)
  · exact executeManaged_completed hwell hjob hwrite hdone

end

/-! ### An import whose create returns no GUID -/

/-- An approval of a job of the sample device, four seconds before it ends. -/
def sampleApproval (j : ManagedJob) : Approval :=
  { jobId := j.jobId, inputDigest := j.inputDigest, deviceUri := "urn:ipms:device:1",
    domainGuid := j.domainGuid, targetTier := j.targetTier, operation := j.operation.text,
    requestedBy := "7",
    approvedBy := "8",
    approvedAt := "2030-01-01T00:09:56Z", expiresAt := j.expiresAt, policyRevision := 1,
    fourEyesRequired := true }

theorem sampleApproval_valid (hmode : j.approvalMode = "portal")
    (hexpires : j.expiresAt = "2030-01-01T00:10:00Z") :
    (sampleApproval j).valid (.managed j) "urn:ipms:device:1" = true := by
  have htime : approvedInTime "2030-01-01T00:09:56Z" "2030-01-01T00:10:00Z" = true := by
    decide
  have hprincipals : principal "7" = true ∧
      principal "8" = true := by decide
  have huri : clean "urn:ipms:device:1" 512 = true := by decide
  simp [Approval.valid, sampleApproval, Job.portalMode, Job.core, hmode, hexpires, htime,
    hprincipals, huri, positive, int64Max]

def sampleGranted (j : ManagedJob) : Journal :=
  { assignment := .managed j, deviceUri := "urn:ipms:device:1", state := .granted,
    grantDeadlineTick := 15000, portalApproval := some (sampleApproval j) }

theorem sampleGranted_closed {catalog : Catalog} (hacc : (Job.managed j).Accepted catalog)
    (hmode : j.approvalMode = "portal") (hexpires : j.expiresAt = "2030-01-01T00:10:00Z") :
    (sampleGranted j).Closed catalog := by
  have hv := sampleApproval_valid hmode hexpires
  have huri : clean "urn:ipms:device:1" 512 = true := by decide
  have hschema : ¬(Job.managed j).schema < 2 := by
    unfold Job.schema ManagedJob.schema
    by_cases ho : j.overrideJob = true <;> simp [ho]
  refine Journal.closed_iff.mpr ⟨hacc, ?_, fun hs => absurd hs hschema⟩
  simp [Journal.consistent, sampleGranted, hv, huri, int64Max, Phase.completed]

/-- The state before the sample import: no policy and no targets. -/
def sampleEmpty : Snapshot :=
  { domainAdminsSid := "S-1-5-21-1-2-3-512", gpo := none, ous := [], nameAvailable := true }

/-- An import of a new policy, not sealed yet. -/
def sampleImportDraft : ManagedJob :=
  { toJobCore := sampleCore .importManagedGpo, approvalMode := "portal",
    managedId := "50000000-0000-4000-8000-000000000005", managedRevision := 1, gpoGuid := "",
    ownerMarker := "", targetOus := [], linkOrders := [],
    preflightId := "90000000-0000-4000-8000-000000000009", expectedState := some sampleEmpty,
    intendedOperation := .importManagedGpo,
    safetyReview := { managementAccess := false, recoveryAccess := false }, override := none }

/-- The import with the digest of its document. -/
def sampleImport : ManagedJob := sampleImportDraft.seal

theorem sampleImport_checked : (Job.managed sampleImport).Accepted sampleCatalog ∧
    StateAccepted sampleCatalog sampleImport sampleEmpty := by
  have hserializes : (inputDigest sampleImportDraft.toJson).toOption.isSome = true := by
    unfold ManagedJob.toJson
    rw [inputDigest_isSome]
    decide +kernel
  have hsize : serializedSize sampleEmpty.toJson = some 95 := by
    rw [serializedSize_eq]
    decide +kernel
  have hvalid : sampleEmpty.valid = true := by
    unfold Snapshot.valid
    rw [hsize]
    decide +kernel
  have hstate : validExpectedState sampleImportDraft = true := by
    unfold validExpectedState
    simp only [show sampleImportDraft.expectedState = some sampleEmpty from rfl, hvalid]
    decide +kernel
  have hmanaged : validateManagedJob sampleCatalog sampleImportDraft = .ok () := by
    unfold validateManagedJob
    simp only [hstate]
    decide +kernel
  constructor
  · exact ManagedJob.accepted_seal (by decide +kernel) hmanaged (fun _ h => nomatch h) hserializes
  · refine ⟨hvalid, .inl rfl, rfl, by decide +kernel, ?_, fun _ h => nomatch h⟩
    exact (checkCapacity_eq_ok sampleCatalog).mpr fun _ =>
      ⟨_, 1024, hsize, by decide +kernel, by decide⟩

/-- A host whose create returns a text that is not a GUID; every save succeeds. -/
def malformedHost : Host Unit :=
  let fails : {α : Type} → Call Unit α := fun w => (.error ⟨"provider failed"⟩, w)
  { inspect := fun w => (.ok sampleEmpty.toJson, w), prepare := fun w => (.ok (), w),
    create := fun w => (.ok "not-a-guid", w), initializeGpo := fun _ => fails,
    adopt := fun _ => fails, backup := fun _ => fails, link := fun _ => fails,
    activate := fun _ => fails, deactivate := fun _ => fails, remove := fun _ => fails,
    save := fun _ w => (.ok (), w), authority := fun w => (.ok true, w),
    consume := fun w => (.ok (), w) }

theorem malformedHost_savesAll : malformedHost.SavesAll := fun _ _ => ⟨(), rfl⟩

theorem sampleImport_unusable :
    CreatesUnusable sampleCatalog malformedHost (sampleGranted sampleImport) sampleImport () := by
  have happroved : portalApprovalReceipt (sampleGranted sampleImport) =
      .ok (sampleApproval sampleImport) := by
    refine bind_eq_ok.mpr ⟨(), throwIf_eq_ok.mpr (by decide), ?_⟩
    exact parsePortalApproval_eq_ok.mpr ⟨rfl, sampleApproval_valid rfl rfl⟩
  refine ⟨rfl, rfl, sampleEmpty, ("", ""), (), (), "not-a-guid", (),
    ⟨⟨_, happroved⟩, rfl, sampleImport_checked.2, ?_⟩, rfl, (), rfl, rfl, by decide, by decide⟩
  exact ⟨(), (), (), (), (), (), rfl, rfl, rfl, ⟨rfl, rfl⟩, rfl, rfl, rfl⟩

/-- The create returns no GUID, every save succeeds, and the execution of the approved import does
not end with a recorded outcome. -/
theorem malformed_create_unrecorded :
    (sampleGranted sampleImport).Closed sampleCatalog ∧ malformedHost.SavesAll ∧
      ¬EndsRecorded (sampleGranted sampleImport)
        ((executeManaged sampleCatalog malformedHost).exec
          (Run.start (sampleGranted sampleImport) ())) :=
  ⟨sampleGranted_closed sampleImport_checked.1 rfl rfl, malformedHost_savesAll,
    executeManaged_unusable rfl rfl sampleImport_unusable⟩

/-- The exact condition for the sample import. -/
theorem executeManaged_recorded_sample :
    (sampleGranted sampleImport).Closed sampleCatalog ∧ malformedHost.SavesAll ∧
      (EndsRecorded (sampleGranted sampleImport)
          ((executeManaged sampleCatalog malformedHost).exec
            (Run.start (sampleGranted sampleImport) ())) ↔
        ¬CreatesUnusable sampleCatalog malformedHost (sampleGranted sampleImport) sampleImport ()) :=
  have hclosed := sampleGranted_closed sampleImport_checked.1 rfl rfl
  ⟨hclosed, malformedHost_savesAll, executeManaged_recorded_iff sampleCatalog malformedHost
    (sampleGranted sampleImport) sampleImport () hclosed rfl rfl (.inl rfl) malformedHost_savesAll⟩

end Ipms.Agent.Gpo
