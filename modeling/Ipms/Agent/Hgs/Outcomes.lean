import Ipms.Agent.Hgs.Uncertainty

/-
  Ipms.Agent.Hgs.Outcomes

  Which outcomes an execution and a recovery save and return, and in which
  world.  A step goes through two stages: until its claim is granted it can
  only fail with a code of a step that was never invoked, and from then on its
  outcome fits the operation and the observation made before it.
-/

namespace Ipms.Agent.Hgs

open Ipms.Lib Ipms.ManagementJson Prog Exec

/-! ## Outcomes -/

/-- The codes of a step that ended before its claim was granted. -/
def unclaimedCodes : List String :=
  ["hgs_job_expired", "hgs_authority_lost", "hgs_prerequisite_failed", "hgs_provider_failed"]

/-- An outcome of a step whose claim was not granted. -/
structure Unclaimed (r : Receipt) : Prop where
  valid : r.valid = true
  status : r.status = .failed
  code : r.resultCode ∈ unclaimedCodes

/-- An outcome that fits an assignment and the observation made before it. -/
structure Fits (assignment : Job) (before : Object) (r : Receipt) : Prop where
  valid : r.valid = true
  readOnly : assignment.operation.readOnly = true → r.status = .succeeded ∨ r.status = .failed
  succeeded : r.status = .succeeded →
    postcondition assignment before r.observation = .ok true ∨
      assignment.operation = .reboot ∧ r.observation = before ∧
        flag before "reboot_pending" = .ok false
  rebootRequired : r.status = .rebootRequired →
    stagesReboot assignment.operation = true ∨
      assignment.operation = .reboot ∧ text r.observation "boot_id" = text before "boot_id"

theorem Fits.failed {assignment : Job} {before : Object} {r : Receipt} (hvalid : r.valid = true)
    (hstatus : r.status = .failed) : Fits assignment before r where
  valid := hvalid
  readOnly _ := .inr hstatus
  succeeded hs := absurd (hstatus.symm.trans hs) (by decide)
  rebootRequired hs := absurd (hstatus.symm.trans hs) (by decide)

variable {before : Object} {assignment : Job} {r : Receipt}

theorem Fits.reconciliation (hvalid : r.valid = true) (hstatus : r.status = .reconciliationRequired)
    (hwrites : assignment.operation.readOnly = false) : Fits assignment before r where
  valid := hvalid
  readOnly hr := absurd (hwrites.symm.trans hr) (by decide)
  succeeded hs := absurd (hstatus.symm.trans hs) (by decide)
  rebootRequired hs := absurd (hstatus.symm.trans hs) (by decide)

theorem Fits.proven (hvalid : r.valid = true) (hstatus : r.status = .succeeded)
    (hpost : postcondition assignment before r.observation = .ok true) :
    Fits assignment before r where
  valid := hvalid
  readOnly _ := .inl hstatus
  succeeded _ := .inl hpost
  rebootRequired hs := absurd (hstatus.symm.trans hs) (by decide)

theorem writes_of_stagesReboot : ∀ op, stagesReboot op = true → op.readOnly = false := by
  intro op
  cases op <;> decide

theorem Fits.staged (hvalid : r.valid = true) (hstatus : r.status = .rebootRequired)
    (hstages : stagesReboot assignment.operation = true) : Fits assignment before r where
  valid := hvalid
  readOnly hr := absurd ((writes_of_stagesReboot _ hstages).symm.trans hr) (by decide)
  succeeded hs := absurd (hstatus.symm.trans hs) (by decide)
  rebootRequired _ := .inl hstages

theorem Fits.awaiting (hvalid : r.valid = true) (hstatus : r.status = .rebootRequired)
    (hop : assignment.operation = .reboot)
    (hboot : text r.observation "boot_id" = text before "boot_id") : Fits assignment before r where
  valid := hvalid
  readOnly hr := by
    rw [hop] at hr
    cases hr
  succeeded hs := absurd (hstatus.symm.trans hs) (by decide)
  rebootRequired _ := .inr ⟨hop, hboot⟩

variable {after : Object}

theorem stagesReboot_of_pending (hpost : postcondition assignment before after = .ok true)
    (hpending : flag after "reboot_pending" = .ok true)
    (hwrites : assignment.operation.readOnly = false) :
    stagesReboot assignment.operation = true := by
  unfold postcondition at hpost
  obtain ⟨o, ho, hpost⟩ := bind_eq_ok.mp hpost
  have hflag := (read_members (validateObservation_eq_ok.mp ho).2.1).rebootPending
  have ho : o.rebootPending = true := Except.ok.inj (hflag.symm.trans hpending)
  cases hop : assignment.operation with
  | inspect | verify => rw [hop] at hwrites; cases hwrites
  | installRole | createForest | joinNode => rfl
  | initializeHgs =>
    rw [hop] at hpost
    have hready := pure_eq_ok.mp hpost
    simp [serviceReady, ho] at hready
  | reboot =>
    rw [hop] at hpost
    dsimp only at hpost
    split at hpost
    · cases hpost
    · obtain ⟨boot, _, hpost⟩ := bind_eq_ok.mp hpost
      have hmet := pure_eq_ok.mp hpost
      simp [ho] at hmet

variable {code : String}

theorem Fits.verdict {status : Status}
    (hv : writeVerdict assignment before after = .ok (status, code))
    (hr : result status code after = .ok r) (hwrites : assignment.operation.readOnly = false) :
    Fits assignment before r := by
  obtain ⟨rfl, hvalid⟩ := result_eq_ok.mp hr
  rcases (writeVerdict_eq_ok hv).2 with ⟨rfl, hstages | ⟨hpost, hpending⟩⟩ | rfl | ⟨rfl, hpost⟩
  · exact .staged hvalid rfl hstages
  · exact .staged hvalid rfl (stagesReboot_of_pending hpost hpending hwrites)
  · exact .reconciliation hvalid rfl hwrites
  · exact .proven hvalid rfl hpost

variable {observed : Object}

theorem Fits.unproven (hr : result (unprovenStatus assignment.operation) code observed = .ok r) :
    Fits assignment before r := by
  obtain ⟨rfl, hvalid⟩ := result_eq_ok.mp hr
  cases hreads : assignment.operation.readOnly with
  | true => exact .failed hvalid (by rw [unprovenStatus, hreads]; rfl)
  | false => exact .reconciliation hvalid (by rw [unprovenStatus, hreads]; rfl) hreads

/-! ## Stages -/

/-- The phases that are saved before the claim is granted. -/
def earlyPhase (phase : Phase) : Prop := phase = .claiming ∨ phase = .terminal

/-- The phases that are saved behind the granted claim. -/
def latePhase (op : Operation) (phase : Phase) : Prop :=
  phase = .intent ∨ phase = .terminal ∨ phase = .rebootWait ∧ op = .reboot

section
variable {W : Type} {h : Host W} {assignment : Job} {P : Object → Receipt → Prop}
  {phases : Phase → Prop} {I : W → Prop}

/-- A stage of a step: the calls of the stage keep `I`, and so does saving a journal of the
assignment in one of the phases whose outcome is none or meets `P`. -/
structure Stage (h : Host W) (assignment : Job) (P : Object → Receipt → Prop)
    (phases : Phase → Prop) (I : W → Prop) : Prop where
  terminal : phases .terminal
  inspect : ∀ w, I w → I (h.inspect assignment w).2
  authority : ∀ w, I w → I (h.authority w).2
  save : ∀ k w, k.assignment = assignment → phases k.state →
    (∀ r, k.outcome = some r → P k.before r) → I w → I (h.save k w).2

/-- A run in a stage. -/
structure Within (assignment : Job) (P : Object → Receipt → Prop) (I : W → Prop) (s : Run W) :
    Prop where
  assignment : s.journal.assignment = assignment
  outcome : ∀ r, s.journal.outcome = some r → P s.journal.before r
  world : I s.world

/-- The outcome of a run that ended in a stage. -/
structure Settles (assignment : Job) (P : Object → Receipt → Prop) (I : W → Prop)
    (o : Option Receipt) (s : Run W) : Prop where
  assignment : s.journal.assignment = assignment
  outcome : ∃ r, o = some r ∧ s.journal.outcome = some r ∧ P s.journal.before r
  world : I s.world

theorem Within.withWorld {s : Run W} (hs : Within assignment P I s) {w : W} (hw : I w) :
    Within assignment P I { s with world := w } := ⟨hs.assignment, hs.outcome, hw⟩

theorem Within.withState {s : Run W} (hs : Within assignment P I s) (state : Phase) :
    Within assignment P I { s with journal := { s.journal with state } } :=
  ⟨hs.assignment, hs.outcome, hs.world⟩

theorem wp_call_keeps {α : Type} {f : Call W α} {J : Run W → Prop} {s : Run W}
    (hf : J { s with world := (f s.world).2 }) :
    wp (call f) (fun _ => J) (fun _ => J) s := by
  refine wp_call_answer f (fun a w hw => ?_) (fun e w hw => ?_)
  · rw [hw] at hf
    exact hf
  · rw [hw] at hf
    exact hf

/-- The journal and the stage of a run. -/
def Carrying (assignment : Job) (P : Object → Receipt → Prop) (I : W → Prop) (j : Journal)
    (s : Run W) : Prop := Within assignment P I s ∧ s.journal = j

theorem carrying_save (hstage : Stage h assignment P phases I) {j : Journal}
    (hphase : phases j.state) : Keeps (Carrying assignment P I j) (save h) := by
  intro s hs
  unfold save
  simp only [wp_bind, wp_modify, wp_get]
  have hw := hstage.save s.journal s.world hs.1.assignment (by rw [hs.2]; exact hphase)
    hs.1.outcome hs.1.world
  refine wp_mono (wp_call_keeps (J := Carrying assignment P I j) ?_) (fun _ t ht => ?_)
    (fun _ t ht => ht)
  · exact ⟨⟨hs.1.assignment, hs.1.outcome, hw⟩, hs.2⟩
  · exact ⟨⟨ht.1.assignment, ht.1.outcome, ht.1.world⟩, ht.2⟩

theorem wp_settle (hstage : Stage h assignment P phases I) {r : Receipt} {s : Run W}
    (hs : Within assignment P I s) (hphase : phases s.journal.state)
    (hr : s.journal.outcome = some r) :
    wp (save h >>= fun _ => (pure (some r) : Exec W (Option Receipt)))
      (fun o t => Settles assignment P I o t ∧ t.journal = s.journal)
      (fun _ t => Within assignment P I t ∧ t.journal = s.journal) s := by
  rw [wp_bind]
  refine wp_mono (carrying_save hstage hphase s ⟨hs, rfl⟩) (fun _ t ht => ?_) (fun _ _ ht => ht)
  refine ⟨⟨ht.1.assignment, ⟨r, rfl, ?_, ?_⟩, ht.1.world⟩, ht.2⟩
  · rw [ht.2, hr]
  · exact ht.1.outcome r (by rw [ht.2, hr])

theorem wp_finish_stage (hstage : Stage h assignment P phases I) {status : Status} {code : String}
    {observed : Object} {s : Run W} (hs : Within assignment P I s)
    (hP : ∀ r, result status code observed = .ok r → P s.journal.before r) :
    wp (finish h status code observed) (fun o t => Settles assignment P I o t)
      (fun _ t => Within assignment P I t ∧ t.journal.state = .terminal ∧
        t.journal.before = s.journal.before) s := by
  unfold finish
  rw [wp_bind, wp_update, wp_bind, wp_ofExcept]
  refine ⟨fun r hr => ?_, fun _ _ => ⟨hs.withState .terminal, rfl, rfl⟩⟩
  rw [wp_bind, wp_update]
  have hfinished : Within assignment P I { s with journal := s.journal.finished r } :=
    ⟨hs.assignment, fun r' hr' => Option.some.inj hr' ▸ hP r hr, hs.world⟩
  refine wp_mono (wp_settle hstage hfinished hstage.terminal rfl) (fun _ _ ht => ht.1) (fun _ t ht => ?_)
  rw [ht.2]
  exact ⟨ht.1, rfl, rfl⟩

end

/-! ## The two stages of a step -/

section
variable {W : Type} {h : Host W} {assignment : Job} {early late : W → Prop}

/-- What the calls of a step do to the world: until the claim is granted they keep `early`, a
granted claim establishes `late`, and from then on they keep it. -/
structure Grants (h : Host W) (assignment : Job) (early late : W → Prop) : Prop where
  before : Stage h assignment (fun _ => Unclaimed) earlyPhase early
  behind : Stage h assignment (Fits assignment) (latePhase assignment.operation) late
  apply : ∀ w, late w → late (h.apply assignment w).2
  granted : ∀ w, early w → (h.claim w).1 = .ok true → late (h.claim w).2
  refused : ∀ w, early w → (h.claim w).1 ≠ .ok true → early (h.claim w).2

/-- A run before its claim was granted. -/
abbrev Early (assignment : Job) (early : W → Prop) : Run W → Prop :=
  Within assignment (fun _ => Unclaimed) early

/-- A run behind its granted claim. -/
abbrev Late (assignment : Job) (late : W → Prop) : Run W → Prop :=
  Within assignment (Fits assignment) late

/-- A run that ended with an outcome of its stage. -/
def Ended (assignment : Job) (early late : W → Prop) (o : Option Receipt) (s : Run W) : Prop :=
  Settles assignment (fun _ => Unclaimed) early o s ∨ Settles assignment (Fits assignment) late o s

/-- A run that threw before the recorded intent, or behind the granted claim. -/
def Interrupted (assignment : Job) (early late : W → Prop) (s : Run W) : Prop :=
  Early assignment early s ∧ s.journal.state ≠ .intent ∨ Late assignment late s

theorem Within.promote {s : Run W} (hs : Early assignment early s) {w : W} (hw : late w) :
    Late assignment late { s with world := w } :=
  ⟨hs.assignment, fun r hr => .failed (hs.outcome r hr).valid (hs.outcome r hr).status, hw⟩

theorem unclaimed_of_result (hcode : code ∈ unclaimedCodes)
    (hr : result .failed code observed = .ok r) : Unclaimed r := by
  obtain ⟨rfl, hvalid⟩ := result_eq_ok.mp hr
  exact ⟨hvalid, rfl, hcode⟩

theorem fits_of_failure (hr : result .failed code observed = .ok r) : Fits assignment before r := by
  obtain ⟨rfl, hvalid⟩ := result_eq_ok.mp hr
  exact .failed hvalid rfl

theorem wp_failEarly (hg : Grants h assignment early late) {code : String} {observed : Object}
    {s : Run W} (hcode : code ∈ unclaimedCodes) (hs : Early assignment early s) :
    wp (finish h .failed code observed) (Ended assignment early late)
      (fun _ => Interrupted assignment early late) s := by
  refine wp_mono (wp_finish_stage hg.before hs fun r hr => unclaimed_of_result hcode hr)
    (fun o t ht => .inl ht) (fun _ t ht => .inl ⟨ht.1, ?_⟩)
  rw [ht.2.1]
  decide

theorem wp_finishLate (hg : Grants h assignment early late) {status : Status} {code : String}
    {observed : Object} {s : Run W} (hs : Late assignment late s)
    (hfits : ∀ r, result status code observed = .ok r → Fits assignment s.journal.before r) :
    wp (finish h status code observed) (Ended assignment early late)
      (fun _ => Interrupted assignment early late) s :=
  wp_mono (wp_finish_stage hg.behind hs hfits) (fun _ _ ht => .inr ht) (fun _ _ ht => .inr ht.1)

def ApproachEnds (assignment : Job) (early late : W → Prop) : Approach → Run W → Prop
  | .settled o, s => Ended assignment early late o s
  | .ready _, s => Late assignment late s

theorem wp_settle_failed (hg : Grants h assignment early late) {code : String} {observed : Object}
    {s : Run W} (hcode : code ∈ unclaimedCodes)
    (hs : Early assignment early s ∨ Late assignment late s) :
    wp (settleEarly h .failed code observed) (ApproachEnds assignment early late)
      (fun _ => Interrupted assignment early late) s := by
  unfold settleEarly
  rw [wp_bind]
  rcases hs with hs | hs
  · exact wp_failEarly hg hcode hs
  · exact wp_finishLate hg hs fun r hr => fits_of_failure hr

theorem wp_settle_late (hg : Grants h assignment early late) {status : Status} {code : String}
    {observed : Object} {s : Run W} (hs : Late assignment late s)
    (hfits : ∀ r, result status code observed = .ok r → Fits assignment s.journal.before r) :
    wp (settleEarly h status code observed) (ApproachEnds assignment early late)
      (fun _ => Interrupted assignment early late) s := by
  unfold settleEarly
  rw [wp_bind]
  exact wp_finishLate hg hs hfits

theorem wp_stillGranted_late (hg : Grants h assignment early late) {j : Journal} {s : Run W}
    (hs : Carrying assignment (Fits assignment) late j s) :
    wp (stillGranted h assignment)
      (fun _ => Carrying assignment (Fits assignment) late j)
      (fun _ => Carrying assignment (Fits assignment) late j) s := by
  unfold stillGranted
  rw [wp_bind]
  refine wp_mono (wp_call_keeps (J := Carrying assignment (Fits assignment) late j)
    ⟨hs.1.withWorld (hg.behind.authority _ hs.1.world), hs.2⟩) (fun b t ht => ?_) (fun _ _ ht => ht)
  rw [wp_ite]
  exact ⟨fun _ => ht, fun _ => ht⟩

theorem wp_claimGranted_stages (hg : Grants h assignment early late) {j : Journal} {s : Run W}
    (hs : Carrying assignment (fun _ => Unclaimed) early j s) :
    wp (claimGranted h assignment)
      (fun b t => Carrying assignment (Fits assignment) late j t ∨
        b = false ∧ Carrying assignment (fun _ => Unclaimed) early j t)
      (fun _ t => Carrying assignment (Fits assignment) late j t ∨
        Carrying assignment (fun _ => Unclaimed) early j t) s := by
  unfold claimGranted
  rw [wp_bind]
  refine wp_call_answer _ (fun granted w hclaim => ?_) (fun e w hclaim => ?_)
  · rw [wp_ite]
    refine ⟨fun hrefused => ?_, fun hgranted => ?_⟩
    · have hw := hg.refused s.world hs.1.world (by rw [hclaim]; simpa using hrefused)
      rw [hclaim] at hw
      exact .inr ⟨rfl, hs.1.withWorld hw, hs.2⟩
    · have hw := hg.granted s.world hs.1.world (by rw [hclaim]; simpa using hgranted)
      rw [hclaim] at hw
      have hlate : Carrying assignment (Fits assignment) late j { s with world := w } :=
        ⟨hs.1.promote hw, hs.2⟩
      exact wp_mono (wp_stillGranted_late hg hlate) (fun _ _ ht => .inl ht)
        (fun _ _ ht => .inl ht)
  · have hw := hg.refused s.world hs.1.world (by rw [hclaim]; exact fun hok => nomatch hok)
    rw [hclaim] at hw
    exact .inr ⟨hs.1.withWorld hw, hs.2⟩

/-- The part of the approach behind the recorded intent. -/
theorem wp_beginWrite_stages (hg : Grants h assignment early late) {before : Object} {s : Run W}
    (hs : Late assignment late s) (hb : s.journal.before = before) :
    wp (beginWrite h assignment before) (ApproachEnds assignment early late)
      (fun _ => Interrupted assignment early late) s := by
  have hready : wp (pure (.ready before) : Exec W Approach)
      (ApproachEnds assignment early late) (fun _ => Interrupted assignment early late) s := hs
  unfold beginWrite
  dsimp only
  rw [wp_ite]
  refine ⟨fun hreads => ?_, fun hwrites => ?_⟩
  · rw [wp_bind]
    refine wp_call_answer _ (fun after w hinspect => ?_) (fun e w hinspect => ?_)
    · have hw := hg.behind.inspect s.world hs.world
      rw [hinspect] at hw
      have hs' := hs.withWorld hw
      rw [wp_bind, wp_ofExcept]
      refine ⟨fun met hmet => ?_, fun _ _ => .inr hs'⟩
      rw [wp_ite]
      refine ⟨fun _ => wp_settle_late hg hs' fun r hr => fits_of_failure hr, fun hyes => ?_⟩
      refine wp_settle_late hg hs' fun r hr => ?_
      obtain ⟨rfl, hvalid⟩ := result_eq_ok.mp hr
      refine .proven hvalid rfl ?_
      rw [show ({ s with world := w } : Run W).journal.before = before from hb, hmet]
      simpa using hyes
    · have hw := hg.behind.inspect s.world hs.world
      rw [hinspect] at hw
      exact .inr (hs.withWorld hw)
  · rw [wp_ite]
    refine ⟨fun hreboot => ?_, fun _ => ?_⟩
    · rw [wp_bind, wp_ofExcept]
      refine ⟨fun pending hpending => ?_, fun _ _ => .inr hs⟩
      rw [wp_ite]
      refine ⟨fun hno => wp_settle_late hg hs fun r hr => ?_, fun _ => hready⟩
      have hnone : pending = false := by simpa using hno
      obtain ⟨rfl, hvalid⟩ := result_eq_ok.mp hr
      refine ⟨hvalid, fun _ => .inl rfl, fun _ => .inr ⟨hreboot, hb.symm, ?_⟩, fun h => nomatch h⟩
      rw [hb, hpending, hnone]
    · rw [wp_ite]
      refine ⟨fun hstarted => ?_, fun _ => hready⟩
      rw [wp_bind, wp_ofExcept]
      refine ⟨fun done hdone => ?_, fun _ _ => .inr hs⟩
      rw [wp_ite]
      refine ⟨fun hyes => wp_settle_late hg hs fun r hr => ?_, fun _ => hready⟩
      obtain ⟨rfl, hvalid⟩ := result_eq_ok.mp hr
      refine .proven hvalid rfl ?_
      -- the postcondition of initialize does not look at the observation made before
      have hsame : postcondition assignment s.journal.before before =
          postcondition assignment [] before := by
        unfold postcondition
        rw [hstarted]
      rw [hsame, hdone, hyes]

theorem wp_of_carrying {j : Journal} (hj : j.state ≠ .intent) {s : Run W}
    (hs : Carrying assignment (fun _ => Unclaimed) early j s) :
    Interrupted assignment early late s := by
  refine .inl ⟨hs.1, ?_⟩
  rw [hs.2]
  exact hj

theorem wp_approach_stages (hg : Grants h assignment early late) {s : Run W}
    (hs : Early assignment early s) (hprepared : s.journal.state = .prepared) :
    wp (approach h) (ApproachEnds assignment early late)
      (fun _ => Interrupted assignment early late) s := by
  have hstate : s.journal.state ≠ .intent := by
    rw [hprepared]
    decide
  unfold approach
  rw [wp_bind, wp_journal, wp_bind, hs.assignment]
  refine wp_call_answer _ (fun before w hinspect => ?_) (fun e w hinspect => ?_)
  swap
  · have hw := hg.before.inspect s.world hs.world
    rw [hinspect] at hw
    exact .inl ⟨hs.withWorld hw, hstate⟩
  have hw := hg.before.inspect s.world hs.world
  rw [hinspect] at hw
  have hstored : Early assignment early
      { s with world := w, journal := { s.journal with before } } :=
    ⟨hs.assignment, hs.outcome, hw⟩
  rw [wp_bind, wp_update, wp_bind, wp_ofExcept]
  refine ⟨fun _ _ => ?_, fun _ _ => .inl ⟨hstored, hstate⟩⟩
  rw [wp_bind, wp_ofExcept]
  refine ⟨fun met _ => ?_, fun _ _ => .inl ⟨hstored, hstate⟩⟩
  rw [wp_ite]
  refine ⟨fun _ => wp_settle_failed hg (by decide) (.inl hstored), fun _ => ?_⟩
  rw [wp_bind]
  refine wp_mono (wp_call_keeps
    (J := Carrying assignment (fun _ => Unclaimed) early { s.journal with before })
    ⟨hstored.withWorld (hg.before.authority _ hstored.world), rfl⟩) (fun authorized t ht => ?_)
    (fun _ t ht => wp_of_carrying (j := { s.journal with before }) hstate ht)
  rw [wp_ite]
  refine ⟨fun _ => wp_settle_failed hg (by decide) (.inl ht.1), fun _ => ?_⟩
  rw [wp_bind, wp_update, wp_bind]
  have hclaiming : Carrying assignment (fun _ => Unclaimed) early
      { s.journal with before, state := .claiming }
      { t with journal := { t.journal with state := .claiming } } :=
    ⟨ht.1.withState .claiming, by rw [ht.2]⟩
  refine wp_mono (carrying_save hg.before (.inl rfl) _ hclaiming) (fun _ u hu => ?_)
    (fun _ u hu => wp_of_carrying (show Phase.claiming ≠ .intent by decide) hu)
  rw [wp_bind]
  refine wp_mono (wp_claimGranted_stages hg hu) (fun granted v hv' => ?_) (fun _ v hv' => ?_)
  swap
  · rcases hv' with hlate | hearly
    · exact .inr hlate.1
    · exact wp_of_carrying (show Phase.claiming ≠ .intent by decide) hearly
  rw [wp_ite]
  refine ⟨fun _ => wp_settle_failed hg (by decide) (hv'.symm.imp (fun h => h.2.1) (fun h => h.1)),
    fun hgranted => ?_⟩
  have hlate : Carrying assignment (Fits assignment) late
      { s.journal with before, state := .claiming } v := by
    rcases hv' with hlate | ⟨hfalse, _⟩
    · exact hlate
    · rw [hfalse] at hgranted
      exact absurd rfl hgranted
  rw [wp_bind, wp_update, wp_bind]
  have hintent : Carrying assignment (Fits assignment) late
      { s.journal with before, state := .intent }
      { v with journal := { v.journal with state := .intent } } :=
    ⟨hlate.1.withState .intent, by rw [hlate.2]⟩
  refine wp_mono (carrying_save hg.behind (.inl rfl) _ hintent) (fun _ x hx => ?_)
    (fun _ x hx => .inr hx.1)
  rw [wp_bind]
  refine wp_mono (wp_stillGranted_late hg hx) (fun still y hy => ?_) (fun _ y hy => .inr hy.1)
  rw [wp_ite]
  refine ⟨fun _ => wp_settle_failed hg (by decide) (.inr hy.1), fun _ => ?_⟩
  exact wp_beginWrite_stages hg hy.1 (by rw [hy.2])

/-! ## Executing and recovering -/

theorem wp_giveUp_stages (hg : Grants h assignment early late) {s : Run W}
    (hs : Interrupted assignment early late s) :
    wp (giveUp h) (Ended assignment early late)
      (fun _ => Interrupted assignment early late) s := by
  unfold giveUp
  rw [wp_bind, wp_journal, wp_ite]
  rcases hs with ⟨hearly, hstate⟩ | hlate
  · refine ⟨fun hintent => absurd hintent.1 hstate, fun _ => wp_failEarly hg ?_ hearly⟩
    split <;> decide
  · refine ⟨fun hintent => wp_finishLate hg hlate fun r hr => ?_,
      fun _ => wp_finishLate hg hlate fun r hr => fits_of_failure hr⟩
    obtain ⟨rfl, hvalid⟩ := result_eq_ok.mp hr
    refine .reconciliation hvalid rfl ?_
    rw [← hlate.assignment]
    simpa using hintent.2

theorem wp_write_stages (hg : Grants h assignment early late)
    (hwrites : assignment.operation.readOnly = false) {before : Object} {s : Run W}
    (hs : Late assignment late s) (hb : s.journal.before = before) :
    wp (write h assignment before) (Ended assignment early late)
      (fun _ => Interrupted assignment early late) s := by
  unfold write apply
  rw [wp_bind, wp_bind, wp_modify]
  have happlied : Carrying assignment (Fits assignment) late s.journal
      { s with applied := true, recorded := [], world := (h.apply assignment s.world).2 } :=
    ⟨⟨hs.assignment, hs.outcome, hg.apply s.world hs.world⟩, rfl⟩
  refine wp_mono (wp_call_keeps (J := Carrying assignment (Fits assignment) late s.journal)
    happlied) (fun _ t ht => ?_) (fun _ t ht => .inr ht.1)
  rw [wp_ite]
  refine ⟨fun hreboot => ?_, fun _ => ?_⟩
  · unfold beginReboot
    rw [wp_bind, wp_update, wp_bind, wp_ofExcept]
    refine ⟨fun r hr => ?_, fun _ _ => .inr (ht.1.withState .rebootWait)⟩
    obtain ⟨rfl, hvalid⟩ := result_eq_ok.mp hr
    rw [wp_bind, wp_update]
    have hfits : Fits assignment s.journal.before ⟨.rebootRequired, "hgs_reboot_required", before⟩ :=
      .awaiting hvalid rfl hreboot (by rw [hb])
    have hwaiting : Late assignment late { t with journal :=
        { t.journal with state := .rebootWait, outcome := some _ } } :=
      ⟨ht.1.assignment, fun r' hr' => by cases hr'; rw [ht.2]; exact hfits, ht.1.world⟩
    exact wp_mono (wp_settle hg.behind hwaiting (.inr (.inr ⟨rfl, hreboot⟩)) rfl) (fun _ _ hu => .inr hu.1)
      (fun _ _ hu => .inr hu.1)
  · unfold examine
    rw [wp_bind]
    refine wp_mono (wp_call_keeps (J := Carrying assignment (Fits assignment) late s.journal)
      ⟨ht.1.withWorld (hg.behind.inspect _ ht.1.world), ht.2⟩) (fun after u hu => ?_)
      (fun _ u hu => .inr hu.1)
    rw [wp_bind, wp_ofExcept]
    refine ⟨fun v hv => ?_, fun _ _ => .inr hu.1⟩
    obtain ⟨status, code⟩ := v
    refine wp_finishLate hg hu.1 fun r hr => ?_
    rw [hu.2, hb]
    exact .verdict hv hr hwrites

theorem wp_attempt_stages (hg : Grants h assignment early late) {s : Run W} (hu : Unapplied s)
    (hs : Early assignment early s) (hprepared : s.journal.state = .prepared) :
    wp (attempt h) (Ended assignment early late)
      (fun _ => Interrupted assignment early late) s := by
  unfold attempt
  rw [wp_bind]
  refine wp_mono (wp_and (wp_approach h hu) (wp_approach_stages hg hs hprepared))
    (fun a t ht => ?_) (fun _ _ ht => ht.2)
  cases a with
  | settled outcome => exact ht.2
  | ready before =>
    have hat := ht.1.2 before rfl
    dsimp only
    rw [wp_bind, wp_journal, hat.journal.1, hs.assignment]
    have hwrites := hat.writes
    rw [hs.assignment] at hwrites
    exact wp_write_stages hg hwrites ht.2 hat.journal.2

theorem awaitsReboot_eq_true {j : Journal} {now : Int} (h : awaitsReboot j now after = .ok true) :
    j.state = .rebootWait ∧ text after "boot_id" = text j.before "boot_id" := by
  unfold awaitsReboot at h
  split at h
  · obtain ⟨a, ha, h⟩ := bind_eq_ok.mp h
    obtain ⟨b, hb, h⟩ := bind_eq_ok.mp h
    have hsame : a = b := eq_of_beq (pure_eq_ok.mp h)
    rw [ha, hb, hsame]
    exact ⟨(‹_ ∧ _› : _).1, rfl⟩
  · cases h

theorem wp_reexamine_stages (hg : Grants h assignment early late) {s : Run W}
    (hs : Late assignment late s)
    (hwaits : s.journal.state = .rebootWait → assignment.operation = .reboot) :
    wp (reexamine h) (Ended assignment early late)
      (fun _ => Late assignment late) s := by
  have hlate : ∀ {status code observed} {t : Run W}, Late assignment late t →
      (∀ r, result status code observed = .ok r → Fits assignment t.journal.before r) →
      wp (finish h status code observed) (Ended assignment early late)
        (fun _ => Late assignment late) t := fun ht hfits =>
    wp_mono (wp_finish_stage hg.behind ht hfits) (fun _ _ hu => .inr hu) (fun _ _ hu => hu.1)
  unfold reexamine
  rw [wp_bind, wp_journal, wp_bind, hs.assignment]
  refine wp_mono (wp_call_keeps (J := Carrying assignment (Fits assignment) late s.journal)
    ⟨hs.withWorld (hg.behind.inspect _ hs.world), rfl⟩) (fun after t ht => ?_) (fun _ t ht => ht.1)
  rw [wp_bind, wp_ofExcept]
  refine ⟨fun _ _ => ?_, fun _ _ => ht.1⟩
  rw [wp_bind, wp_ofExcept]
  refine ⟨fun met hmet => ?_, fun _ _ => ht.1⟩
  rw [wp_ite]
  refine ⟨fun htrue => ?_, fun _ => ?_⟩
  · subst htrue
    unfold finishObserved
    dsimp only
    rw [wp_ite]
    refine ⟨fun _ => hlate ht.1 fun r hr => ?_, fun hwrites => ?_⟩
    · obtain ⟨rfl, hvalid⟩ := result_eq_ok.mp hr
      exact .proven hvalid rfl (by rw [ht.2]; exact hmet)
    · rw [wp_bind, wp_ofExcept]
      refine ⟨fun pending hpending => hlate ht.1 fun r hr => ?_, fun _ _ => ht.1⟩
      obtain ⟨rfl, hvalid⟩ := result_eq_ok.mp hr
      rw [ht.2]
      cases pending with
      | true =>
        exact .staged hvalid rfl
          (stagesReboot_of_pending hmet hpending ((Bool.not_eq_true _).mp hwrites))
      | false => exact .proven hvalid rfl hmet
  · rw [wp_bind, wp_now, wp_bind, wp_ofExcept]
    refine ⟨fun waits hawaits => ?_, fun _ _ => ht.1⟩
    rw [wp_ite]
    refine ⟨fun hyes => ?_, fun _ => hlate ht.1 fun r hr => .unproven hr⟩
    subst hyes
    obtain ⟨hstate, hboot⟩ := awaitsReboot_eq_true hawaits
    have hop := hwaits hstate
    unfold keepWaiting
    rw [wp_bind, wp_ofExcept]
    refine ⟨fun r hr => ?_, fun _ _ => ht.1⟩
    obtain ⟨rfl, hvalid⟩ := result_eq_ok.mp hr
    rw [wp_bind, wp_update]
    have hfits : Fits assignment t.journal.before ⟨.rebootRequired, "hgs_reboot_required", after⟩ := by
      rw [ht.2]
      exact .awaiting hvalid rfl hop hboot
    have hwaiting : Late assignment late
        { t with journal := { t.journal with outcome := some _ } } :=
      ⟨ht.1.assignment, fun r' hr' => by cases hr'; exact hfits, ht.1.world⟩
    have hphase : latePhase assignment.operation t.journal.state := by
      rw [ht.2]
      exact .inr (.inr ⟨hstate, hop⟩)
    exact wp_mono (wp_settle hg.behind hwaiting hphase rfl) (fun _ _ hu => .inr hu.1)
      (fun _ _ hu => hu.1)

/-- A journal is of the stage of its phase. -/
def InStage (assignment : Job) (early late : W → Prop) (s : Run W) : Prop :=
  match s.journal.state with
  | .prepared | .claiming => Early assignment early s
  | .intent => Late assignment late s
  | .rebootWait => Late assignment late s ∧ assignment.operation = .reboot
  | .terminal => Early assignment early s ∧ s.journal.outcome ≠ none ∨
      Late assignment late s ∧ s.journal.outcome ≠ none

theorem ended_of_terminal {s : Run W}
    (hs : Early assignment early s ∧ s.journal.outcome ≠ none ∨
      Late assignment late s ∧ s.journal.outcome ≠ none) :
    Ended assignment early late s.journal.outcome s := by
  rcases hs with ⟨hs, hsome⟩ | ⟨hs, hsome⟩
  · obtain ⟨r, hr⟩ := Option.ne_none_iff_exists'.mp hsome
    exact .inl ⟨hs.assignment, ⟨r, hr, hr, hs.outcome r hr⟩, hs.world⟩
  · obtain ⟨r, hr⟩ := Option.ne_none_iff_exists'.mp hsome
    exact .inr ⟨hs.assignment, ⟨r, hr, hr, hs.outcome r hr⟩, hs.world⟩

/-- Recovering ends in the stage of the journal it starts from. -/
theorem wp_recover_stages (hg : Grants h assignment early late) {s : Run W}
    (hs : InStage assignment early late s) :
    wp (recover h) (Ended assignment early late)
      (fun _ => Interrupted assignment early late) s := by
  have hcatch : ∀ {code : String} {t : Run W}, Late assignment late t →
      wp (finish h (unprovenStatus assignment.operation) code) (Ended assignment early late)
        (fun _ => Interrupted assignment early late) t := fun ht =>
    wp_finishLate hg ht fun r hr => .unproven hr
  unfold recover
  rw [wp_bind, wp_journal]
  unfold InStage at hs
  cases hstate : s.journal.state with
  | terminal =>
    rw [hstate] at hs
    exact ended_of_terminal hs
  | prepared =>
    rw [hstate] at hs
    dsimp only at hs ⊢
    rw [wp_bind, wp_now]
    refine wp_failEarly hg ?_ hs
    split <;> decide
  | claiming =>
    rw [hstate] at hs
    exact wp_failEarly hg (by decide) hs
  | intent =>
    rw [hstate] at hs
    dsimp only at hs ⊢
    rw [wp_tryCatch, hs.assignment]
    refine wp_mono (wp_reexamine_stages hg hs fun hw => ?_) (fun _ _ ht => ht)
      (fun _ _ ht => hcatch ht)
    rw [hstate] at hw
    cases hw
  | rebootWait =>
    rw [hstate] at hs
    dsimp only at hs ⊢
    rw [wp_tryCatch, hs.1.assignment]
    exact wp_mono (wp_reexamine_stages hg hs.1 fun _ => hs.2) (fun _ _ ht => ht)
      (fun _ _ ht => hcatch ht)

theorem wp_execute_stages (hg : Grants h assignment early late) {s : Run W} (hu : Unapplied s)
    (hs : InStage assignment early late s) :
    wp (execute h) (Ended assignment early late)
      (fun _ => Interrupted assignment early late) s := by
  have hrecover := wp_recover_stages hg hs
  unfold wp at hrecover ⊢
  rw [exec_execute]
  unfold InStage at hs
  cases hstate : s.journal.state with
  | terminal =>
    rw [hstate] at hs
    exact ended_of_terminal hs
  | prepared =>
    rw [hstate] at hs
    dsimp only at hs ⊢
    split
    · have hwp : wp (tryCatch (attempt h) fun _ => giveUp h) (Ended assignment early late)
          (fun _ => Interrupted assignment early late) s := by
        rw [wp_tryCatch]
        exact wp_mono (wp_attempt_stages hg hu hs hstate) (fun _ _ ht => ht)
          (fun _ _ ht => wp_giveUp_stages hg ht)
      exact hwp
    · exact wp_failEarly hg (by decide) hs
  | claiming | intent | rebootWait => exact hrecover

end

end Ipms.Agent.Hgs
