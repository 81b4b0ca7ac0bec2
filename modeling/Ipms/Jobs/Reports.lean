import Ipms.Jobs.AtMostOnce

/-
  Ipms.Jobs.Reports

  The results the agent reports at the end of a job.  Wherever such a report is
  kept, in a phase, in the network or in a file, the control plane allows its
  code.
-/

namespace Ipms.Jobs

open Ipms.Lib Ipms.Server

/-! ## Result codes -/

/-- The characters of a result code. -/
def codeChar (c : Char) : Bool :=
  decide ('a' ≤ c) && decide (c ≤ 'z') || decide ('0' ≤ c) && decide (c ≤ '9') || c == '_'

/-- A text of such characters, with bounds on its length. -/
structure CodeText (s : String) (minimum maximum : Nat) : Prop where
  chars : ∀ c ∈ s.toList, codeChar c = true
  long : minimum ≤ s.toList.length
  short : s.toList.length ≤ maximum

theorem CodeText.of_all {s : String} {m n : Nat} (h : s.toList.all codeChar = true)
    (hm : m ≤ s.toList.length) (hn : s.toList.length ≤ n) : CodeText s m n :=
  ⟨List.all_eq_true.mp h, hm, hn⟩

theorem CodeText.append {s t : String} {m n m' n' : Nat} (hs : CodeText s m n)
    (ht : CodeText t m' n') : CodeText (s ++ t) (m + m') (n + n') := by
  refine ⟨fun c hc => ?_, ?_, ?_⟩
  · rw [String.toList_append, List.mem_append] at hc
    exact hc.elim (hs.chars c) (ht.chars c)
  · rw [String.toList_append, List.length_append]
    exact Nat.add_le_add hs.long ht.long
  · rw [String.toList_append, List.length_append]
    exact Nat.add_le_add hs.short ht.short

theorem CodeText.allowed {s : String} {m n : Nat} (h : CodeText s m n) (hm : 1 ≤ m) (hn : n ≤ 64) :
    resultCodeAllowed s = true := by
  simp only [resultCodeAllowed, Bool.and_eq_true, decide_eq_true_eq, List.all_eq_true]
  exact ⟨⟨Nat.le_trans hm h.long, Nat.le_trans h.short hn⟩, h.chars⟩

theorem codeText_decimalText {n k : Nat} (hk : 0 < k) (h : n < 10 ^ k) :
    CodeText (decimalText n) 0 k := by
  refine ⟨fun c hc => ?_, Nat.zero_le _, ?_⟩
  · have hdigit : c.isDigit = true := by
      rw [decimalText, String.toList_ofList] at hc
      exact Nat.isDigit_of_mem_toDigits (by decide) (by decide) hc
    simp only [Char.isDigit, Bool.and_eq_true, decide_eq_true_eq] at hdigit
    simp only [codeChar, Bool.or_eq_true, Bool.and_eq_true, decide_eq_true_eq]
    exact .inl (.inr hdigit)
  · rw [decimalText, String.toList_ofList]
    exact (Nat.length_toDigits_le_iff (by decide) hk).mpr h

/-- The code of every outcome of a VM action is allowed. -/
theorem VmOutcome.resultCode_allowed (outcome : VmOutcome) :
    resultCodeAllowed outcome.resultCode = true := by
  cases outcome with
  | alreadyInRequestedState => decide
  | stateConfirmed => decide
  | failed code =>
    have hall : ∀ code ∈ failureCodes, resultCodeAllowed code = true := by decide +kernel
    exact hall code.val code.property
  | notFound rows identifiers names =>
    have hcount : ∀ n : Fin 130, CodeText (decimalText n.val) 0 3 := fun n =>
      codeText_decimalText (by omega) (Nat.lt_of_lt_of_le n.isLt (by omega))
    have hrows : CodeText "vm_not_found_r" 14 14 := .of_all (by decide) (by decide) (by decide)
    have hidentifiers : CodeText "_i" 2 2 := .of_all (by decide) (by decide) (by decide)
    have hnames : CodeText "_n" 2 2 := .of_all (by decide) (by decide) (by decide)
    have hcode := ((((hrows.append (hcount rows)).append hidentifiers).append
      (hcount identifiers)).append hnames).append (hcount names)
    exact hcode.allowed (by omega) (by omega)
  | guestShutdownFailed result =>
    have hfixed : CodeText "guest_shutdown_execution_failed_" 32 32 :=
      .of_all (by decide) (by decide) (by decide)
    have hnumber : CodeText (decimalText result.toNat) 0 10 :=
      codeText_decimalText (by omega) (Nat.lt_of_lt_of_le result.toNat_lt (by omega))
    exact (hfixed.append hnumber).allowed (by omega) (by omega)
  | rejected value =>
    have hfixed : CodeText "action_rejected_" 16 16 := .of_all (by decide) (by decide) (by decide)
    have hnumber : CodeText (decimalText value.toNat) 0 20 :=
      codeText_decimalText (by omega) (Nat.lt_of_lt_of_le value.toNat_lt (by omega))
    exact (hfixed.append hnumber).allowed (by omega) (by omega)

/-! ## Final reports -/

/-- A report of an end, with a code the control plane allows. -/
structure Report.Final (r : Report) : Prop where
  result : r.result ≠ .running
  code : resultCodeAllowed r.resultCode = true

theorem VmOutcome.final_report (outcome : VmOutcome) (jobId : String) :
    (outcome.report jobId).Final := by
  refine ⟨?_, outcome.resultCode_allowed⟩
  show (if outcome.succeeded = true then Result.succeeded else Result.failed) ≠ .running
  split <;> simp

theorem final_updated (jobId : String) : (updated jobId).Final := ⟨by simp [updated], by show resultCodeAllowed "updated" = true; decide⟩

theorem final_uninstalled (jobId : String) : (uninstalled jobId).Final :=
  ⟨by simp [uninstalled], by show resultCodeAllowed "uninstalled" = true; decide⟩

/-- The final report a phase keeps. -/
def Phase.final? : Phase → Option Report
  | .waiting (.final _ report) _ | .answered (.final _ report) _ | .executed _ report
  | .filing report => some report
  | _ => none

/-- Every report of an end that is kept anywhere is final. -/
structure WellFormed (s : System) : Prop where
  files : ∀ kind report, s.files kind = some report → report.Final
  cycles : ∀ c report, (s.cycles c).final? = some report → report.Final
  updaters : ∀ jobId code, s.updaters jobId = .failing code → resultCodeAllowed code = true
  sent : ∀ request ∈ s.sent, ∀ kind report, request.message = .result kind report →
    report.result ≠ .running → report.Final

theorem final?_afterAnswer {purpose : Purpose} {answer : Answer} {phase : Phase}
    (h : Phase.afterAnswer purpose answer = some phase) : phase.final? = none := by
  cases purpose with
  | artifact a =>
    cases answer with
    | binary sha256 =>
      simp only [Phase.afterAnswer] at h
      split at h
      · split at h
        · cases h
          rfl
        · cases h
      · cases h
    | accepted | rejected | assigned _ => cases h
  | poll =>
    cases answer with
    | assigned a? => cases a? <;> cases h <;> rfl
    | accepted | rejected | binary _ => cases h
  | running a | pending kind report | final a report =>
    cases answer with
    | accepted =>
      cases h
      rfl
    | rejected | assigned _ | binary _ => cases h

theorem final?_afterFailure {phase : Phase} {report : Report}
    (h : phase.afterFailure.final? = some report) : phase.final? = some report := by
  unfold Phase.afterFailure at h
  split at h
  · exact h
  · exact h
  · cases h

theorem final_next {phase : Phase} {purpose : Purpose} (h : phase.next = some purpose)
    (hfinal : ∀ report, phase.final? = some report → report.Final) :
    (∀ connection report, (Phase.waiting purpose connection).final? = some report → report.Final) ∧
      ∀ kind report, purpose.message = .result kind report → report.result ≠ .running →
        report.Final := by
  cases phase with
  | polling =>
    cases h
    exact ⟨fun _ _ h => (nomatch h), fun _ _ h => (nomatch h)⟩
  | assigned a =>
    simp only [Phase.next] at h
    split at h
    · cases h
      exact ⟨fun _ _ h => (nomatch h), fun _ _ h => (nomatch h)⟩
    · cases h
      exact ⟨fun _ _ h => (nomatch h), fun _ _ h hne => by cases h; exact absurd rfl hne⟩
    · cases h
      exact ⟨fun _ _ h => (nomatch h), fun _ _ h hne => by cases h; exact absurd rfl hne⟩
  | staged a =>
    cases h
    exact ⟨fun _ _ h => (nomatch h), fun _ _ h hne => by cases h; exact absurd rfl hne⟩
  | executed a report =>
    cases h
    have hreport := hfinal report rfl
    exact ⟨fun _ _ h => (by cases h; exact hreport), fun _ _ h _ => by cases h; exact hreport⟩
  | idle | checking kind | waiting p n | answered p a | removing kind | started a | filing report =>
    cases h

theorem WellFormed.cycle {s t : System} {c : Nat} {act : CycleAct} {o : Option Observation}
    (h : CycleStep s c act t o) (hs : WellFormed s) : WellFormed t := by
  -- a cycle that keeps no new report
  have hset : ∀ phase : Phase, (∀ report, phase.final? = some report → report.Final) →
      WellFormed (s.setCycle c phase) := by
    intro phase hphase
    refine ⟨hs.files, fun other report hreport => ?_, hs.updaters, hs.sent⟩
    rw [System.cycles_setCycle] at hreport
    split at hreport
    · exact hphase report hreport
    · exact hs.cycles other report hreport
  have hsend : ∀ purpose : Purpose,
      (∀ connection report, (Phase.waiting purpose connection).final? = some report →
        report.Final) →
      (∀ kind report, purpose.message = .result kind report → report.result ≠ .running →
        report.Final) → WellFormed (s.send c purpose) := by
    intro purpose hwaiting hmessage
    obtain ⟨hfiles, hcycles, hupdaters, hsent⟩ := hset (.waiting purpose s.connections)
      (hwaiting s.connections)
    refine ⟨hfiles, hcycles, hupdaters, fun request hrequest kind report hreport hne => ?_⟩
    rcases List.mem_cons.mp hrequest with rfl | hold
    · exact hmessage kind report hreport hne
    · exact hsent request hold kind report hreport hne
  cases h with
  | begin h | launchFailed h hkind | unfiled h | crash => exact hset _ fun _ h => by cases h
  | absent h hfile | keep h =>
    refine hset _ fun report hreport => ?_
    rename_i kind
    cases kind <;> cases hreport
  | pending h hfile =>
    refine hsend _ (fun _ _ h => by cases h) fun kind report hmessage _ => ?_
    cases hmessage
    exact hs.files _ _ hfile
  | send h =>
    obtain ⟨hwaiting, hmessage⟩ := final_next h (hs.cycles c)
    exact hsend _ hwaiting hmessage
  | proceed h hphase =>
    refine hset _ fun report hreport => ?_
    rw [final?_afterAnswer hphase] at hreport
    cases hreport
  | execute outcome h hkind =>
    refine hset _ fun report hreport => ?_
    cases hreport
    exact outcome.final_report _
  | fail => exact hset _ fun report hreport => hs.cycles c report (final?_afterFailure hreport)
  | @remove kind h =>
    obtain ⟨hfiles, hcycles, hupdaters, hsent⟩ := hset (.afterFile kind) (by
      intro report hreport
      cases kind <;> cases hreport)
    refine ⟨fun other report hreport => ?_, hcycles, hupdaters, hsent⟩
    simp only [System.setFile] at hreport
    split at hreport
    · cases hreport
    · exact hfiles other report hreport
  | @file filed h =>
    obtain ⟨hfiles, hcycles, hupdaters, hsent⟩ := hset .idle (fun _ h => by cases h)
    refine ⟨fun other report hreport => ?_, hcycles, hupdaters, hsent⟩
    simp only [System.setFile] at hreport
    split at hreport
    · cases hreport
      exact hs.cycles c filed (by rw [h]; rfl)
    · exact hfiles other report hreport
  | launch h hkind =>
    obtain ⟨hfiles, hcycles, hupdaters, hsent⟩ := hset .idle (fun _ h => by cases h)
    refine ⟨hfiles, hcycles, fun jobId code hcode => ?_, hsent⟩
    simp only [System.setUpdater] at hcode
    split at hcode
    · cases hcode
    · exact hupdaters jobId code hcode

theorem WellFormed.updater {s t : System} {jobId : String} {act : UpdaterAct}
    (h : UpdaterStep s jobId act t) (hs : WellFormed s) : WellFormed t := by
  have hset : ∀ u : Updater, (∀ code, u = .failing code → resultCodeAllowed code = true) →
      WellFormed (s.setUpdater jobId u) := by
    intro u hu
    refine ⟨hs.files, hs.cycles, fun id code hcode => ?_, hs.sent⟩
    simp only [System.setUpdater] at hcode
    split at hcode
    · exact hu code hcode
    · exact hs.updaters id code hcode
  have hfile : ∀ (u : Updater) (report : Report),
      (∀ code, u = .failing code → resultCodeAllowed code = true) → report.Final →
      WellFormed ((s.setUpdater jobId u).setFile .lifecycle (some report)) := by
    intro u report hu hreport
    obtain ⟨hfiles, hcycles, hupdaters, hsent⟩ := hset u hu
    refine ⟨fun kind other hother => ?_, hcycles, hupdaters, hsent⟩
    simp only [System.setFile] at hother
    split at hother
    · cases hother
      exact hreport
    · exact hfiles kind other hother
  cases h with
  | prepared h | finished h | dropped h | crash => exact hset _ fun _ h => by cases h
  | report h =>
    obtain ⟨hfiles, hcycles, hupdaters, hsent⟩ := hset .reporting (fun _ h => by cases h)
    refine ⟨hfiles, hcycles, hupdaters, fun request hrequest kind report hreport hne => ?_⟩
    rcases List.mem_cons.mp hrequest with rfl | hold
    · cases hreport
      exact final_uninstalled jobId
    · exact hsent request hold kind report hreport hne
  | replaced h => exact hfile _ _ (fun _ h => by cases h) (final_updated jobId)
  | @failed code h =>
    exact hfile _ _ (fun _ h => by cases h) ⟨by simp, hs.updaters jobId code h⟩
  | updateFailed h | rollBack h => exact hset _ fun code hcode => by cases hcode; decide

theorem Server.process_second {s t : Server} {now : Time} {message next : Message}
    (h : s.process now message = (t, .inr next)) :
    message = .inventory ∧ next = .inventoryOffered := by
  cases message with
  | inventory =>
    simp only [Server.process] at h
    split at h <;> cases h
    exact ⟨rfl, rfl⟩
  | inventoryOffered =>
    have hanswer := congrArg Prod.snd h
    cases hanswer
  | artifact jobId | result kind report =>
    simp only [Server.process] at h
    split at h
    · have hanswer := congrArg Prod.snd h
      cases hanswer
    · have hanswer := congrArg Prod.snd h
      cases hanswer

theorem WellFormed.step {s t : System} {l : Event × Option Observation} (h : Step s l t)
    (hs : WellFormed s) : WellFormed t := by
  obtain ⟨event, o⟩ := l
  cases event with
  | admin act =>
    simp only [Step, System.step, Option.map_eq_some_iff] at h
    obtain ⟨server, -, h⟩ := h
    cases h
    exact ⟨hs.files, hs.cycles, hs.updaters, hs.sent⟩
  | lose request =>
    cases h
    exact ⟨hs.files, hs.cycles, hs.updaters,
      fun other hother => hs.sent other (List.mem_of_mem_erase hother)⟩
  | updater jobId act =>
    simp only [Step, System.step, Option.map_eq_some_iff] at h
    obtain ⟨u, hupdater, h⟩ := h
    cases h
    exact hs.updater (System.updaterStep hupdater)
  | cycle c act => exact hs.cycle (System.cycleStep h)
  | serve request kept answered now =>
    obtain ⟨hrequest, hupdaters, hfiles, -, hcases⟩ := System.serve_cases h
    have hkept : ∀ other ∈ (if kept = true then s.sent else s.sent.erase request),
        other ∈ s.sent := by
      intro other hother
      split at hother
      · exact hother
      · exact List.mem_of_mem_erase hother
    rcases hcases with ⟨message, hprocess, -, -, hcycles, hsent⟩ |
      ⟨answer, -, -, hsent, hanswered⟩
    · refine ⟨by rw [hfiles]; exact hs.files, by rw [hcycles]; exact hs.cycles,
        by rw [hupdaters]; exact hs.updaters, fun other hother kind report hreport => ?_⟩
      rw [hsent] at hother
      rcases List.mem_cons.mp hother with rfl | hold
      · have hsecond := (Server.process_second hprocess).2
        rw [hsecond] at hreport
        cases hreport
      · exact hs.sent other (hkept other hold) kind report hreport
    · refine ⟨by rw [hfiles]; exact hs.files, fun c report hreport => ?_,
        by rw [hupdaters]; exact hs.updaters,
        fun other hother => hs.sent other (hkept other (by rw [← hsent]; exact hother))⟩
      obtain ⟨-, hcycles⟩ | ⟨c', purpose, -, hwaiting, -, hcycles⟩ := hanswered
      · exact hs.cycles c report (by rw [← hcycles]; exact hreport)
      · rw [hcycles, System.cycles_setCycle] at hreport
        split at hreport
        · refine hs.cycles c' report ?_
          rw [hwaiting]
          cases purpose with
          | final a r => exact hreport
          | pending _ _ | poll | artifact _ | running _ => cases hreport
        · exact hs.cycles c report hreport

theorem System.Initial.wellFormed {s : System} (hs : s.Initial) : WellFormed s := by
  obtain ⟨-, hsent, hidle, habsent, hfiles⟩ := hs
  constructor
  · intro kind report h
    rw [hfiles kind] at h
    cases h
  · intro c report h
    rw [hidle c] at h
    cases h
  · intro jobId code h
    rw [habsent jobId] at h
    cases h
  · intro request h
    rw [hsent] at h
    cases h

end Ipms.Jobs
