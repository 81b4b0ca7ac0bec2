import Ipms.Server.Hgs.Contract
import Ipms.Server.Labels

/-
  Ipms.Server.Hgs.ObservationAgreement

  What the agent proves of a step, the control plane sees proven: the checks
  and the postconditions of both sides agree, up to the characters of the
  build number.
-/

namespace Ipms.Server.Hgs

open Ipms.Lib Ipms.ManagementJson
open Ipms.Agent.Hgs (Object Operation NodeRole Config Observation)
open Agent.Hgs (Job label read_members safeText serviceReady)

/-! ## Texts -/

variable {s : String}

theorem text_of_safeText {maximum minimum maximum' : Nat} {empty : Bool}
    (h : safeText s maximum empty = true)
    (hmin : minimum = 0 ∨ minimum = 1 ∧ empty = false) (hmax : maximum ≤ maximum') :
    text s minimum maximum' = true := by
  simp only [safeText, Bool.and_eq_true, Bool.or_eq_true, bne_iff_ne,
    decide_eq_true_eq] at h
  obtain ⟨⟨hempty, hsize⟩, hchars⟩ := h
  have hlen := Nat.le_trans (len_le_size s) hsize
  simp only [text, Bool.and_eq_true, decide_eq_true_eq]
  refine ⟨⟨?_, Nat.le_trans hlen hmax⟩, hchars⟩
  rcases hmin with rfl | ⟨rfl, rfl⟩
  · exact Nat.zero_le _
  · have hne : s ≠ "" := hempty.resolve_left (by decide)
    refine Nat.one_le_iff_ne_zero.mpr fun hzero => hne ?_
    exact String.toList_eq_nil_iff.mp (List.length_eq_zero_iff.mp hzero)

theorem lower_of_labels (unicode : Unicode) (h : ∀ c ∈ s.toList, NameChar c) :
    lower unicode s = s := by
  unfold lower
  rw [if_pos (List.all_eq_true.mpr fun c hc => decide_eq_true (nameChar_ascii (h c hc)).1)]
  exact asciiLower_of_nameChars h

theorem lower_label (unicode : Unicode) (h : label s = true) :
    lower unicode s = s := lower_of_labels unicode fun c hc => .inr (dnsLabel_chars h c hc)

theorem lower_dns (unicode : Unicode) (h : Agent.Hgs.dns s = true) : lower unicode s = s := by
  simp only [Agent.Hgs.dns, Bool.and_eq_true, List.all_eq_true] at h
  exact lower_of_labels unicode (nameChars_of_labels h.2)

/-- An observation the agent accepts has a build number of digits. -/
def numericBuild (members : Object) : Bool :=
  match Agent.Hgs.text members "os_build" with
  | .ok build => build.toList.all Agent.Gpo.digit
  | .error _ => false

variable {o : Observation}

theorem observationValid_of_agent (h : o.valid = true) :
    observationValid o = o.osBuild.toList.all Agent.Gpo.digit := by
  simp only [Observation.valid, Bool.and_eq_true] at h
  obtain ⟨⟨⟨⟨⟨⟨⟨⟨⟨hbuild, hcomputer⟩, hdomain⟩, hboot⟩, hlow⟩, hhigh⟩, hmode⟩, hservice⟩,
    hsigning⟩, hencryption⟩ := h
  have hbuildText : text o.osBuild 1 16 = true :=
    text_of_safeText hbuild (.inr ⟨rfl, rfl⟩) (by decide)
  have hbounds := hbuildText
  simp only [text, Bool.and_eq_true] at hbounds
  have hnumber : buildNumber o.osBuild = o.osBuild.toList.all Agent.Gpo.digit := by
    unfold buildNumber
    rw [hbounds.1.1, hbounds.1.2]
    rfl
  unfold observationValid configuredThumbprint
  rw [hlow, hhigh, hmode, hbuildText, hsigning, hencryption, hnumber,
    text_of_safeText hcomputer (.inr ⟨rfl, rfl⟩) (show 63 ≤ 255 by decide),
    text_of_safeText hdomain (.inl rfl) (Nat.le_refl 253),
    text_of_safeText hboot (.inr ⟨rfl, rfl⟩) (Nat.le_refl 64),
    text_of_safeText hservice (.inl rfl) (Nat.le_refl 253)]
  simp

theorem validateObservation_of_agent {members : Object}
    (h : Agent.Hgs.validateObservation members = .ok o) : validateObservation (.obj members) =
      if o.osBuild.toList.all Agent.Gpo.digit then .ok o else .error rejected := by
  obtain ⟨hlength, hread, hvalid⟩ := Agent.Hgs.validateObservation_eq_ok.mp h
  have hnames : ∀ name ∈ observationKeys, name ∈ Agent.Hgs.observationNames := by decide
  have hkeys : keysAre members observationKeys = true :=
    keysAre_of_length (by decide) hlength fun name hname =>
      (read_members hread).names name (hnames name hname)
  unfold validateObservation
  dsimp only
  rw [if_pos hkeys, hread]
  dsimp only
  rw [observationValid_of_agent hvalid]

/-! ## Postconditions -/

theorem inDomain_of_agent (unicode : Unicode) {config : Config}
    (hdomain : Agent.Hgs.dns config.domainName = true) (h : Agent.Hgs.inDomain config o = true) :
    inDomain unicode config o = true := by
  simp only [Agent.Hgs.inDomain, Bool.and_eq_true, beq_iff_eq] at h
  simp only [inDomain, Bool.and_eq_true, beq_iff_eq]
  refine ⟨⟨h.1.1, ?_⟩, h.2⟩
  rw [h.1.2]
  exact lower_dns unicode hdomain

theorem configuredAs_of_agent (unicode : Unicode) {config : Config}
    (hservice : label config.serviceName = true)
    (h : Agent.Hgs.configuredAs config o = true) : configuredAs unicode config o = true := by
  simp only [Agent.Hgs.configuredAs, Bool.and_eq_true, beq_iff_eq] at h
  simp only [configuredAs, Bool.and_eq_true, beq_iff_eq]
  refine ⟨⟨?_, h.1.2⟩, h.2⟩
  rw [h.1.1]
  exact lower_label unicode hservice

variable {j : Agent.Hgs.Job}

theorem names_of_valid (hj : j.valid = true) :
    Agent.Hgs.dns j.config.domainName = true ∧ label j.config.serviceName = true := by
  simp only [Job.valid, Agent.Hgs.Config.valid, Bool.and_eq_true] at hj
  exact ⟨by tauto, by tauto⟩

theorem ready_of_agent (unicode : Unicode) (hj : j.valid = true)
    (h : serviceReady j o = true) :
    postconditionHolds unicode .initializeHgs j.config o = true ∧
      (j.operation = .verify → o.serviceHealthy = true ∧ o.keyAccessVerified = true) := by
  obtain ⟨hdomain, hservice⟩ := names_of_valid hj
  simp only [serviceReady, Bool.and_eq_true] at h
  obtain ⟨⟨⟨⟨⟨⟨⟨⟨⟨hrole, hservinit⟩, hmode⟩, hin⟩, hpending⟩, hsigning⟩, hencryption⟩, hconfigured⟩,
    hkey⟩, hverify⟩ := h
  constructor
  · simp only [postconditionHolds, Bool.and_eq_true]
    exact ⟨⟨⟨⟨⟨⟨⟨⟨hpending, hrole⟩, inDomain_of_agent unicode hdomain hin⟩, hservinit⟩, hmode⟩, hkey⟩,
      hsigning⟩, hencryption⟩, configuredAs_of_agent unicode hservice hconfigured⟩
  · intro hop
    rw [hop] at hverify
    simp only [bne_self_eq_false, Bool.false_or, Bool.and_eq_true] at hverify
    exact hverify.1

/-- What the agent proves of a step holds for the control plane. -/
theorem postconditionHolds_of_agent (unicode : Unicode) {before after : Object}
    (hj : j.valid = true) (ho : Agent.Hgs.validateObservation after = .ok o)
    (hpost : Agent.Hgs.postcondition j before after = .ok true) :
    postconditionHolds unicode j.operation j.config o = true := by
  unfold Agent.Hgs.postcondition at hpost
  rw [bind_eq_ok] at hpost
  obtain ⟨o', ho', hpost⟩ := hpost
  cases ho.symm.trans ho'
  cases hop : j.operation with
  | inspect => rfl
  | installRole =>
    rw [hop] at hpost
    exact pure_eq_ok.mp hpost
  | createForest | joinNode =>
    rw [hop] at hpost
    exact inDomain_of_agent unicode (names_of_valid hj).1 (pure_eq_ok.mp hpost)
  | reboot =>
    rw [hop] at hpost
    dsimp only at hpost
    split at hpost
    · cases hpost
    · obtain ⟨boot, _, hpost⟩ := bind_eq_ok.mp hpost
      exact (Bool.and_eq_true _ _ ▸ pure_eq_ok.mp hpost).2
  | initializeHgs =>
    rw [hop] at hpost
    exact (ready_of_agent unicode hj (pure_eq_ok.mp hpost)).1
  | verify =>
    rw [hop] at hpost
    obtain ⟨hready, hverify⟩ := ready_of_agent unicode hj (pure_eq_ok.mp hpost)
    obtain ⟨hhealthy, hkey⟩ := hverify hop
    simp only [postconditionHolds, Bool.and_eq_true] at hready ⊢
    exact ⟨⟨hready, hhealthy⟩, hkey⟩

/-- A step the agent proves is accepted by the control plane exactly when the build number of
its observation consists of digits. -/
theorem postcondition_agrees_iff (unicode : Unicode) {j : Agent.Hgs.Job} {before after : Object}
    (hj : j.valid = true) (hpost : Agent.Hgs.postcondition j before after = .ok true) :
    ((validateObservation (.obj after)).isOk = true ∧
        postcondition unicode j.operation j.config (.obj after) = .ok true) ↔
      numericBuild after = true := by
  obtain ⟨o, ho⟩ : ∃ o, Agent.Hgs.validateObservation after = .ok o := by
    unfold Agent.Hgs.postcondition at hpost
    obtain ⟨o, ho, _⟩ := bind_eq_ok.mp hpost
    exact ⟨o, ho⟩
  have hholds := postconditionHolds_of_agent unicode hj ho hpost
  have hnumeric : numericBuild after = o.osBuild.toList.all Agent.Gpo.digit := by
    obtain ⟨_, hread, _⟩ := Agent.Hgs.validateObservation_eq_ok.mp ho
    unfold numericBuild
    rw [(read_members hread).osBuild]
  unfold postcondition
  rw [validateObservation_of_agent ho, hnumeric]
  cases o.osBuild.toList.all Agent.Gpo.digit with
  | true =>
    rw [if_pos rfl]
    refine iff_of_true ⟨rfl, ?_⟩ rfl
    exact bind_eq_ok.mpr ⟨o, rfl, pure_eq_ok.mpr hholds⟩
  | false =>
    rw [if_neg Bool.false_ne_true]
    exact iff_of_false (fun h => nomatch h.1) Bool.false_ne_true

/-- The tables of ASCII text alone. -/
def asciiTables : Unicode where
  lower s := String.ofList (s.toList.map Char.toLower)
  casefold s := String.ofList (s.toList.map Char.toLower)
  nfc := id
  decimal c := if Agent.Gpo.digit c then some (c.toNat - 48) else none

/-- An installed role that both sides see proven. -/
theorem postcondition_agrees_sample :
    (validateObservation (.obj (Agent.Hgs.sampleObservation false))).isOk = true ∧
      postcondition asciiTables .installRole Agent.Hgs.sampleConfig
        (.obj (Agent.Hgs.sampleObservation false)) = .ok true :=
  (@postcondition_agrees_iff asciiTables (Agent.Hgs.sampleJob .installRole) [] _ (by decide +kernel)
    (by decide +kernel)).mpr (by decide +kernel)

/-- An inspection with a build number that has a revision is proven for the agent only. -/
theorem revision_rejected :
    (Agent.Hgs.sampleJob .inspect).valid = true ∧
      Agent.Hgs.postcondition (Agent.Hgs.sampleJob .inspect) []
        (Agent.Hgs.sampleObservation false "20348.1") = .ok true ∧
      ¬(validateObservation (.obj (Agent.Hgs.sampleObservation false "20348.1"))).isOk = true :=
  ⟨by decide +kernel, by decide +kernel, by decide +kernel⟩

end Ipms.Server.Hgs
