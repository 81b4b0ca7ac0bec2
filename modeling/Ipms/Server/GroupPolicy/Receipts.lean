import Ipms.Server.GroupPolicy.Watermark

/-
  Ipms.Server.GroupPolicy.Receipts

  The receipts of one enrollment.  Whatever was stored before, the first receipt
  leaves a watermark that can be read; from then on every receipt moves its
  clocks forward, and what is shown stands at the highest of them.
-/

namespace Ipms.Server.GroupPolicy

open Ipms.ManagementJson Ipms.Lib Ipms.Crypto
open Option (all_eq_true any_eq_true any_some bind_eq_bind bind_eq_some_iff bind_some getD_some guard_eq_some' map map_eq_some_iff pure_def some)

variable {unicode : Unicode} {e : Guid} {w w' : Watermark} {now : Datetime}

theorem clockSkew_lt : clockSkew < dayLength := by decide

/-! ## A watermark that can be read -/

/-- What the reading of a watermark checks. -/
structure Watermark.Valid (w : Watermark) (e : Guid) : Prop where
  enrollment : w.enrollmentId = e.val
  identity : sha w.identitySha256 = true
  guid : ∀ g, w.domainGuid = some g → canonicalGuid (.str g) = some g
  hash : ∀ h, w.reportSha256 = some h → sha h = true
  paired : w.highestObserved.isSome = w.reportSha256.isSome
  bounded : ∃ latest, w.recordedAt.later clockSkew = some latest ∧
    notAfter w.highestObserved latest = true ∧ notAfter w.blockedThrough latest = true

theorem utcTimestamp_timestamp (t : Datetime) : utcTimestamp (timestamp t) = some t := by
  unfold timestamp utcTimestamp
  dsimp only
  rw [String.toList_ofList]
  exact t.read_text

theorem nullable_time (t : Option Datetime) : nullable utcTimestamp (timeOrNull t) = some t := by
  cases t with
  | none => rfl
  | some t =>
    unfold nullable
    rw [if_neg (by exact fun h => nomatch h)]
    exact congrArg (map some) (utcTimestamp_timestamp t)

theorem nullable_text {read : Value → Option String} {s : Option String}
    (h : ∀ t, s = some t → read (.str t) = some t) : nullable read (orNull s) = some s := by
  cases s with
  | none => rfl
  | some t =>
    unfold nullable
    rw [if_neg (by exact fun h => nomatch h)]
    exact congrArg (map some) (h t rfl)

variable {s : String}

theorem shaText_str (h : sha s = true) : shaText (.str s) = some s := if_pos h

theorem watermark_toJson (h : w.Valid e) : watermark w.toJson e.val = some w := by
  obtain ⟨latest, hlatest, hhighest, hblocked⟩ := h.bounded
  have hguid : canonicalGuid (.str w.enrollmentId) = some w.enrollmentId := by
    rw [h.enrollment]
    exact e.property
  unfold watermark
  refine bind_eq_some_iff.mpr ⟨_, rfl, bind_eq_some_iff.mpr
    ⟨(), (guard_eq_some' _).mpr (by simp [keysAre, watermarkFields]), bind_eq_some_iff.mpr
      ⟨(), (guard_eq_some' _).mpr rfl, ?_⟩⟩⟩
  refine bind_eq_some_iff.mpr ⟨_, rfl, bind_eq_some_iff.mpr ⟨_, hguid, ?_⟩⟩
  refine bind_eq_some_iff.mpr ⟨(), (guard_eq_some' _).mpr h.enrollment, ?_⟩
  refine bind_eq_some_iff.mpr ⟨_, rfl, bind_eq_some_iff.mpr
    ⟨_, shaText_str h.identity, ?_⟩⟩
  refine bind_eq_some_iff.mpr ⟨_, rfl, bind_eq_some_iff.mpr
    ⟨_, nullable_text h.guid, ?_⟩⟩
  refine bind_eq_some_iff.mpr ⟨_, rfl, bind_eq_some_iff.mpr ⟨_, nullable_time _, ?_⟩⟩
  refine bind_eq_some_iff.mpr ⟨_, rfl, bind_eq_some_iff.mpr ⟨_, nullable_time _, ?_⟩⟩
  refine bind_eq_some_iff.mpr ⟨_, rfl, bind_eq_some_iff.mpr
    ⟨_, utcTimestamp_timestamp _, ?_⟩⟩
  refine bind_eq_some_iff.mpr ⟨_, hlatest, bind_eq_some_iff.mpr ⟨_, rfl, ?_⟩⟩
  refine bind_eq_some_iff.mpr
    ⟨_, nullable_text (fun t ht => shaText_str (h.hash t ht)), ?_⟩
  refine bind_eq_some_iff.mpr ⟨(), (guard_eq_some' _).mpr h.paired, ?_⟩
  exact bind_eq_some_iff.mpr ⟨(), (guard_eq_some' _).mpr ⟨hhighest, hblocked⟩, rfl⟩

variable {value : Value}

theorem shaText_eq_some (h : shaText value = some s) : sha s = true := by
  cases value with
  | str t =>
    unfold shaText at h
    dsimp only at h
    split at h
    · rename_i ht
      exact some.inj h ▸ ht
    · cases h
  | _ => cases h

theorem nullable_eq_some {α : Type} {read : Value → Option α} {o : Option α}
    (h : nullable read value = some o) : ∀ a, o = some a → read value = some a := by
  unfold nullable at h
  rintro a rfl
  split at h
  · cases h
  · obtain ⟨b, hb, heq⟩ := map_eq_some_iff.mp h
    exact some.inj heq ▸ hb

/-- What is read is valid. -/
theorem watermark_valid (h : watermark value e.val = some w) : w.Valid e := by
  unfold watermark at h
  obtain ⟨_, -, h⟩ := bind_eq_some_iff.mp h
  obtain ⟨_, -, h⟩ := bind_eq_some_iff.mp h
  obtain ⟨_, -, h⟩ := bind_eq_some_iff.mp h
  obtain ⟨_, -, h⟩ := bind_eq_some_iff.mp h
  obtain ⟨enrollment, -, h⟩ := bind_eq_some_iff.mp h
  obtain ⟨_, henrollment, h⟩ := bind_eq_some_iff.mp h
  obtain ⟨_, -, h⟩ := bind_eq_some_iff.mp h
  obtain ⟨identity, hidentity, h⟩ := bind_eq_some_iff.mp h
  obtain ⟨_, -, h⟩ := bind_eq_some_iff.mp h
  obtain ⟨guid, hguid, h⟩ := bind_eq_some_iff.mp h
  obtain ⟨_, -, h⟩ := bind_eq_some_iff.mp h
  obtain ⟨highest, -, h⟩ := bind_eq_some_iff.mp h
  obtain ⟨_, -, h⟩ := bind_eq_some_iff.mp h
  obtain ⟨blocked, -, h⟩ := bind_eq_some_iff.mp h
  obtain ⟨_, -, h⟩ := bind_eq_some_iff.mp h
  obtain ⟨recorded, -, h⟩ := bind_eq_some_iff.mp h
  obtain ⟨latest, hlatest, h⟩ := bind_eq_some_iff.mp h
  obtain ⟨_, -, h⟩ := bind_eq_some_iff.mp h
  obtain ⟨hash, hhash, h⟩ := bind_eq_some_iff.mp h
  obtain ⟨_, hpaired, h⟩ := bind_eq_some_iff.mp h
  obtain ⟨_, hbounded, h⟩ := bind_eq_some_iff.mp h
  obtain rfl := some.inj h
  rw [guard_eq_some'] at henrollment hpaired hbounded
  obtain ⟨hhighest, hblocked⟩ := hbounded
  refine ⟨henrollment, shaText_eq_some hidentity, fun g hg => ?_, fun s hs => ?_, hpaired, latest, hlatest,
    hhighest, hblocked⟩
  · have hread := nullable_eq_some hguid g hg
    exact canonicalGuid_eq_some hread ▸ hread
  · exact shaText_eq_some (nullable_eq_some hhash s hs)

theorem sha_sha256Json (v : Value) : sha (sha256Json v) = true := digest_sha256 (asciiJson v)

variable {context : Value}

theorem identityOf_sha (h : identityOf context = some s) : sha s = true := by
  unfold identityOf at h
  obtain ⟨entries, _, heq⟩ := bind_eq_some_iff.mp h
  exact some.inj heq ▸ sha_sha256Json _

variable {report : Value}

theorem reportedDomain_canonical {g : String} (h : reportedDomain report = some g) :
    canonicalGuid (.str g) = some g := by
  obtain ⟨value, _, hvalue⟩ := bind_eq_some_iff.mp h
  exact canonicalGuid_eq_some hvalue ▸ hvalue

variable {t : Datetime}

theorem later_max {s u v : Datetime} (hs : s.later clockSkew = some u)
    (ht : t.later clockSkew = some v) :
    ∃ latest, (max s t).later clockSkew = some latest ∧ u ≤ latest ∧ v ≤ latest := by
  rcases le_total s t with hle | hle
  · rw [max_eq_right hle]
    exact ⟨v, ht, Datetime.later_mono clockSkew_lt hle hs ht, le_refl v⟩
  · rw [max_eq_left hle]
    exact ⟨u, hs, le_refl u, Datetime.later_mono clockSkew_lt hle ht hs⟩

variable {bound : Option Datetime}

theorem notAfter_iff : notAfter bound t = true ↔ ∀ b, bound = some b → b ≤ t := by
  unfold notAfter
  rw [all_eq_true]
  exact forall₂_congr fun b _ => decide_eq_true_iff

theorem beyond_iff : beyond t bound = true ↔ ∀ b, bound = some b → b < t := by
  unfold beyond
  rw [all_eq_true]
  exact forall₂_congr fun b _ => decide_eq_true_iff

theorem notAfter_mono {s : Datetime} (h : notAfter bound s = true) (hle : s ≤ t) :
    notAfter bound t = true := by
  rw [notAfter_iff] at h ⊢
  exact fun b hb => le_trans (h b hb) hle

variable {previous : Value}

theorem legacyWatermark_valid (h : legacyWatermark unicode previous e.val now = some w) :
    w.Valid e := by
  unfold legacyWatermark at h
  simp only [bind_eq_bind, bind_eq_some_iff, guard_eq_some', pure_def,
    some.injEq] at h
  obtain ⟨context, _, _, _, _, _, _, _, _, _, _, _, _, _, report, _, observed, _, _, _, received, _,
    latest, hlatest, _, hobserved, _, hnow, _, _, identity, hidentity, rfl⟩ := h
  obtain ⟨bound, hbound, _, hle⟩ := later_max hnow hlatest
  have hbounded : notAfter (some observed) bound = true := by
    rw [notAfter_iff]
    intro t ht
    exact some.inj ht ▸ le_trans hobserved hle
  refine ⟨rfl, identityOf_sha hidentity, fun g hg => reportedDomain_canonical hg, ?_, rfl, bound, hbound,
    hbounded, ?_⟩
  · rintro s hs
    exact some.inj hs ▸ sha_sha256Json _
  · dsimp only
    split
    · exact hbounded
    · rfl

theorem startingWatermark_valid {previous : Value} {context : Context} {latest : Datetime}
    (hcontext : context.enrollmentId = e) (hnow : now.later clockSkew = some latest) :
    (startingWatermark unicode previous context now).Valid e := by
  subst hcontext
  have hblank : (Watermark.blank context now).Valid context.enrollmentId :=
    ⟨rfl, sha_sha256Json _, (fun _ h => nomatch h), (fun _ h => nomatch h), rfl, latest, hnow, rfl, rfl⟩
  unfold startingWatermark
  cases hstored : storedWatermark unicode previous context now with
  | some w =>
    rw [getD_some]
    unfold storedWatermark at hstored
    split at hstored
    · cases hstored
      exact hblank
    · split at hstored
      · exact watermark_valid hstored
      · split at hstored
        · exact legacyWatermark_valid hstored
        · cases hstored
          exact hblank
    · cases hstored
  | none =>
    rw [Option.getD_none]
    cases hlegacy : legacyWatermark unicode previous context.enrollmentId.val now with
    | some w => exact legacyWatermark_valid hlegacy
    | none => exact hblank

/-! ## One receipt -/

/-- A clock that is not behind another. -/
def NotBehind (bound bound' : Option Datetime) : Prop :=
  ∀ t, bound = some t → ∃ t', bound' = some t' ∧ t ≤ t'

theorem NotBehind.refl (bound : Option Datetime) : NotBehind bound bound := fun t h => ⟨t, h, le_refl t⟩

theorem NotBehind.trans {a b c : Option Datetime} (h : NotBehind a b) (h' : NotBehind b c) :
    NotBehind a c := by
  intro t ht
  obtain ⟨u, hu, hle⟩ := h t ht
  obtain ⟨v, hv, hle'⟩ := h' u hu
  exact ⟨v, hv, le_trans hle hle'⟩

theorem notBehind_laterOf_left (a b : Option Datetime) : NotBehind a (laterOf a b) := by
  rintro t rfl
  cases b with
  | none => exact ⟨t, rfl, le_refl t⟩
  | some u => exact ⟨max t u, rfl, le_max_left t u⟩

theorem notAfter_laterOf {a b : Option Datetime} (ha : notAfter a t = true)
    (hb : notAfter b t = true) : notAfter (laterOf a b) t = true := by
  cases a with
  | none => exact hb
  | some u =>
    cases b with
    | none => exact ha
    | some v =>
      rw [notAfter_iff] at ha hb ⊢
      intro m hm
      exact some.inj hm ▸ max_le (ha u rfl) (hb v rfl)

variable {blocked observed : Option Datetime} {hash : Option String} {clears : Bool}

theorem barrier_notBehind (h : barrier w observed hash clears now = .ok blocked) :
    NotBehind w.blockedThrough blocked := by
  unfold barrier at h
  split at h
  · split at h
    · cases h
    · cases h
      exact (notBehind_laterOf_left _ _).trans (notBehind_laterOf_left _ _)
  · split at h
    · cases h
      exact notBehind_laterOf_left _ _
    · cases h
      exact .refl _

variable {latest : Datetime}

theorem barrier_bounded {bound : Datetime} (h : barrier w observed hash clears now = .ok blocked)
    (hnow : now.later clockSkew = some latest) (hle : latest ≤ bound)
    (hhighest : notAfter w.highestObserved bound = true)
    (hblocked : notAfter w.blockedThrough bound = true) : notAfter blocked bound = true := by
  unfold barrier at h
  rw [hnow] at h
  split at h
  · cases h
    have hskew : notAfter (some latest) bound = true :=
      notAfter_iff.mpr fun t ht => some.inj ht ▸ hle
    exact notAfter_laterOf (notAfter_laterOf hblocked hhighest) hskew
  · split at h
    · cases h
      exact notAfter_laterOf hblocked hhighest
    · cases h
      exact hblocked

theorem advance_highest (incoming : Incoming) (observed blocked : Option Datetime) :
    NotBehind w.highestObserved (w.advance incoming observed blocked now).highestObserved ∧
      NotBehind observed (w.advance incoming observed blocked now).highestObserved := by
  unfold Watermark.advance
  dsimp only
  cases observed with
  | none => exact ⟨.refl _, (fun _ h => nomatch h)⟩
  | some t =>
    rw [any_some]
    split
    · rename_i hbeyond
      refine ⟨fun u hu => ⟨t, rfl, le_of_lt (beyond_iff.mp hbeyond u hu)⟩, .refl _⟩
    · rename_i hno
      refine ⟨.refl _, fun u hu => ?_⟩
      rw [beyond_iff] at hno
      push Not at hno
      obtain ⟨highest, hhighest, hle⟩ := hno
      exact ⟨highest, hhighest, some.inj hu ▸ hle⟩

variable {incoming : Incoming}

/-- A watermark stays valid through a receipt. -/
theorem advance_valid (h : w.Valid e) (hnow : now.later clockSkew = some latest)
    (hobserved : notAfter observed latest = true)
    (hreport : observed.isSome = incoming.report.isSome)
    (hblocked : barrier w observed hash clears now = .ok blocked) :
    (w.advance incoming observed blocked now).Valid e := by
  obtain ⟨stored, hstored, hhighest, hbarrier⟩ := h.bounded
  obtain ⟨bound, hbound, hle, hle'⟩ := later_max hstored hnow
  have hold := notAfter_mono hhighest hle
  refine ⟨h.enrollment, sha_sha256Json _, ?_, ?_, ?_, bound, hbound, ?_,
    barrier_bounded hblocked hnow hle' hold (notAfter_mono hbarrier hle)⟩
  · intro g hg
    unfold Watermark.advance at hg
    dsimp only at hg
    split at hg
    · obtain ⟨report, _, hguid⟩ := bind_eq_some_iff.mp hg
      exact reportedDomain_canonical hguid
    · split at hg
      · cases hg
      · exact h.guid g hg
  · intro s hs
    unfold Watermark.advance at hs
    dsimp only at hs
    split at hs
    · obtain ⟨report, _, rfl⟩ := map_eq_some_iff.mp hs
      exact sha_sha256Json report
    · exact h.hash s hs
  · unfold Watermark.advance
    dsimp only
    split
    · rw [hreport, Option.isSome_map]
    · exact h.paired
  · unfold Watermark.advance
    dsimp only
    split
    · exact notAfter_mono hobserved hle'
    · exact hold

/-! ## What is stored -/

def Shows (snapshot report : Value) : Prop := snapshot.get? "group_policy" = some report

/-- A snapshot with a readable watermark that proves the report it shows. -/
structure Recorded (e : Guid) (snapshot : Value) (w : Watermark) : Prop where
  stored : snapshot.get? "group_policy_watermark" = some w.toJson
  valid : w.Valid e
  shown : ∀ report, Shows snapshot report → ∃ context,
    snapshot.get? "group_policy_context" = some context ∧ watermarkMatchesReport w report context = true

theorem previousReport_eq_some {shown : Value × Value}
    (h : previousReport unicode previous w now = some shown) :
    Shows previous shown.1 ∧ watermarkMatchesReport w shown.1 shown.2 = true := by
  unfold previousReport at h
  simp only [bind_eq_bind, bind_eq_some_iff, guard_eq_some', pure_def,
    some.injEq] at h
  obtain ⟨context, _, _, _, _, _, value, hvalue, _, _, report, hvalid, _, _, _, _, _, _, _, _, _, _, _, _,
    _, _, _, hmatches, rfl⟩ := h
  obtain ⟨rfl, _⟩ := validateGroupPolicy_facts hvalid
  exact ⟨hvalue, hmatches⟩

variable {snapshot : Value}

theorem preserve_eq_ok (h : preserveNewerGroupPolicy unicode previous incoming now = .ok snapshot) :
    let w := startingWatermark unicode previous incoming.context now
    let observed := incoming.report.bind observedAt
    let hash := incoming.report.map sha256Json
    ∃ clears blocked, barrier w observed hash clears now = .ok blocked ∧
      (clears = false → incoming.report.isSome = true ∧
        incoming.context.identity = w.identitySha256 ∧
        otherDomain w (incoming.report.bind reportedDomain) = false) ∧
      snapshot = snapshotOf (if clears then none
          else accepted w (previousReport unicode previous w now) incoming observed blocked)
        (w.advance incoming observed blocked now) := by
  unfold preserveNewerGroupPolicy at h
  dsimp only at h ⊢
  obtain ⟨blocked, hblocked, h⟩ := bind_eq_ok.mp h
  rw [pure_eq_ok] at h
  refine ⟨_, blocked, hblocked, fun hclears => ?_, h.symm⟩
  simp only [Bool.or_eq_false_iff, bne_eq_false_iff_eq, Option.isNone_eq_false_iff] at hclears
  exact ⟨hclears.1.2, hclears.2.1, hclears.2.2⟩

theorem watermark_snapshotOf (shown : Option (Value × Value)) (w : Watermark) :
    (snapshotOf shown w).get? "group_policy_watermark" = some w.toJson := by
  rcases shown with _ | ⟨report, context⟩ <;> rfl

theorem shows_snapshotOf {shown : Option (Value × Value)} (h : Shows (snapshotOf shown w) report) :
    ∃ context, shown = some (report, context) ∧
      (snapshotOf shown w).get? "group_policy_context" = some context := by
  rcases shown with _ | ⟨report', context⟩
  · cases h
  · cases h
    exact ⟨context, rfl, rfl⟩

theorem watermarkMatchesReport_iff :
    watermarkMatchesReport w report context = true ↔ ∃ observed, observedAt report = some observed ∧
      identityOf context = some w.identitySha256 ∧ w.highestObserved = some observed ∧
      w.reportSha256 = some (sha256Json report) ∧ beyond observed w.blockedThrough = true ∧
      (report.get? "domain_guid" = some .null ∨ report.get? "domain_guid" = some (orNull w.domainGuid)) ∧
      ∃ received, (context.get? "received_at").bind utcTimestamp = some received ∧
        received ≤ w.recordedAt := by
  unfold watermarkMatchesReport
  simp only [any_eq_true, Bool.and_eq_true, Bool.or_eq_true, beq_iff_eq, decide_eq_true_eq,
    and_assoc]
  refine exists_congr fun observed => and_congr_right fun _ => ?_
  refine and_congr_right fun _ => and_congr_right fun _ => and_congr_right fun _ =>
    and_congr_right fun _ => and_congr_left fun _ => or_congr_right ?_
  constructor
  · rintro ⟨guid, hguid, rfl⟩
    exact hguid
  · intro hguid
    exact ⟨_, hguid, rfl⟩

theorem accepted_cases {prior : Option (Value × Value)}
    (h : accepted w prior incoming observed blocked = some (report, context)) :
    (∃ t, observed = some t ∧ incoming.report = some report ∧ context = incoming.context.toJson ∧
        beyond t w.highestObserved = true ∧ beyond t blocked = true) ∨
      (observed.any fun t => beyond t w.highestObserved && beyond t blocked) = false ∧
        prior = some (report, context) ∧
        ∃ t, w.highestObserved = some t ∧ beyond t blocked = true := by
  unfold accepted at h
  split at h
  · rename_i hnew
    obtain ⟨t, ht, hbeyond⟩ := (any_eq_true _ _).mp hnew
    obtain ⟨report', hreport, heq⟩ := map_eq_some_iff.mp h
    cases heq
    rw [Bool.and_eq_true] at hbeyond
    exact .inl ⟨t, ht, hreport, rfl, hbeyond.1, hbeyond.2⟩
  · rename_i hold
    split at h
    · rename_i hprior
      obtain ⟨t, ht, hbeyond⟩ := (any_eq_true _ _).mp hprior
      exact .inr ⟨Bool.eq_false_iff.mpr hold, h, t, ht, hbeyond⟩
    · cases h

theorem receivedAt_toJson (c : Context) :
    (c.toJson.get? "received_at").bind utcTimestamp = some c.receivedAt := by
  rw [show c.toJson.get? "received_at" = some (timestamp c.receivedAt) from rfl, bind_some]
  exact utcTimestamp_timestamp _

theorem incoming_matches (hreport : incoming.report = some report) (hvalid : Validated now report)
    (hobserved : observedAt report = some t) (hreceived : incoming.context.receivedAt = now)
    (hhigher : beyond t w.highestObserved = true) (hblocked : beyond t blocked = true) :
    watermarkMatchesReport (w.advance incoming (some t) blocked now) report
      incoming.context.toJson = true := by
  rw [watermarkMatchesReport_iff]
  unfold Watermark.advance
  dsimp only
  rw [any_some, if_pos hhigher, if_pos hhigher, hreport]
  refine ⟨t, hobserved, identityOf_toJson _, rfl, rfl, hblocked, ?_, now, ?_, le_max_right _ _⟩
  · rcases hvalid.guid with ⟨hnull, _⟩ | ⟨guid, hguid, hdomain⟩
    · exact .inl hnull
    · rw [bind_some, hdomain]
      exact .inr hguid
  · rw [receivedAt_toJson, hreceived]

/-- A report that was proven before and is kept is proven by the new watermark. -/
theorem prior_matches (hmatches : watermarkMatchesReport w report context = true)
    (hidentity : incoming.context.identity = w.identitySha256)
    (hdomain : otherDomain w (incoming.report.bind reportedDomain) = false)
    (hhighest : w.highestObserved = some t) (hblocked : beyond t blocked = true)
    (hold : (observed.any fun t => beyond t w.highestObserved && beyond t blocked) = false) :
    watermarkMatchesReport (w.advance incoming observed blocked now) report context = true := by
  obtain ⟨o, ho, hid, hhigh, hsha, _, hguid, received, hreceived, hle⟩ :=
    watermarkMatchesReport_iff.mp hmatches
  obtain rfl : t = o := some.inj (hhighest.symm.trans hhigh)
  -- a higher report would have been accepted instead
  have hhigher : (observed.any fun t => beyond t w.highestObserved) = false := by
    rw [Option.any_eq_false] at hold ⊢
    intro u hu
    by_contra hbeyond
    rw [Bool.not_eq_false] at hbeyond
    have hlt := beyond_iff.mp hbeyond t hhighest
    have hboth : (beyond u w.highestObserved && beyond u blocked) = true :=
      Bool.and_eq_true_iff.mpr ⟨hbeyond, beyond_iff.mpr fun b hb =>
        lt_trans (beyond_iff.mp hblocked b hb) hlt⟩
    rw [hold u hu] at hboth
    cases hboth
  rw [watermarkMatchesReport_iff]
  unfold Watermark.advance
  dsimp only
  rw [hhigher]
  refine ⟨t, ho, ?_, hhighest, hsha, hblocked, ?_, received, hreceived, le_trans hle (le_max_left _ _)⟩
  · rw [hidentity]
    exact hid
  · cases hw : w.domainGuid with
    | none =>
      rw [hw] at hguid
      exact .inl (hguid.elim id id)
    | some g =>
      rw [hw] at hguid
      refine hguid.imp id fun hg => ?_
      rw [hg]
      split
      · rename_i hsome
        unfold otherDomain at hdomain
        rw [hsome, hw] at hdomain
        have hsame : incoming.report.bind reportedDomain = some g := by simpa using hdomain
        rw [hsame]
      · rw [if_neg (not_not.mpr hidentity)]

/-- One receipt: it leaves a watermark that can be read and that proves what is shown, it lowers no
clock, and what it shows was shown before or is beyond all clocks. -/
theorem confirmInventory_step {r : Receipt}
    (h : confirmInventory unicode e previous r = .ok snapshot) : ∃ w', Recorded e snapshot w' ∧
      (∀ w, Recorded e previous w → NotBehind w.highestObserved w'.highestObserved ∧
        NotBehind w.blockedThrough w'.blockedThrough ∧
        ∀ report, Shows snapshot report → Shows previous report ∨
          ∃ t, observedAt report = some t ∧ beyond t w.highestObserved = true) ∧
      ∀ report, r.report = some report → NotBehind (observedAt report) w'.highestObserved := by
  unfold confirmInventory at h
  obtain ⟨report, hreport, h⟩ := bind_eq_ok.mp h
  have hvalidated : ∀ v, report = some v → r.report = some v ∧ Validated r.now v := by
    rintro v rfl
    unfold Receipt.validated at hreport
    split at hreport
    · cases hreport
    · rename_i value hvalue
      split at hreport
      · rename_i v' hv
        obtain ⟨rfl, hvalid⟩ := validateGroupPolicy_facts hv
        cases hreport
        exact ⟨hvalue, hvalid⟩
      · cases hreport
  obtain ⟨clears, blocked, hblocked, hkept, rfl⟩ := preserve_eq_ok h
  have hlatest : ∃ latest, r.now.later clockSkew = some latest ∧
      notAfter (report.bind observedAt) latest = true := by
    cases report with
    | some v =>
      obtain ⟨observed, latest, hobserved, hlatest, hle⟩ := (hvalidated v rfl).2.observed
      refine ⟨latest, hlatest, ?_⟩
      rw [bind_some, hobserved, notAfter_iff]
      exact fun t ht => some.inj ht ▸ hle
    | none =>
      cases hnow : r.now.later clockSkew with
      | some latest => exact ⟨latest, rfl, rfl⟩
      | none =>
        -- without a report everything is cleared, which needs the skew
        cases clears with
        | false => exact absurd (hkept rfl).1 Bool.false_ne_true
        | true =>
          unfold barrier at hblocked
          rw [if_pos rfl, hnow] at hblocked
          cases hblocked
  obtain ⟨latest, hlatest, hobserved⟩ := hlatest
  have hsome : (report.bind observedAt).isSome = report.isSome := by
    cases report with
    | none => rfl
    | some v =>
      obtain ⟨observed, _, hv, _⟩ := (hvalidated v rfl).2.observed
      rw [bind_some, hv]
      rfl
  have hstart := @startingWatermark_valid unicode e r.now previous (r.context e) latest rfl hlatest
  refine ⟨_, ⟨watermark_snapshotOf _ _, advance_valid hstart hlatest hobserved hsome hblocked, ?_⟩, ?_, ?_⟩
  · intro shown hshown
    obtain ⟨context, haccepted, hcontext⟩ := shows_snapshotOf hshown
    refine ⟨context, hcontext, ?_⟩
    cases clears with
    | true => cases haccepted
    | false =>
      obtain ⟨hreport', hidentity, hdomain⟩ := hkept rfl
      rw [if_neg Bool.false_ne_true] at haccepted
      rcases accepted_cases haccepted with ⟨t, ht, hnew, rfl, hhigher, hbeyond⟩ |
        ⟨hold, hprior, t, hhighest, hbeyond⟩
      · obtain ⟨v, hv, hvt⟩ := bind_eq_some_iff.mp ht
        obtain rfl : v = shown := some.inj (hv.symm.trans hnew)
        rw [ht]
        exact incoming_matches hnew (hvalidated _ hnew).2 hvt rfl hhigher hbeyond
      · exact prior_matches (previousReport_eq_some hprior).2 hidentity hdomain hhighest hbeyond hold
  · intro w hw
    have hstarting : startingWatermark unicode previous (r.context e) r.now = w := by
      have hread : storedWatermark unicode previous (r.context e) r.now = some w := by
        have hstored := hw.stored
        cases previous with
        | obj members =>
          unfold storedWatermark
          dsimp only
          rw [hstored]
          exact watermark_toJson hw.valid
        | _ => cases hstored
      unfold startingWatermark
      rw [hread, getD_some]
    rw [hstarting] at hblocked ⊢
    refine ⟨(advance_highest _ _ _).1, barrier_notBehind hblocked, fun shown hshown => ?_⟩
    obtain ⟨context, haccepted, _⟩ := shows_snapshotOf hshown
    cases clears with
    | true => cases haccepted
    | false =>
      rw [if_neg Bool.false_ne_true] at haccepted
      rcases accepted_cases haccepted with ⟨t, ht, hnew, _, hhigher, _⟩ | ⟨_, hprior, _⟩
      · obtain ⟨v, hv, hvt⟩ := bind_eq_some_iff.mp ht
        obtain rfl : v = shown := some.inj (hv.symm.trans hnew)
        exact .inr ⟨t, hvt, hhigher⟩
      · exact .inl (previousReport_eq_some hprior).1
  · intro v hv
    have hsame : report = some v := by
      unfold Receipt.validated at hreport
      rw [hv] at hreport
      dsimp only at hreport
      split at hreport
      · rename_i v' hv'
        obtain ⟨rfl, _⟩ := validateGroupPolicy_facts hv'
        exact (Except.ok.inj hreport).symm
      · cases hreport
    have hadvance := (@advance_highest (startingWatermark unicode previous (r.context e) r.now) r.now
      ⟨r.context e, report⟩ (report.bind observedAt) blocked).2
    rw [hsame] at hadvance ⊢
    exact hadvance

/-! ## Every sequence of receipts -/

/-- The snapshot after a receipt; a receipt that is rejected stores nothing. -/
def receive (unicode : Unicode) (e : Guid) (snapshot : Value) (r : Receipt) : Value :=
  match confirmInventory unicode e snapshot r with
  | .ok next => next
  | .error _ => snapshot

/-- The snapshot after one receipt after another. -/
def receiveAll (unicode : Unicode) (e : Guid) (snapshot : Value) (rs : List Receipt) : Value :=
  rs.foldl (receive unicode e) snapshot

/-- What later receipts keep of a watermark and of what is shown. -/
structure Later (snapshot next : Value) (w w' : Watermark) : Prop where
  highest : NotBehind w.highestObserved w'.highestObserved
  blocked : NotBehind w.blockedThrough w'.blockedThrough
  shows : ∀ report, Shows next report → Shows snapshot report ∨
    ∃ t, observedAt report = some t ∧ beyond t w.highestObserved = true

theorem Later.refl (snapshot : Value) (w : Watermark) : Later snapshot snapshot w w :=
  ⟨.refl _, .refl _, fun _ h => .inl h⟩

theorem Later.trans {s t u : Value} {w'' : Watermark} (h : Later s t w w') (h' : Later t u w' w'') :
    Later s u w w'' := by
  refine ⟨h.highest.trans h'.highest, h.blocked.trans h'.blocked, fun report hreport => ?_⟩
  rcases h'.shows report hreport with hbefore | ⟨o, ho, hbeyond⟩
  · exact h.shows report hbefore
  · refine .inr ⟨o, ho, beyond_iff.mpr fun b hb => ?_⟩
    obtain ⟨b', hb', hle⟩ := h.highest b hb
    exact lt_of_le_of_lt hle (beyond_iff.mp hbeyond b' hb')

variable (unicode) in
theorem receive_later (h : Recorded e snapshot w) (r : Receipt) :
    ∃ w', Recorded e (receive unicode e snapshot r) w' ∧
      Later snapshot (receive unicode e snapshot r) w w' := by
  unfold receive
  split
  · rename_i next hnext
    obtain ⟨w', hw', hlater, _⟩ := confirmInventory_step hnext
    obtain ⟨hhighest, hblocked, hshows⟩ := hlater w h
    exact ⟨w', hw', hhighest, hblocked, hshows⟩
  · exact ⟨w, h, .refl _ _⟩

variable (unicode) in
theorem receiveAll_later (h : Recorded e snapshot w) (rs : List Receipt) :
    ∃ w', Recorded e (receiveAll unicode e snapshot rs) w' ∧
      Later snapshot (receiveAll unicode e snapshot rs) w w' := by
  induction rs generalizing snapshot w with
  | nil => exact ⟨w, h, .refl _ _⟩
  | cons r rs ih =>
    obtain ⟨w', hw', hlater⟩ := receive_later unicode h r
    obtain ⟨w'', hw'', hlater'⟩ := ih hw'
    exact ⟨w'', hw'', hlater.trans hlater'⟩

variable (unicode) in
theorem never_shown (h : Recorded e snapshot w)
    (hbehind : NotBehind (observedAt report) w.highestObserved) (hgone : ¬ Shows snapshot report)
    (rs : List Receipt) : ¬ Shows (receiveAll unicode e snapshot rs) report := by
  intro hshown
  obtain ⟨w', _, hlater⟩ := receiveAll_later unicode h rs
  rcases hlater.shows report hshown with hbefore | ⟨t, ht, hbeyond⟩
  · exact hgone hbefore
  · obtain ⟨highest, hhighest, hle⟩ := hbehind t ht
    exact not_lt_of_ge hle (beyond_iff.mp hbeyond highest hhighest)

theorem receive_omitted {r : Receipt} (h : r.report = none)
    (hnow : r.now.later clockSkew = some latest) (report : Value) :
    ¬ Shows (receive unicode e snapshot r) report := by
  have hvalidated : r.validated unicode = .ok none := by
    unfold Receipt.validated
    rw [h]
  unfold receive
  split
  · rename_i next hnext
    unfold confirmInventory at hnext
    rw [hvalidated] at hnext
    obtain ⟨clears, blocked, _, hkept, rfl⟩ := preserve_eq_ok hnext
    intro hshown
    obtain ⟨context, haccepted, _⟩ := shows_snapshotOf hshown
    cases clears with
    | true => cases haccepted
    | false => exact absurd (hkept rfl).1 Bool.false_ne_true
  · rename_i error herror
    -- without a report the barrier needs the skew only
    unfold confirmInventory preserveNewerGroupPolicy barrier at herror
    rw [hvalidated] at herror
    simp [Except.bind, bind, hnow, pure, Except.pure] at herror

theorem Recorded.shows_highest (h : Recorded e snapshot w) (hshown : Shows snapshot report) :
    NotBehind (observedAt report) w.highestObserved := by
  obtain ⟨context, _, hmatches⟩ := h.shown report hshown
  obtain ⟨observed, hobserved, _, hhighest, _⟩ := watermarkMatchesReport_iff.mp hmatches
  rw [hobserved, hhighest]
  exact .refl _

/-- The watermark of an enrollment through any receipts `rs` and further receipts `rs'`, whatever the
clock of the server does: it can be read back, its clocks never go back, a report that is shown is at
the highest clock, beyond the barrier, of the identity and the hash of the watermark, and a report
that is no longer shown, or that a receipt brought without its being shown, is never shown again. -/
theorem watermark_never_retreats (unicode : Unicode) (e : Guid) (previous first : Value) (r : Receipt)
    (h : confirmInventory unicode e previous r = .ok first) (rs rs' : List Receipt) :
    let stored := receiveAll unicode e first rs
    let later := receiveAll unicode e stored rs'
    ∃ w w', stored.get? "group_policy_watermark" = some w.toJson ∧
      watermark w.toJson e.val = some w ∧
      later.get? "group_policy_watermark" = some w'.toJson ∧ watermark w'.toJson e.val = some w' ∧
      NotBehind w.highestObserved w'.highestObserved ∧ NotBehind w.blockedThrough w'.blockedThrough ∧
      (∀ report, Shows stored report → ∃ context observed,
        stored.get? "group_policy_context" = some context ∧ observedAt report = some observed ∧
        identityOf context = some w.identitySha256 ∧ w.highestObserved = some observed ∧
        w.reportSha256 = some (sha256Json report) ∧ beyond observed w.blockedThrough = true) ∧
      (∀ report, Shows stored report → ¬ Shows later report →
        ∀ rs'', ¬ Shows (receiveAll unicode e later rs'') report) ∧
      (∀ report, r.report = some report → ¬ Shows first report → ¬ Shows later report) ∧
      ∀ q next report, confirmInventory unicode e stored q = .ok next → q.report = some report →
        ¬ Shows next report → ∀ rs'', ¬ Shows (receiveAll unicode e next rs'') report := by
  obtain ⟨w₀, hfirst, _, hincoming⟩ := confirmInventory_step h
  obtain ⟨w, hstored, _⟩ := receiveAll_later unicode hfirst rs
  obtain ⟨w', hlater, hmoved⟩ := receiveAll_later unicode hstored rs'
  refine ⟨w, w', hstored.stored, watermark_toJson hstored.valid, hlater.stored,
    watermark_toJson hlater.valid, hmoved.highest, hmoved.blocked, ?_, ?_, ?_, ?_⟩
  · intro report hshown
    obtain ⟨context, hcontext, hmatches⟩ := hstored.shown report hshown
    obtain ⟨observed, hobserved, hid, hhighest, hhash, hbeyond, _⟩ :=
      watermarkMatchesReport_iff.mp hmatches
    exact ⟨context, observed, hcontext, hobserved, hid, hhighest, hhash, hbeyond⟩
  · intro report hshown hgone
    exact never_shown unicode hlater ((hstored.shows_highest hshown).trans hmoved.highest) hgone
  · intro report hreport hgone
    have hnever := never_shown unicode hfirst (hincoming report hreport) hgone (rs ++ rs')
    unfold receiveAll at hnever
    rw [List.foldl_append] at hnever
    exact hnever
  · intro q next report hnext hreport hgone
    obtain ⟨_, hrecorded, _, hbehind⟩ := confirmInventory_step hnext
    exact never_shown unicode hrecorded (hbehind report hreport) hgone

/-- Tables that leave a text alone. -/
def plainUnicode : Unicode := { lower := id, casefold := id, nfc := id, decimal := fun _ => none }

def sampleEnrollment : Guid := ⟨"52cbb71f-0d83-4b18-a77b-1225d0830e97", by decide +kernel⟩

/-- A report of a computer that could not be read. -/
def sampleReport : Value :=
  .obj [("domain_dns", .null), ("domain_guid", .null), ("gpos", .arr []),
    ("observed_at", .str "2026-09-15T08:00:00Z"), ("schema_version", .str "1"),
    ("scope", .str "computer"), ("source", .str "windows-rsop-computer"),
    ("status", .str "unavailable")]

/-- A receipt of the enrollment. -/
def sampleReceipt (report : Option Value) : Receipt :=
  { domainName := "example.invalid", operatingSystemRole := "server", osBuild := "26100"
    operatingSystem := "windows", report
    now := (Datetime.read "2026-09-15T08:00:00Z".toList).get (by decide +kernel) }

theorem sample_stored : ((confirmInventory plainUnicode sampleEnrollment .null
    (sampleReceipt (some sampleReport))).toOption.any fun first =>
      first.get? "group_policy" == some sampleReport) = true := by
  decide +kernel

/-- A report is shown, is cleared by a receipt without one, and never comes back. -/
theorem watermark_never_retreats_sample :
    ∃ first, confirmInventory plainUnicode sampleEnrollment .null
        (sampleReceipt (some sampleReport)) = .ok first ∧ Shows first sampleReport ∧
      ∀ rs'', ¬ Shows (receiveAll plainUnicode sampleEnrollment
        (receiveAll plainUnicode sampleEnrollment first [sampleReceipt none]) rs'') sampleReport := by
  obtain ⟨first, hfirst, hshown⟩ := (any_eq_true _ _).mp sample_stored
  have hok : confirmInventory plainUnicode sampleEnrollment .null
      (sampleReceipt (some sampleReport)) = .ok first := by
    cases hc : confirmInventory plainUnicode sampleEnrollment .null
        (sampleReceipt (some sampleReport)) with
    | error _ =>
      rw [hc] at hfirst
      cases hfirst
    | ok s =>
      rw [hc] at hfirst
      cases hfirst
      rfl
  have hlatest : ((sampleReceipt none).now.later clockSkew).isSome = true := by decide +kernel
  obtain ⟨latest, hlatest⟩ := Option.isSome_iff_exists.mp hlatest
  obtain ⟨_, _, _, _, _, _, _, _, _, hnever, _⟩ := watermark_never_retreats plainUnicode
    sampleEnrollment .null first _ hok [] [sampleReceipt none]
  exact ⟨first, hok, beq_iff_eq.mp hshown,
    hnever sampleReport (beq_iff_eq.mp hshown) (receive_omitted rfl hlatest sampleReport)⟩

end Ipms.Server.GroupPolicy
