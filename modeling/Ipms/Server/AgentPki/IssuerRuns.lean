import Ipms.Lib.Run
import Ipms.Server.AgentPki.Issuers

/-
  Ipms.Server.AgentPki.IssuerRuns

  The issuers of a tenant over whole runs.  A configured tenant has one active
  issuer, its gateway identity is one the active issuer signed, and an issuer is
  retired only when no agent needs it: whoever is enrolled with a certificate
  that has not expired was signed by an issuer that is still accepted.
-/

namespace Ipms.Server.AgentPki

open Ipms.Lib Txn Table
open List (mem_cons mem_cons_of_mem mem_cons_self mem_map)

/-! ## Rows that were found -/

variable {α : Type} {a : α}

theorem one_eq_ok {found : List α} : one found = .ok a ↔ found = [a] := by
  unfold one
  split
  · simp [pure_eq_ok]
  · simp
  · next hne _ =>
      constructor
      · nofun
      · intro h
        exact absurd h (hne a)

theorem present_eq_ok {found : Option α} : present found = .ok a ↔ found = some a := by
  cases found <;> simp [present, pure_eq_ok]

theorem inserted_ok {κ : Type} {key : α → κ} [DecidableEq κ] {t t' : Table α κ key}
    {conflict : α → Bool} (h : inserted t conflict a = .ok t') :
    t.insert a = some t' ∧ ∀ b ∈ t.rows, conflict b = false := by
  unfold inserted at h
  obtain ⟨_, hfree, h⟩ := bind_eq_ok.mp h
  refine ⟨?_, ?_⟩
  · split at h
    · next hinsert => rw [hinsert, pure_eq_ok.mp h]
    · cases h
  · simpa using throwIf_eq_ok.mp hfree

theorem filter_eq_singleton {p : α → Bool} {rows : List α} (h : rows.filter p = [a]) :
    a ∈ rows ∧ p a = true ∧ ∀ b ∈ rows, p b = true → b = a := by
  have hmem : ∀ b, b ∈ rows ∧ p b = true ↔ b = a := by
    intro b
    rw [← List.mem_filter, h, List.mem_singleton]
  exact ⟨((hmem a).mpr rfl).1, ((hmem a).mpr rfl).2, fun b hb hp => (hmem b).mp ⟨hb, hp⟩⟩

/-! ## The invariant -/

abbrev Issuers := Table AgentIssuer String AgentIssuer.id

abbrev Identities := Table AgentGatewayIdentity String AgentGatewayIdentity.id

/-- `i` is the one active issuer of a tenant. -/
structure OnlyActive (issuers : Issuers) (tenant : String) (i : AgentIssuer) : Prop where
  mem : i ∈ issuers.rows
  ofTenant : i.tenant = tenant
  status : i.status = .active
  only : ∀ j ∈ issuers.rows, j.tenant = tenant → j.status = .active → j = i

/-- `g` is the one gateway identity of a policy, and `i` issued it. -/
structure Presents (identities : Identities) (policy : String) (i : AgentIssuer)
    (g : AgentGatewayIdentity) : Prop where
  mem : g ∈ identities.rows
  ofPolicy : g.policy = policy
  only : ∀ k ∈ identities.rows, k.policy = policy → k = g
  issuer : g.issuer = some i.id
  issued : g.certificate.IssuedBy i.certificate

/-- A policy has one active issuer, and it issued the gateway identity the portal manages. -/
structure Served (issuers : Issuers) (identities : Identities) (p : AgentPkiPolicy)
    (i : AgentIssuer) : Prop where
  active : OnlyActive issuers p.tenant i
  gateway : p.trustMode ≠ .externalCertificates → ∃ g, Presents identities p.id i g

/-- The key an issuer keeps is the key of its certificate. -/
def AgentIssuer.KeyMatches (i : AgentIssuer) : Prop :=
  ∀ secret, i.privateKey = some secret → secret.key.publicKey = i.certificate.publicKey

/-- What holds of the policies of tenants, their issuers and their gateway identities. -/
structure PkiInv (db : Db) : Prop where
  tenants : ∀ p ∈ db.policies.rows, ∀ q ∈ db.policies.rows, p.tenant = q.tenant → p = q
  configured : ∀ i ∈ db.issuers.rows, ∃ p ∈ db.policies.rows, p.tenant = i.tenant
  served : ∀ p ∈ db.policies.rows, ∃ i, Served db.issuers db.identities p i
  keys : ∀ i ∈ db.issuers.rows, i.KeyMatches

/-- An active enrollment whose certificate has not expired was signed by an issuer of its tenant
that is accepted. -/
def AgentEnrollment.Trusted (now : Time) (issuers : Issuers) (e : AgentEnrollment) : Prop :=
  e.status = .active → ∀ notAfter, e.certificateNotAfter = some notAfter → now < notAfter →
    ∃ i ∈ issuers.rows, e.issuer = some i.id ∧ i.tenant = e.tenant ∧
      (i.status = .active ∨ i.status = .overlap) ∧
      ∃ c, e.certificate = some c ∧ c.IssuedBy i.certificate

/-- What holds of enrollments and their tokens. -/
structure EnrolledInv (now : Time) (db : Db) : Prop where
  tokens : ∀ t ∈ db.tokens.rows, ∃ e ∈ db.enrollments.rows, e.id = t.enrollment ∧
    e.tenant = t.tenant
  trusted : ∀ e ∈ db.enrollments.rows, e.Trusted now db.issuers

/-- The invariant of the agent PKI. -/
structure Inv (now : Time) (db : Db) : Prop where
  pki : PkiInv db
  enrolled : EnrolledInv now db

section
variable {issuers issuers' : Issuers} {identities identities' : Identities} {i : AgentIssuer}
  {g : AgentGatewayIdentity} {p : AgentPkiPolicy} {now : Time} {s t : Db}

variable {tenant : String}

theorem OnlyActive.congr (h : OnlyActive issuers tenant i)
    (hrows : ∀ j, j.tenant = tenant → (j ∈ issuers'.rows ↔ j ∈ issuers.rows)) :
    OnlyActive issuers' tenant i :=
  ⟨(hrows i h.ofTenant).mpr h.mem, h.ofTenant, h.status,
    fun j hj htenant => h.only j ((hrows j htenant).mp hj) htenant⟩

theorem Presents.congr {policy : String} (h : Presents identities policy i g)
    (hrows : ∀ k, k.policy = policy → (k ∈ identities'.rows ↔ k ∈ identities.rows)) :
    Presents identities' policy i g :=
  ⟨(hrows g h.ofPolicy).mpr h.mem, h.ofPolicy,
    fun k hk hpolicy => h.only k ((hrows k hpolicy).mp hk) hpolicy, h.issuer, h.issued⟩

theorem Served.congr (h : Served issuers identities p i)
    (hissuers : ∀ j, j.tenant = p.tenant → (j ∈ issuers'.rows ↔ j ∈ issuers.rows))
    (hidentities : ∀ k, k.policy = p.id → (k ∈ identities'.rows ↔ k ∈ identities.rows)) :
    Served issuers' identities' p i := by
  refine ⟨h.active.congr hissuers, fun hmode => ?_⟩
  obtain ⟨g, hg⟩ := h.gateway hmode
  exact ⟨g, hg.congr hidentities⟩

theorem activeIssuer_ok (h : s.activeIssuer tenant = .ok i) : OnlyActive s.issuers tenant i := by
  obtain ⟨hmem, hactive, honly⟩ := filter_eq_singleton (one_eq_ok.mp h)
  unfold AgentIssuer.activeIn at hactive honly
  simp only [Bool.and_eq_true, beq_iff_eq] at hactive honly
  exact ⟨hmem, hactive.1, hactive.2, fun j hj htenant hstatus => honly j hj ⟨htenant, hstatus⟩⟩

theorem policyOf_ok (h : s.policyOf tenant = .ok p) : p ∈ s.policies.rows ∧ p.tenant = tenant := by
  obtain ⟨hmem, htenant, -⟩ := filter_eq_singleton (one_eq_ok.mp h)
  exact ⟨hmem, beq_iff_eq.mp htenant⟩

theorem overlapIssuer_ok {id : String} (h : s.overlapIssuer tenant id = .ok i) :
    i ∈ s.issuers.rows ∧ i.tenant = tenant ∧ i.status = .overlap := by
  obtain ⟨hfound, hkeep⟩ := Option.filter_eq_some_iff.mp (present_eq_ok.mp h)
  rw [Bool.and_eq_true, beq_iff_eq, beq_iff_eq] at hkeep
  exact ⟨get?_mem hfound, hkeep.1, hkeep.2⟩

/-- Issuers that are accepted stay, with their certificate, and stay accepted. -/
def IssuersKept (s t : Db) : Prop :=
  ∀ i ∈ s.issuers.rows, i.status = .active ∨ i.status = .overlap →
    ∃ j ∈ t.issuers.rows, j.id = i.id ∧ j.tenant = i.tenant ∧ j.certificate = i.certificate ∧
      (j.status = .active ∨ j.status = .overlap)

theorem EnrolledInv.of_kept (h : EnrolledInv now s) (hkept : IssuersKept s t)
    (henrollments : t.enrollments = s.enrollments) (htokens : t.tokens = s.tokens) :
    EnrolledInv now t := by
  refine ⟨by rw [htokens, henrollments]; exact h.tokens, ?_⟩
  rw [henrollments]
  intro e he hactive notAfter hnotAfter hlt
  obtain ⟨i, hi, hissuer, htenant, hstatus, c, hc, hissued⟩ := h.trusted e he hactive _ hnotAfter hlt
  obtain ⟨j, hj, hid, htenant', hcert, hstatus'⟩ := hkept i hi hstatus
  refine ⟨j, hj, by rw [hid]; exact hissuer, htenant'.trans htenant, hstatus', c, hc, ?_⟩
  rw [hcert]
  exact hissued

/-! ## Configuration -/

/-- A policy, its issuer and its gateway identity, in the tables they are inserted into. -/
structure Configured (s : Db) (p : AgentPkiPolicy) (i : AgentIssuer) (g : AgentGatewayIdentity)
    (t : Db) : Prop where
  policy : s.policies.insert p = some t.policies
  tenant : ∀ q ∈ s.policies.rows, q.tenant ≠ p.tenant
  issuer : s.issuers.insert i = some t.issuers
  identity : s.identities.insert g = some t.identities
  alone : ∀ k ∈ s.identities.rows, k.policy ≠ g.policy
  rest : t = { s with policies := t.policies, issuers := t.issuers, identities := t.identities }

theorem configured_bind {α : Type} {f : Request α} {Q : α → Db → Prop}
    (hf : ∀ t, Configured s p i g t → f.Yields Q t) :
    (createPolicy p).Yields (fun _ => (do
      createIssuer i
      createIdentity g
      f : Request α).Yields Q) s := by
  unfold createPolicy createIssuer createIdentity
  simp only [yields_bind, yields_get, yields_set, yields_ofExcept]
  intro policies hpolicies issuers hissuers identities hidentities
  obtain ⟨hpolicy, htenant⟩ := inserted_ok hpolicies
  obtain ⟨hidentity, halone⟩ := inserted_ok hidentities
  refine hf _ ⟨hpolicy, fun q hq => ?_, (inserted_ok hissuers).1, hidentity, fun k hk => ?_, rfl⟩
  · simpa using htenant q hq
  · have hfree := halone k hk
    rw [Bool.or_eq_false_iff, beq_eq_false_iff_ne] at hfree
    exact hfree.1

theorem configured_yields {Q : Unit → Db → Prop} (hQ : ∀ t, Configured s p i g t → Q () t) :
    (createPolicy p).Yields (fun _ => (do
      createIssuer i
      createIdentity g : Request Unit).Yields Q) s := by
  have hbind := configured_bind (f := pure ()) (Q := Q) fun t ht => by
    rw [yields_pure]
    exact hQ t ht
  simpa only [bind_pure_unit] using hbind

/-- A configuration serves its policy and leaves the others served. -/
theorem PkiInv.configure (h : PkiInv s) (hconfigured : Configured s p i g t)
    (htenant : i.tenant = p.tenant) (hactive : i.status = .active) (hkey : i.KeyMatches)
    (hpolicy : g.policy = p.id)
    (hgateway : p.trustMode ≠ .externalCertificates →
      g.issuer = some i.id ∧ g.certificate.IssuedBy i.certificate) : PkiInv t := by
  obtain ⟨hnewPolicy, hpolicies⟩ := insert_eq_some hconfigured.policy
  obtain ⟨-, hissuers⟩ := insert_eq_some hconfigured.issuer
  obtain ⟨-, hidentities⟩ := insert_eq_some hconfigured.identity
  have hfree : ∀ j ∈ s.issuers.rows, j.tenant ≠ p.tenant := by
    intro j hj heq
    obtain ⟨q, hq, hqj⟩ := h.configured j hj
    exact hconfigured.tenant q hq (hqj.trans heq)
  refine ⟨?_, ?_, ?_, ?_⟩
  · intro q hq r hr hqr
    rw [hpolicies] at hq hr
    rcases mem_cons.mp hq with rfl | hqold
    · rcases mem_cons.mp hr with rfl | hrold
      · rfl
      · exact absurd hqr.symm (hconfigured.tenant r hrold)
    · rcases mem_cons.mp hr with rfl | hrold
      · exact absurd hqr (hconfigured.tenant q hqold)
      · exact h.tenants q hqold r hrold hqr
  · intro j hj
    rw [hissuers] at hj
    rw [hpolicies]
    rcases mem_cons.mp hj with rfl | hj
    · exact ⟨p, mem_cons_self, htenant.symm⟩
    · obtain ⟨q, hq, hqj⟩ := h.configured j hj
      exact ⟨q, mem_cons_of_mem _ hq, hqj⟩
  · intro q hq
    rw [hpolicies] at hq
    rcases mem_cons.mp hq with rfl | hold
    · refine ⟨i, ⟨by rw [hissuers]; exact mem_cons_self, htenant, hactive, ?_⟩, fun hmode => ?_⟩
      · intro j hj hjq _
        rw [hissuers] at hj
        rcases mem_cons.mp hj with rfl | hj
        · rfl
        · exact absurd hjq (hfree j hj)
      · obtain ⟨hissuer, hissued⟩ := hgateway hmode
        refine ⟨g, by rw [hidentities]; exact mem_cons_self, hpolicy, ?_, hissuer, hissued⟩
        intro k hk hkq
        rw [hidentities] at hk
        rcases mem_cons.mp hk with rfl | hk
        · rfl
        · exact absurd (hkq.trans hpolicy.symm) (hconfigured.alone k hk)
    · obtain ⟨j, hj⟩ := h.served q hold
      refine ⟨j, hj.congr (fun k hk => ?_) fun k hk => ?_⟩
      · rw [hissuers, mem_cons]
        constructor
        · rintro (rfl | hmem)
          · exact absurd (hk.symm.trans htenant) (hconfigured.tenant q hold)
          · exact hmem
        · exact .inr
      · rw [hidentities, mem_cons]
        constructor
        · rintro (rfl | hmem)
          · exact absurd (hk.symm.trans hpolicy) (get?_eq_none.mp hnewPolicy q hold)
          · exact hmem
        · exact .inr
  · intro j hj
    rw [hissuers] at hj
    rcases mem_cons.mp hj with rfl | hj
    · exact hkey
    · exact h.keys j hj

theorem Configured.kept (h : Configured s p i g t) : IssuersKept s t := by
  intro j hj hstatus
  refine ⟨j, ?_, rfl, rfl, rfl, hstatus⟩
  rw [(insert_eq_some h.issuer).2]
  exact mem_cons_of_mem _ hj

theorem Inv.configure (h : Inv now s) (hconfigured : Configured s p i g t)
    (htenant : i.tenant = p.tenant) (hactive : i.status = .active) (hkey : i.KeyMatches)
    (hpolicy : g.policy = p.id)
    (hgateway : p.trustMode ≠ .externalCertificates →
      g.issuer = some i.id ∧ g.certificate.IssuedBy i.certificate) : Inv now t :=
  ⟨h.pki.configure hconfigured htenant hactive hkey hpolicy hgateway,
    h.enrolled.of_kept hconfigured.kept (by rw [hconfigured.rest]) (by rw [hconfigured.rest])⟩

/-! ## Rotation -/

theorem PkiInv.replace (h : PkiInv s) (hp : p ∈ s.policies.rows)
    (hactive : OnlyActive issuers p.tenant i)
    (hissuers : ∀ j, j.tenant ≠ p.tenant → (j ∈ issuers.rows ↔ j ∈ s.issuers.rows))
    (hkeys : ∀ j ∈ issuers.rows, j.KeyMatches) (hg : Presents identities p.id i g)
    (hidentities : ∀ k, k.policy ≠ p.id → (k ∈ identities.rows ↔ k ∈ s.identities.rows)) :
    PkiInv { s with issuers, identities } := by
  refine ⟨h.tenants, fun j hj => ?_, fun q hq => ?_, hkeys⟩
  · by_cases htenant : j.tenant = p.tenant
    · exact ⟨p, hp, htenant.symm⟩
    · exact h.configured j ((hissuers j htenant).mp hj)
  · by_cases htenant : q.tenant = p.tenant
    · obtain rfl := h.tenants q hq p hp htenant
      exact ⟨i, hactive, fun _ => ⟨g, hg⟩⟩
    · obtain ⟨j, hj⟩ := h.served q hq
      refine ⟨j, hj.congr (fun k hk => hissuers k (by rw [hk]; exact htenant)) fun k hk => ?_⟩
      refine hidentities k fun heq => htenant ?_
      rw [row_unique hq hp (hk.symm.trans heq)]

variable {lib : Library} {draws : Draws}

theorem replaceGatewayIdentity_yields {issuerKey : PrivateKey}
    (hkey : issuerKey.publicKey = i.certificate.publicKey) :
    (replaceGatewayIdentity lib now draws p i issuerKey).Yields (fun _ t =>
      ∃ identities : Identities, t = { s with identities } ∧ (∃ g, Presents identities p.id i g) ∧
        ∀ k, k.policy ≠ p.id → (k ∈ identities.rows ↔ k ∈ s.identities.rows)) s := by
  unfold replaceGatewayIdentity
  simp only [yields_bind, yields_get, yields_ofExcept, yields_throwIf,
    yields_set]
  intro old hold _
  obtain ⟨hmem, hpolicy, honly⟩ := filter_eq_singleton (one_eq_ok.mp hold)
  rw [beq_iff_eq] at hpolicy
  refine ⟨_, rfl, ⟨_, mem_save.mpr (.inr ⟨rfl, old, hmem, rfl⟩), hpolicy, ?_, rfl,
    issueLeaf_issuedBy hkey⟩, fun k hk => ?_⟩
  · intro k hk hkp
    rcases mem_save.mp hk with ⟨hk, hne⟩ | ⟨rfl, -⟩
    · exact absurd (congrArg _ (honly k hk (beq_iff_eq.mpr hkp))) hne
    · rfl
  · rw [mem_save]
    constructor
    · rintro (⟨hk, -⟩ | ⟨rfl, -⟩)
      · exact hk
      · exact absurd hpolicy hk
    · intro hmem'
      refine .inl ⟨hmem', fun hid => hk ?_⟩
      rw [row_unique hmem' hmem hid]
      exact hpolicy

theorem rotateManagedIssuer_yields (h : Inv now s) (tenant : String) (recovery : RecoveryBundle)
    (passphrase : String) :
    (rotateManagedIssuer lib now draws tenant recovery passphrase).Yields (fun _ t => Inv now t)
      s := by
  unfold rotateManagedIssuer createIssuer
  simp only [yields_bind, yields_get, yields_ofExcept, yields_throwIf,
    yields_set, yields_modify]
  intro policy hpolicy _ root _ _ old hold issuers hissuers
  obtain ⟨hp, rfl⟩ := policyOf_ok hpolicy
  have hactive := activeIssuer_ok hold
  obtain ⟨hfresh, hrows⟩ := insert_eq_some (inserted_ok hissuers).1
  refine (replaceGatewayIdentity_yields rfl).mono fun _ t ht => ?_
  obtain ⟨identities, rfl, ⟨g, hg⟩, hothers⟩ := ht
  have hne : old.id ≠ draws.issuer := get?_eq_none.mp hfresh old hactive.mem
  constructor
  · refine h.pki.replace hp ⟨?_, rfl, rfl, ?_⟩ ?_ ?_ hg hothers
    · refine mem_save.mpr (.inl ⟨?_, hne.symm⟩)
      rw [hrows]
      exact mem_cons_self
    · intro j hj htenant hstatus
      rcases mem_save.mp hj with ⟨hmem, hid⟩ | ⟨rfl, -⟩
      · rw [hrows] at hmem
        rcases mem_cons.mp hmem with rfl | hmem
        · rfl
        · exact absurd (congrArg _ (hactive.only j hmem htenant hstatus)) hid
      · cases hstatus
    · intro j htenant
      rw [mem_save, hrows, mem_cons]
      constructor
      · rintro (⟨rfl | hmem, -⟩ | ⟨rfl, -⟩)
        · exact absurd rfl htenant
        · exact hmem
        · exact absurd hactive.ofTenant htenant
      · intro hmem
        refine .inl ⟨.inr hmem, fun hid => htenant ?_⟩
        rw [row_unique hmem hactive.mem hid]
        exact hactive.ofTenant
    · intro j hj
      rcases mem_save.mp hj with ⟨hmem, -⟩ | ⟨rfl, -⟩
      · rw [hrows] at hmem
        rcases mem_cons.mp hmem with rfl | hmem
        · intro secret hsecret
          cases hsecret
          rfl
        · exact h.pki.keys j hmem
      · exact h.pki.keys old hactive.mem
  · refine h.enrolled.of_kept (fun j hj hstatus => ?_) rfl rfl
    by_cases hid : j.id = old.id
    · rw [row_unique hj hactive.mem hid]
      refine ⟨{ old with status := .overlap }, ?_, rfl, rfl, rfl, .inr rfl⟩
      refine mem_save.mpr (.inr ⟨rfl, old, ?_, rfl⟩)
      rw [hrows]
      exact mem_cons_of_mem _ hactive.mem
    · refine ⟨j, mem_save.mpr (.inl ⟨?_, hid⟩), rfl, rfl, rfl, hstatus⟩
      rw [hrows]
      exact mem_cons_of_mem _ hj

theorem rollbackManagedIssuer_yields (h : Inv now s) (tenant issuerId : String) :
    (rollbackManagedIssuer lib now draws tenant issuerId).Yields (fun _ t => Inv now t) s := by
  unfold rollbackManagedIssuer
  simp only [yields_bind, yields_get, yields_ofExcept, yields_throwIf]
  intro policy hpolicy _ current hcurrent target htarget
  obtain ⟨hp, rfl⟩ := policyOf_ok hpolicy
  have hactive := activeIssuer_ok hcurrent
  obtain ⟨hmem, htenant, hoverlap⟩ := overlapIssuer_ok htarget
  split
  · rw [yields_throw]
    trivial
  · next secret hsecret =>
      simp only [yields_bind, yields_ofExcept, yields_modify]
      intro key hkey
      have hpublic : key.publicKey = target.certificate.publicKey := by
        rw [decryptPrivateKey_ok hkey]
        exact h.pki.keys target hmem secret hsecret
      refine (replaceGatewayIdentity_yields (i := { target with status := .active })
        hpublic).mono fun _ t ht => ?_
      obtain ⟨identities, rfl, ⟨g, hg⟩, hothers⟩ := ht
      have hne : target.id ≠ current.id := by
        intro hid
        rw [row_unique hmem hactive.mem hid, hactive.status] at hoverlap
        cases hoverlap
      -- a row of the swapped table is the one or the other issuer, or was there before
      have hrows : ∀ j, j ∈ ((s.issuers.save { current with status := .overlap }).save
          { target with status := .active }).rows ↔
          j = { target with status := .active } ∨ j = { current with status := .overlap } ∨
            j ∈ s.issuers.rows ∧ j.id ≠ current.id ∧ j.id ≠ target.id := by
        intro j
        simp only [mem_save]
        constructor
        · rintro (⟨⟨hj, hc⟩ | ⟨rfl, -⟩, ht⟩ | ⟨rfl, -⟩)
          · exact .inr (.inr ⟨hj, hc, ht⟩)
          · exact .inr (.inl rfl)
          · exact .inl rfl
        · rintro (rfl | rfl | ⟨hj, hc, ht⟩)
          · exact .inr ⟨rfl, target, .inl ⟨hmem, hne⟩, rfl⟩
          · exact .inl ⟨.inr ⟨rfl, current, hactive.mem, rfl⟩, hne.symm⟩
          · exact .inl ⟨.inl ⟨hj, hc⟩, ht⟩
      constructor
      · refine h.pki.replace (i := { target with status := .active }) hp
          ⟨(hrows _).mpr (.inl rfl), htenant, rfl, ?_⟩ ?_ ?_ hg hothers
        · intro j hj hjt hstatus
          rcases (hrows j).mp hj with rfl | rfl | ⟨hj, hc, -⟩
          · rfl
          · cases hstatus
          · exact absurd (congrArg _ (hactive.only j hj hjt hstatus)) hc
        · intro j hjt
          rw [hrows]
          constructor
          · rintro (rfl | rfl | ⟨hj, -, -⟩)
            · exact absurd htenant hjt
            · exact absurd hactive.ofTenant hjt
            · exact hj
          · intro hj
            refine .inr (.inr ⟨hj, fun hid => hjt ?_, fun hid => hjt ?_⟩)
            · rw [row_unique hj hactive.mem hid]
              exact hactive.ofTenant
            · rw [row_unique hj hmem hid]
              exact htenant
        · intro j hj
          rcases (hrows j).mp hj with rfl | rfl | ⟨hj, -, -⟩
          · exact h.pki.keys target hmem
          · exact h.pki.keys current hactive.mem
          · exact h.pki.keys j hj
      · refine h.enrolled.of_kept (fun j hj hstatus => ?_) rfl rfl
        by_cases hc : j.id = current.id
        · rw [row_unique hj hactive.mem hc]
          exact ⟨_, (hrows _).mpr (.inr (.inl rfl)), rfl, rfl, rfl, .inr rfl⟩
        · by_cases ht : j.id = target.id
          · rw [row_unique hj hmem ht]
            exact ⟨_, (hrows _).mpr (.inl rfl), rfl, rfl, rfl, .inl rfl⟩
          · exact ⟨j, (hrows j).mpr (.inr (.inr ⟨hj, hc, ht⟩)), rfl, rfl, rfl, hstatus⟩

/-- The retirement of an issuer that no unexpired certificate of an active agent needs. -/
theorem retireOverlapIssuer_yields (h : Inv now s) (tenant issuerId : String) :
    (retireOverlapIssuer now tenant issuerId).Yields (fun _ t => Inv now t) s := by
  unfold retireOverlapIssuer
  simp only [yields_bind, yields_get, yields_ofExcept, yields_throwIf,
    yields_set]
  intro issuer hissuer hfree
  obtain ⟨hmem, htenant, hoverlap⟩ := overlapIssuer_ok hissuer
  have hsaved : ∀ j, j ∈ s.issuers.rows → j.id ≠ issuer.id →
      j ∈ (s.issuers.save { issuer with status := .retired, retiredAt := some now }).rows :=
    fun j hj hid => mem_save.mpr (.inl ⟨hj, hid⟩)
  have hback : ∀ j, j ∈ (s.issuers.save
      { issuer with status := .retired, retiredAt := some now }).rows →
      j ∈ s.issuers.rows ∨ j = { issuer with status := .retired, retiredAt := some now } := by
    intro j hj
    rcases mem_save.mp hj with ⟨hj, -⟩ | ⟨rfl, -⟩
    · exact .inl hj
    · exact .inr rfl
  refine ⟨⟨h.pki.tenants, fun j hj => ?_, fun p hp => ?_, fun j hj => ?_⟩, h.enrolled.tokens, ?_⟩
  · rcases hback j hj with hj | rfl
    · exact h.pki.configured j hj
    · exact h.pki.configured issuer hmem
  · obtain ⟨i, hi⟩ := h.pki.served p hp
    -- the active issuer is not the one that is retired
    have hne : i.id ≠ issuer.id := by
      intro hid
      rw [← row_unique hi.active.mem hmem hid, hi.active.status] at hoverlap
      cases hoverlap
    refine ⟨i, ⟨hsaved i hi.active.mem hne, hi.active.ofTenant, hi.active.status, ?_⟩, hi.gateway⟩
    intro j hj hjt hstatus
    rcases hback j hj with hj | rfl
    · exact hi.active.only j hj hjt hstatus
    · cases hstatus
  · rcases hback j hj with hj | rfl
    · exact h.pki.keys j hj
    · exact h.pki.keys issuer hmem
  · intro e he hactive notAfter hnotAfter hlt
    obtain ⟨i, hi, hei, hrest⟩ := h.enrolled.trusted e he hactive notAfter hnotAfter hlt
    refine ⟨i, hsaved i hi fun hid => hfree ?_, hei, hrest⟩
    rw [List.any_eq_true]
    refine ⟨e, he, ?_⟩
    unfold AgentEnrollment.holds
    rw [hei, hid, hactive, hnotAfter]
    simpa using hlt

/-! ## Configurations -/

theorem createManagedHierarchy_ok {gatewayDnsName passphrase : String} {hierarchy : Hierarchy}
    (h : createManagedHierarchy lib now draws gatewayDnsName passphrase = .ok hierarchy) :
    hierarchy.issuerCert.publicKey = draws.issuerKey.publicKey ∧
      hierarchy.gatewayCert.IssuedBy hierarchy.issuerCert := by
  unfold createManagedHierarchy at h
  obtain ⟨_, -, h⟩ := bind_eq_ok.mp h
  obtain ⟨_, -, h⟩ := bind_eq_ok.mp h
  rw [← pure_eq_ok.mp h]
  exact ⟨rfl, issueLeaf_issuedBy rfl⟩

theorem createManagedPkiRecords_yields (h : Inv now s) (tenant gatewayDnsName passphrase : String)
    (exportedAt : Option Time) :
    (createManagedPkiRecords lib now draws tenant gatewayDnsName passphrase exportedAt).Yields
      (fun _ t => Inv now t) s := by
  unfold createManagedPkiRecords storeGatewayIdentity
  simp only [yields_bind, yields_get, yields_ofExcept]
  intro _ _ hierarchy hhierarchy
  obtain ⟨hkey, hissued⟩ := createManagedHierarchy_ok hhierarchy
  refine configured_bind fun t ht => ?_
  rw [yields_pure]
  refine h.configure ht rfl rfl ?_ rfl fun _ => ⟨rfl, hissued⟩
  intro secret hsecret
  cases hsecret
  exact hkey.symm

theorem bootstrapManagedPki_yields (h : Inv now s) (tenant gatewayDnsName passphrase : String)
    (written : Bool) :
    (bootstrapManagedPki lib now draws tenant gatewayDnsName passphrase written).Yields
      (fun _ t => Inv now t) s := by
  unfold bootstrapManagedPki
  rw [yields_bind]
  refine (createManagedPkiRecords_yields h _ _ _ _).mono fun _ t ht => ?_
  rw [yields_throwIf]
  exact fun _ => ht

theorem Inv.withMaterials (h : Inv now s)
    (materials : Table AgentPkiRecoveryMaterial String AgentPkiRecoveryMaterial.id) :
    Inv now { s with materials } :=
  ⟨⟨h.pki.tenants, h.pki.configured, h.pki.served, h.pki.keys⟩,
    ⟨h.enrolled.tokens, h.enrolled.trusted⟩⟩

theorem prepareManagedPki_yields (h : Inv now s) (tenant gatewayDnsName passphrase : String) :
    (prepareManagedPki lib now draws tenant gatewayDnsName passphrase).Yields
      (fun _ t => Inv now t) s := by
  unfold prepareManagedPki
  rw [yields_bind]
  refine (createManagedPkiRecords_yields h _ _ _ _).mono fun _ t ht => ?_
  simp only [yields_bind, yields_get, yields_ofExcept, yields_set]
  exact fun materials _ => ht.withMaterials materials

theorem downloadManagedPkiRecovery_yields (h : Inv now s) (tenant : String) :
    (downloadManagedPkiRecovery lib now tenant).Yields (fun _ t => Inv now t) s := by
  unfold downloadManagedPkiRecovery
  simp only [yields_bind, yields_get, yields_ofExcept, yields_throwIf,
    yields_set]
  exact fun _ _ _ => h.withMaterials _

/-- A policy whose recovery is exported is served as before. -/
theorem confirmManagedPkiRecovery_yields (h : Inv now s) (tenant bundleSha256 : String) :
    (confirmManagedPkiRecovery now tenant bundleSha256).Yields (fun _ t => Inv now t) s := by
  unfold confirmManagedPkiRecovery
  simp only [yields_bind, yields_get, yields_ofExcept, yields_throwIf,
    yields_set]
  intro material _ _ _ policy hpolicy
  have hp : policy ∈ s.policies.rows := get?_mem (present_eq_ok.mp hpolicy)
  have hrows : ∀ q ∈ (s.policies.save { policy with rootRecoveryExportedAt := some now }).rows,
      q ∈ s.policies.rows ∧ q.id ≠ policy.id ∨
        q = { policy with rootRecoveryExportedAt := some now } := by
    intro q hq
    rcases mem_save.mp hq with hq | ⟨rfl, -⟩
    · exact .inl hq
    · exact .inr rfl
  refine ⟨⟨?_, fun i hi => ?_, ?_, h.pki.keys⟩, ⟨h.enrolled.tokens, h.enrolled.trusted⟩⟩
  · intro q hq r hr hqr
    rcases hrows q hq with ⟨hqold, hqid⟩ | rfl
    · rcases hrows r hr with ⟨hrold, -⟩ | rfl
      · exact h.pki.tenants q hqold r hrold hqr
      · exact absurd (congrArg _ (h.pki.tenants q hqold policy hp hqr)) hqid
    · rcases hrows r hr with ⟨hrold, hrid⟩ | rfl
      · exact absurd (congrArg _ (h.pki.tenants r hrold policy hp hqr.symm)) hrid
      · rfl
  · obtain ⟨q, hq, hqi⟩ := h.pki.configured i hi
    by_cases hid : q.id = policy.id
    · rw [row_unique hq hp hid] at hqi
      exact ⟨_, mem_save.mpr (.inr ⟨rfl, policy, hp, rfl⟩), hqi⟩
    · exact ⟨q, mem_save.mpr (.inl ⟨hq, hid⟩), hqi⟩
  · intro q hq
    rcases hrows q hq with ⟨hqold, -⟩ | rfl
    · exact h.pki.served q hqold
    · obtain ⟨i, hi⟩ := h.pki.served policy hp
      exact ⟨i, hi.active, hi.gateway⟩

theorem configureExternalIssuingPki_yields (h : Inv now s) (tenant gatewayDnsName : String)
    (issuerCert chainCert : Certificate) (issuerKey : PrivateKey) :
    (configureExternalIssuingPki lib now draws tenant gatewayDnsName issuerCert chainCert
      issuerKey).Yields (fun _ t => Inv now t) s := by
  unfold configureExternalIssuingPki storeGatewayIdentity
  simp only [yields_bind, yields_get, yields_ofExcept, yields_throwIf]
  intro _ _ _ _ _ _ hkey _ _
  have hpublic := not_not.mp hkey
  refine configured_yields fun t ht => ?_
  refine h.configure ht rfl rfl ?_ rfl fun _ => ⟨rfl, issueLeaf_issuedBy hpublic⟩
  intro secret hsecret
  cases hsecret
  exact hpublic

theorem configureExternalCertificatePki_yields (h : Inv now s) (tenant gatewayDnsName : String)
    (gatewayCert : Certificate) (gatewayKey : PrivateKey) (gatewayChain : List Certificate)
    (agentIssuerCert : Certificate) :
    (configureExternalCertificatePki lib now draws tenant gatewayDnsName gatewayCert gatewayKey
      gatewayChain agentIssuerCert).Yields (fun _ t => Inv now t) s := by
  unfold configureExternalCertificatePki storeGatewayIdentity
  simp only [yields_bind, yields_get, yields_ofExcept]
  intro _ _ _ _
  cases gatewayChain with
  | nil =>
    rw [yields_bind, yields_throw]
    trivial
  | cons issuing rest =>
    simp only [yields_bind, yields_ofExcept]
    intro _ _ _ _ _ _
    refine configured_yields fun t ht => ?_
    exact h.configure ht rfl rfl (by intro _ h; cases h) rfl fun hmode => absurd rfl hmode

/-! ## Enrollments -/

/-- What a request may do to enrollments: every row is an old one or trusted, none disappears, and
every token is of an enrollment of its tenant. -/
structure EnrollmentsMoved (now : Time) (s t : Db) : Prop where
  policies : t.policies = s.policies
  issuers : t.issuers = s.issuers
  identities : t.identities = s.identities
  kept : ∀ e ∈ s.enrollments.rows, ∃ f ∈ t.enrollments.rows, f.id = e.id ∧ f.tenant = e.tenant
  rows : ∀ f ∈ t.enrollments.rows, f ∈ s.enrollments.rows ∨ f.Trusted now s.issuers
  tokens : ∀ u ∈ t.tokens.rows,
    (∃ v ∈ s.tokens.rows, v.enrollment = u.enrollment ∧ v.tenant = u.tenant) ∨
      ∃ f ∈ t.enrollments.rows, f.id = u.enrollment ∧ f.tenant = u.tenant

theorem Inv.enrollments (h : Inv now s) (hmoved : EnrollmentsMoved now s t) : Inv now t := by
  refine ⟨⟨?_, ?_, ?_, ?_⟩, fun u hu => ?_, fun f hf => ?_⟩
  · rw [hmoved.policies]
    exact h.pki.tenants
  · rw [hmoved.policies, hmoved.issuers]
    exact h.pki.configured
  · rw [hmoved.policies, hmoved.issuers, hmoved.identities]
    exact h.pki.served
  · rw [hmoved.issuers]
    exact h.pki.keys
  · rcases hmoved.tokens u hu with ⟨v, hv, henrollment, htenant⟩ | hnew
    · obtain ⟨e, he, hid, hof⟩ := h.enrolled.tokens v hv
      obtain ⟨f, hf, hfid, hftenant⟩ := hmoved.kept e he
      exact ⟨f, hf, hfid.trans (hid.trans henrollment), hftenant.trans (hof.trans htenant)⟩
    · exact hnew
  · rw [hmoved.issuers]
    rcases hmoved.rows f hf with hold | htrusted
    · exact h.enrolled.trusted f hold
    · exact htrusted

variable {e : AgentEnrollment}

theorem AgentEnrollment.Trusted.of_status (h : e.status ≠ .active) : e.Trusted now issuers :=
  fun hactive => absurd hactive h

theorem EnrollmentsMoved.save {e old : AgentEnrollment} (hold : s.enrollments.get? e.id = some old)
    (htenant : e.tenant = old.tenant) (htrusted : e.Trusted now s.issuers)
    (ht : t.policies = s.policies ∧ t.issuers = s.issuers ∧ t.identities = s.identities)
    (henrollments : t.enrollments = s.enrollments.save e)
    (htokens : ∀ u ∈ t.tokens.rows,
      ∃ v ∈ s.tokens.rows, v.enrollment = u.enrollment ∧ v.tenant = u.tenant) :
    EnrollmentsMoved now s t := by
  refine ⟨ht.1, ht.2.1, ht.2.2, fun f hf => ?_, fun f hf => ?_, fun u hu => .inl (htokens u hu)⟩
  · rw [henrollments]
    by_cases hid : f.id = e.id
    · have hsame : f = old := row_unique hf (get?_mem hold)
        (hid.trans (get?_key hold).symm)
      exact ⟨e, mem_save.mpr (.inr ⟨rfl, f, hf, hid⟩), hid.symm, by rw [hsame]; exact htenant⟩
    · exact ⟨f, mem_save.mpr (.inl ⟨hf, hid⟩), rfl, rfl⟩
  · rw [henrollments] at hf
    rcases mem_save.mp hf with ⟨hf, -⟩ | ⟨rfl, -⟩
    · exact .inl hf
    · exact .inr htrusted

theorem EnrollmentsMoved.insert {enrollments : Table AgentEnrollment String
    AgentEnrollment.id} (hinsert : s.enrollments.insert e = some enrollments)
    (htrusted : e.Trusted now s.issuers) : EnrollmentsMoved now s { s with enrollments } := by
  have hrows := (insert_eq_some hinsert).2
  refine ⟨rfl, rfl, rfl, fun f hf => ⟨f, ?_, rfl, rfl⟩, fun f hf => ?_, fun u hu =>
    .inl ⟨u, hu, rfl, rfl⟩⟩
  · show f ∈ enrollments.rows
    rw [hrows]
    exact mem_cons_of_mem _ hf
  · have hf : f ∈ enrollments.rows := hf
    rw [hrows] at hf
    rcases mem_cons.mp hf with rfl | hf
    · exact .inr htrusted
    · exact .inl hf

theorem certified_trusted {certificate : Certificate} {keyAlgorithm : String}
    (hactive : OnlyActive issuers e.tenant i) (hissued : certificate.IssuedBy i.certificate)
    (status : EnrollmentStatus) :
    ({ e.certified lib i certificate keyAlgorithm with status } : AgentEnrollment).Trusted now
      issuers :=
  fun _ _ _ _ => ⟨i, hactive.mem, rfl, hactive.ofTenant, .inl hactive.status, certificate, rfl,
    hissued⟩

theorem issueUnderActive_ok (h : PkiInv s) {deviceUri refusal : String} {csrSize : Nat}
    {csr : Option Csr} {lifetimeDays : AgentIssuer → Except ServerError Nat}
    {certificate : Certificate} {keyAlgorithm : String}
    (hissue : s.issueUnderActive now draws tenant deviceUri refusal csrSize csr lifetimeDays =
      .ok (i, certificate, keyAlgorithm)) :
    OnlyActive s.issuers tenant i ∧ certificate.IssuedBy i.certificate := by
  unfold Db.issueUnderActive at hissue
  obtain ⟨issuer, hissuer, hissue⟩ := bind_eq_ok.mp hissue
  have hactive := activeIssuer_ok hissuer
  split at hissue
  · cases hissue
  · next secret hsecret =>
      obtain ⟨_, -, hissue⟩ := bind_eq_ok.mp hissue
      obtain ⟨key, hkey, hissue⟩ := bind_eq_ok.mp hissue
      obtain ⟨_, -, hissue⟩ := bind_eq_ok.mp hissue
      obtain ⟨c, hc, hissue⟩ := bind_eq_ok.mp hissue
      cases pure_eq_ok.mp hissue
      refine ⟨hactive, issueAgentCertificate_issuedBy hc ?_⟩
      rw [decryptPrivateKey_ok hkey]
      exact h.keys _ hactive.mem secret hsecret

theorem importExternalAgentCertificate_yields (h : Inv now s) (tenant displayName : String)
    (certificate : Certificate) :
    (importExternalAgentCertificate lib now draws tenant displayName certificate).Yields
      (fun _ t => Inv now t) s := by
  unfold importExternalAgentCertificate
  simp only [yields_bind, yields_get, yields_ofExcept, yields_throwIf]
  intro _ _ issuer hissuer _ hverified _ _ _ _ _ _ san _ _ _
  have hactive := activeIssuer_ok hissuer
  split
  · unfold createEnrollment
    simp only [yields_bind, yields_get, yields_ofExcept, yields_throwIf,
      yields_set]
    intro _ _ enrollments hinserted
    refine h.enrollments (.insert (inserted_ok hinserted).1 fun _ _ _ _ => ?_)
    exact ⟨issuer, hactive.mem, rfl, hactive.ofTenant, .inl hactive.status, certificate, rfl,
      verifyDirectlyIssuedBy_ok hverified⟩
  · rw [yields_throw]
    trivial

theorem createEnrollmentToken_yields (h : Inv now s) (tenant displayName : String)
    (platform : Platform) (lifetimeMinutes : Int) (actor : String) :
    (createEnrollmentToken now draws tenant displayName platform lifetimeMinutes actor).Yields
      (fun _ t => Inv now t) s := by
  unfold createEnrollmentToken createEnrollment
  simp only [yields_bind, yields_get, yields_ofExcept, yields_throwIf,
    yields_set]
  intro _ _ _ _ _ _ _ _ _ enrollments hinserted tokens htokens
  have hinsert := (inserted_ok hinserted).1
  have hrows := (insert_eq_some hinsert).2
  have hmoved : EnrollmentsMoved now s { s with enrollments } :=
    .insert hinsert (.of_status (by simp))
  refine h.enrollments ⟨rfl, rfl, rfl, hmoved.kept, hmoved.rows, fun u hu => ?_⟩
  replace hu : u ∈ tokens.rows := hu
  rw [(insert_eq_some (inserted_ok htokens).1).2] at hu
  rcases mem_cons.mp hu with rfl | hu
  · exact .inr ⟨_, hrows ▸ mem_cons_self, rfl, rfl⟩
  · exact .inl ⟨u, hu, rfl, rfl⟩

theorem enrollAgent_yields (h : Inv now s) (rawToken : String) (csrSize : Nat) (csr : Option Csr)
    (gatewayTenant : Option String) :
    (enrollAgent lib now draws rawToken csrSize csr gatewayTenant).Yields (fun _ t => Inv now t)
      s := by
  unfold enrollAgent
  rw [yields_bind, yields_get]
  split
  · rw [yields_throw]
    trivial
  · next token htoken =>
      simp only [yields_bind, yields_ofExcept, yields_throwIf, yields_set]
      rintro _ _ _ _ e hfound _ ⟨issuer, certificate, keyAlgorithm⟩ hissue
      replace hfound := present_eq_ok.mp hfound
      obtain ⟨hactive, hissued⟩ := issueUnderActive_ok h.pki hissue
      -- the token is of an enrollment of its tenant
      have htenant : e.tenant = token.tenant := by
        obtain ⟨f, hf, hid, hof⟩ := h.enrolled.tokens token (get?_mem htoken)
        rw [row_unique (get?_mem hfound) hf ((get?_key hfound).trans hid.symm)]
        exact hof
      rw [← htenant] at hactive
      have hrow : s.enrollments.get? e.id = some e := by
        rw [get?_key hfound]
        exact hfound
      refine h.enrollments (.save
        (e := { e.certified lib issuer certificate keyAlgorithm with status := .active }) hrow rfl
        (certified_trusted hactive hissued .active) ⟨rfl, rfl, rfl⟩ rfl fun u hu => ?_)
      rcases mem_save.mp hu with ⟨hu, -⟩ | ⟨rfl, -⟩
      · exact ⟨u, hu, rfl, rfl⟩
      · exact ⟨token, get?_mem htoken, rfl, rfl⟩

theorem renewAgentCertificate_yields (h : Inv now s) (enrollmentId tenant : String)
    (csrSize : Nat) (csr : Option Csr) :
    (renewAgentCertificate lib now draws enrollmentId tenant csrSize csr).Yields
      (fun _ t => Inv now t) s := by
  unfold renewAgentCertificate
  simp only [yields_bind, yields_get, yields_ofExcept]
  intro _ _ e hfound policy _
  split
  · rw [yields_throw]
    trivial
  · simp only [yields_bind, yields_ofExcept, yields_throwIf, yields_set]
    rintro _ ⟨issuer, certificate, keyAlgorithm⟩ hissue
    obtain ⟨hfound, -⟩ := Option.filter_eq_some_iff.mp (present_eq_ok.mp hfound)
    obtain ⟨hactive, hissued⟩ := issueUnderActive_ok h.pki hissue
    have hrow : s.enrollments.get? e.id = some e := by
      rw [get?_key hfound]
      exact hfound
    exact h.enrollments (.save (e := e.certified lib issuer certificate keyAlgorithm) hrow rfl
      (certified_trusted hactive hissued e.status) ⟨rfl, rfl, rfl⟩ rfl fun u hu => ⟨u, hu, rfl, rfl⟩)

/-! ## Withdrawal -/

theorem EnrollmentsMoved.refl (s : Db) : EnrollmentsMoved now s s :=
  ⟨rfl, rfl, rfl, fun e he => ⟨e, he, rfl, rfl⟩, fun _ hf => .inl hf,
    fun u hu => .inl ⟨u, hu, rfl, rfl⟩⟩

theorem EnrollmentsMoved.trans {u : Db} (h : EnrollmentsMoved now s t)
    (h' : EnrollmentsMoved now t u) : EnrollmentsMoved now s u := by
  refine ⟨h'.policies.trans h.policies, h'.issuers.trans h.issuers,
    h'.identities.trans h.identities, fun e he => ?_, fun f hf => ?_, fun k hk => ?_⟩
  · obtain ⟨f, hf, hid, htenant⟩ := h.kept e he
    obtain ⟨f', hf', hid', htenant'⟩ := h'.kept f hf
    exact ⟨f', hf', hid'.trans hid, htenant'.trans htenant⟩
  · rcases h'.rows f hf with hold | hnew
    · exact h.rows f hold
    · rw [h.issuers] at hnew
      exact .inr hnew
  · rcases h'.tokens k hk with ⟨v, hv, henrollment, htenant⟩ | hnew
    · rcases h.tokens v hv with ⟨w, hw, hw', hw''⟩ | ⟨f, hf, hid, hof⟩
      · exact .inl ⟨w, hw, hw'.trans henrollment, hw''.trans htenant⟩
      · obtain ⟨f', hf', hid', hof'⟩ := h'.kept f hf
        exact .inr ⟨f', hf', hid'.trans (hid.trans henrollment), hof'.trans (hof.trans htenant)⟩
    · exact .inr hnew

theorem EnrollmentsMoved.mapRows {f : AgentEnrollment → AgentEnrollment} (hf : ∀ e, (f e).id = e.id)
    (htenant : ∀ e, (f e).tenant = e.tenant) (hstatus : ∀ e, f e = e ∨ (f e).status ≠ .active)
    (ht : t.policies = s.policies ∧ t.issuers = s.issuers ∧ t.identities = s.identities)
    (henrollments : t.enrollments = s.enrollments.mapRows f hf)
    (htokens : ∀ u ∈ t.tokens.rows,
      ∃ v ∈ s.tokens.rows, v.enrollment = u.enrollment ∧ v.tenant = u.tenant) :
    EnrollmentsMoved now s t := by
  refine ⟨ht.1, ht.2.1, ht.2.2, fun e he => ?_, fun e he => ?_, fun u hu => .inl (htokens u hu)⟩
  · rw [henrollments]
    exact ⟨f e, mem_map.mpr ⟨e, he, rfl⟩, hf e, htenant e⟩
  · rw [henrollments] at he
    obtain ⟨d, hd, rfl⟩ := mem_map.mp he
    rcases hstatus d with hsame | hinactive
    · rw [hsame]
      exact .inl hd
    · exact .inr (.of_status hinactive)

theorem deleteUnusedTokens_moved (enrollmentId : String) :
    EnrollmentsMoved now s (s.deleteUnusedTokens enrollmentId) :=
  ⟨rfl, rfl, rfl, fun e he => ⟨e, he, rfl, rfl⟩, fun _ hf => .inl hf,
    fun u hu => .inl ⟨u, List.mem_of_mem_filter hu, rfl, rfl⟩⟩

theorem revokeAgent_yields (enrollmentId actor reason : String) :
    (revokeAgent enrollmentId actor reason).Yields (fun _ t => EnrollmentsMoved now s t) s := by
  unfold revokeAgent
  simp only [yields_bind, yields_get, yields_ofExcept, yields_ite, yields_pure,
    yields_set]
  intro e hfound
  refine ⟨fun _ => .refl s, fun _ revocations _ => ?_⟩
  have hrow : s.enrollments.get? e.id = some e := by
    rw [get?_key (present_eq_ok.mp hfound)]
    exact present_eq_ok.mp hfound
  exact .save (e := { e with status := .revoked }) hrow rfl (.of_status (by simp)) ⟨rfl, rfl, rfl⟩
    rfl fun u hu => ⟨u, hu, rfl, rfl⟩

theorem removeAgent_yields (enrollmentId tenant actor : String) (removable : Bool) :
    (removeAgent enrollmentId tenant actor removable).Yields
      (fun _ t => EnrollmentsMoved now s t) s := by
  unfold removeAgent
  simp only [yields_bind, yields_get, yields_ofExcept, yields_throwIf]
  intro _ _ e hfound _
  obtain ⟨hfound, -⟩ := Option.filter_eq_some_iff.mp (present_eq_ok.mp hfound)
  -- whether the agent is revoked first or not, its row stays in its tenant
  have hrest : ∀ u, EnrollmentsMoved now s u → Yields (do
      modify fun db : Db => { db with
        enrollments := db.enrollments.save { e with status := .removed } }
      modify fun db => db.deleteUnusedTokens enrollmentId : Request Unit)
      (fun _ t => EnrollmentsMoved now s t) u := by
    intro u hu
    simp only [yields_bind, yields_modify]
    refine hu.trans (EnrollmentsMoved.trans ?_ (deleteUnusedTokens_moved enrollmentId))
    obtain ⟨f, hf, hid, htenant⟩ := hu.kept e (get?_mem hfound)
    have hrow : u.enrollments.get? e.id = some f := by
      rw [← hid]
      exact get?_of_mem hf
    exact .save (e := { e with status := .removed }) hrow htenant.symm (.of_status (by simp))
      ⟨rfl, rfl, rfl⟩ rfl fun u hu => ⟨u, hu, rfl, rfl⟩
  by_cases hactive : e.status = .active
  · rw [if_pos hactive, yields_bind]
    exact (revokeAgent_yields _ _ _).mono fun _ u hu => hrest u hu
  · rw [if_neg hactive]
    exact hrest s (.refl s)

theorem finishDeployment_yields (enrollmentId : String) (succeeded updatedExistingAgent : Bool) :
    (finishDeployment enrollmentId succeeded updatedExistingAgent).Yields
      (fun _ t => EnrollmentsMoved now s t) s := by
  have hrest : ∀ u, EnrollmentsMoved now s u → EnrollmentsMoved now s { u with
      enrollments := u.enrollments.mapRows
        (fun e => if e.id = enrollmentId ∧ e.status = .pending then { e with status := .revoked }
          else e)
        fun e => by split <;> rfl } := by
    intro u hu
    refine hu.trans (.mapRows (fun e => by split <;> rfl) (fun e => by split <;> rfl) (fun e => ?_)
      ⟨rfl, rfl, rfl⟩ rfl fun u hu => ⟨u, hu, rfl, rfl⟩)
    split
    · exact .inr (by simp)
    · exact .inl rfl
  have hdeleted : EnrollmentsMoved now s (s.deleteUnusedTokens enrollmentId) :=
    deleteUnusedTokens_moved enrollmentId
  unfold finishDeployment
  simp only [yields_ite, yields_bind, yields_modify, yields_pure]
  exact ⟨fun _ => ⟨fun _ => hrest _ hdeleted, fun _ => hdeleted⟩,
    fun _ => ⟨fun _ => hrest s (.refl s), fun _ => .refl s⟩⟩

theorem changeTenantStatus_yields (id : String) (status : TenantStatus) :
    (changeTenantStatus now id status).Yields (fun _ t => EnrollmentsMoved now s t) s := by
  unfold changeTenantStatus
  simp only [yields_bind, yields_get, yields_ofExcept, yields_set, yields_ite,
    yields_modify, yields_pure]
  intro tenant _
  refine ⟨fun _ => ?_, fun _ => ⟨rfl, rfl, rfl, fun e he => ⟨e, he, rfl, rfl⟩, fun _ hf => .inl hf,
    fun u hu => .inl ⟨u, hu, rfl, rfl⟩⟩⟩
  refine .mapRows (fun e => by split <;> rfl) (fun e => by split <;> rfl) (fun e => ?_)
    ⟨rfl, rfl, rfl⟩ rfl fun u hu => ?_
  · split
    · exact .inr (by simp)
    · exact .inl rfl
  · obtain ⟨v, hv, rfl⟩ := mem_map.mp hu
    refine ⟨v, hv, ?_⟩
    split <;> exact ⟨rfl, rfl⟩

end

/-! ## Runs -/

/-- The tables and the clock. -/
structure System where
  db : Db
  now : Time

/-- What may happen to the agent PKI. -/
inductive Event where
  | elapse (time : Nat)
  | tenantStatus (id : String) (status : TenantStatus)
  | bootstrap (draws : Draws) (tenant gatewayDnsName passphrase : String) (written : Bool)
  | prepare (draws : Draws) (tenant gatewayDnsName passphrase : String)
  | downloadRecovery (tenant : String)
  | confirmRecovery (tenant bundleSha256 : String)
  | configureIssuing (draws : Draws) (tenant gatewayDnsName : String)
      (issuerCert chainCert : Certificate) (issuerKey : PrivateKey)
  | configureCertificates (draws : Draws) (tenant gatewayDnsName : String)
      (gatewayCert : Certificate) (gatewayKey : PrivateKey) (gatewayChain : List Certificate)
      (agentIssuerCert : Certificate)
  | importCertificate (draws : Draws) (tenant displayName : String) (certificate : Certificate)
  | rotate (draws : Draws) (tenant : String) (recovery : RecoveryBundle) (passphrase : String)
  | rollback (draws : Draws) (tenant issuerId : String)
  | retire (tenant issuerId : String)
  | createToken (draws : Draws) (tenant displayName : String) (platform : Platform)
      (lifetimeMinutes : Int) (actor : String)
  | enroll (draws : Draws) (rawToken : String) (csrSize : Nat) (csr : Option Csr)
      (gatewayTenant : Option String)
  | renew (draws : Draws) (enrollmentId tenant : String) (csrSize : Nat) (csr : Option Csr)
  | revoke (enrollmentId actor reason : String)
  | remove (enrollmentId tenant actor : String) (removable : Bool)
  | finishDeployment (enrollmentId : String) (succeeded updatedExistingAgent : Bool)

/-- The request of an event; time alone passes without one. -/
def Event.request (lib : Library) (now : Time) : Event → Request Unit
  | .elapse _ => pure ()
  | .tenantStatus id status => changeTenantStatus now id status
  | .bootstrap draws tenant gatewayDnsName passphrase written =>
    bootstrapManagedPki lib now draws tenant gatewayDnsName passphrase written
  | .prepare draws tenant gatewayDnsName passphrase =>
    prepareManagedPki lib now draws tenant gatewayDnsName passphrase
  | .downloadRecovery tenant => downloadManagedPkiRecovery lib now tenant
  | .confirmRecovery tenant bundleSha256 => confirmManagedPkiRecovery now tenant bundleSha256
  | .configureIssuing draws tenant gatewayDnsName issuerCert chainCert issuerKey =>
    configureExternalIssuingPki lib now draws tenant gatewayDnsName issuerCert chainCert issuerKey
  | .configureCertificates draws tenant gatewayDnsName gatewayCert gatewayKey gatewayChain
      agentIssuerCert =>
    configureExternalCertificatePki lib now draws tenant gatewayDnsName gatewayCert gatewayKey
      gatewayChain agentIssuerCert
  | .importCertificate draws tenant displayName certificate =>
    importExternalAgentCertificate lib now draws tenant displayName certificate
  | .rotate draws tenant recovery passphrase =>
    rotateManagedIssuer lib now draws tenant recovery passphrase
  | .rollback draws tenant issuerId => rollbackManagedIssuer lib now draws tenant issuerId
  | .retire tenant issuerId => retireOverlapIssuer now tenant issuerId
  | .createToken draws tenant displayName platform lifetimeMinutes actor =>
    createEnrollmentToken now draws tenant displayName platform lifetimeMinutes actor
  | .enroll draws rawToken csrSize csr gatewayTenant =>
    enrollAgent lib now draws rawToken csrSize csr gatewayTenant
  | .renew draws enrollmentId tenant csrSize csr =>
    renewAgentCertificate lib now draws enrollmentId tenant csrSize csr
  | .revoke enrollmentId actor reason => revokeAgent enrollmentId actor reason
  | .remove enrollmentId tenant actor removable => removeAgent enrollmentId tenant actor removable
  | .finishDeployment enrollmentId succeeded updatedExistingAgent =>
    Ipms.Server.AgentPki.finishDeployment enrollmentId succeeded updatedExistingAgent

/-- How far an event moves the clock. -/
def Event.elapsed : Event → Nat
  | .elapse time => time
  | _ => 0

/-- What an event leaves: a request that fails leaves the tables. -/
def System.next (lib : Library) (s : System) (e : Event) : System where
  db := match (e.request lib s.now).exec s.db with
    | .ok (_, db) => db
    | .error _ => s.db
  now := s.now + e.elapsed

def Step (lib : Library) (s : System) (e : Event) (t : System) : Prop := t = s.next lib e

/-- No tenant has configured its PKI yet. -/
structure Initial (s : System) : Prop where
  policies : s.db.policies.rows = []
  issuers : s.db.issuers.rows = []
  enrollments : s.db.enrollments.rows = []
  tokens : s.db.tokens.rows = []

section
variable {lib : Library} {now : Time} {s t : Db}

/-- Every request keeps the invariant. -/
theorem Event.request_yields (h : Inv now s) (e : Event) :
    (e.request lib now).Yields (fun _ t => Inv now t) s := by
  cases e with
  | elapse time =>
    rw [Event.request, yields_pure]
    exact h
  | tenantStatus id status =>
    exact (changeTenantStatus_yields id status).mono fun _ _ ht => h.enrollments ht
  | bootstrap draws tenant gatewayDnsName passphrase written =>
    exact bootstrapManagedPki_yields h tenant gatewayDnsName passphrase written
  | prepare draws tenant gatewayDnsName passphrase =>
    exact prepareManagedPki_yields h tenant gatewayDnsName passphrase
  | downloadRecovery tenant => exact downloadManagedPkiRecovery_yields h tenant
  | confirmRecovery tenant bundleSha256 =>
    exact confirmManagedPkiRecovery_yields h tenant bundleSha256
  | configureIssuing draws tenant gatewayDnsName issuerCert chainCert issuerKey =>
    exact configureExternalIssuingPki_yields h tenant gatewayDnsName issuerCert chainCert issuerKey
  | configureCertificates draws tenant gatewayDnsName gatewayCert gatewayKey gatewayChain cert =>
    exact configureExternalCertificatePki_yields h tenant gatewayDnsName gatewayCert gatewayKey
      gatewayChain cert
  | importCertificate draws tenant displayName certificate =>
    exact importExternalAgentCertificate_yields h tenant displayName certificate
  | rotate draws tenant recovery passphrase =>
    exact rotateManagedIssuer_yields h tenant recovery passphrase
  | rollback draws tenant issuerId => exact rollbackManagedIssuer_yields h tenant issuerId
  | retire tenant issuerId => exact retireOverlapIssuer_yields h tenant issuerId
  | createToken draws tenant displayName platform lifetimeMinutes actor =>
    exact createEnrollmentToken_yields h tenant displayName platform lifetimeMinutes actor
  | enroll draws rawToken csrSize csr gatewayTenant =>
    exact enrollAgent_yields h rawToken csrSize csr gatewayTenant
  | renew draws enrollmentId tenant csrSize csr =>
    exact renewAgentCertificate_yields h enrollmentId tenant csrSize csr
  | revoke enrollmentId actor reason =>
    exact (revokeAgent_yields enrollmentId actor reason).mono fun _ _ ht => h.enrollments ht
  | remove enrollmentId tenant actor removable =>
    exact (removeAgent_yields enrollmentId tenant actor removable).mono
      fun _ _ ht => h.enrollments ht
  | finishDeployment enrollmentId succeeded updated =>
    exact (finishDeployment_yields enrollmentId succeeded updated).mono
      fun _ _ ht => h.enrollments ht

theorem Inv.later (h : Inv now s) {later : Time} (hle : now ≤ later) : Inv later s := by
  refine ⟨h.pki, h.enrolled.tokens, fun e he hactive notAfter hnotAfter hlt => ?_⟩
  exact h.enrolled.trusted e he hactive notAfter hnotAfter (Int.lt_of_le_of_lt hle hlt)

theorem Step.inv {s t : System} {e : Event} (h : Step lib s e t) (hs : Inv s.now s.db) :
    Inv t.now t.db := by
  obtain rfl := h
  have hclock : s.now ≤ (s.next lib e).now :=
    Int.le_add_of_nonneg_right (Int.natCast_nonneg e.elapsed)
  refine Inv.later ?_ hclock
  unfold System.next
  cases hrun : (e.request lib s.now).exec s.db with
  | error error => exact hs
  | ok r => exact Event.request_yields hs e r.1 r.2 hrun

theorem Inv.init {s : System} (h : Initial s) : Inv s.now s.db := by
  refine ⟨⟨fun p hp => ?_, fun i hi => ?_, fun p hp => ?_, fun i hi => ?_⟩, fun u hu => ?_,
    fun e he => ?_⟩
  · rw [h.policies] at hp
    cases hp
  · rw [h.issuers] at hi
    cases hi
  · rw [h.policies] at hp
    cases hp
  · rw [h.issuers] at hi
    cases hi
  · rw [h.tokens] at hu
    cases hu
  · rw [h.enrollments] at he
    cases he

end

/-! ## Issuers are trusted -/

/-- What holds of the issuers of tenants: a configured tenant has one active issuer, the gateway
identity the portal manages is one and the active issuer issued it, and an active enrollment whose
certificate has not expired was issued by an issuer of its tenant that is active or overlaps. -/
structure IssuersTrusted (s : System) : Prop where
  active : ∀ p ∈ s.db.policies.rows,
    ∃! i, i ∈ s.db.issuers.rows ∧ i.tenant = p.tenant ∧ i.status = .active
  gateway : ∀ p ∈ s.db.policies.rows, p.trustMode ≠ .externalCertificates →
    ∃! g, g ∈ s.db.identities.rows ∧ g.policy = p.id ∧
      ∃ i ∈ s.db.issuers.rows, i.tenant = p.tenant ∧ i.status = .active ∧ g.issuer = some i.id ∧
        g.certificate.IssuedBy i.certificate
  enrollments : ∀ e ∈ s.db.enrollments.rows, e.Trusted s.now s.db.issuers

/-- Over every run of the agent PKI, whatever the order of its requests, issuers are trusted. -/
theorem issuers_trusted (lib : Library) {s t : System} {es : List Event} (hinit : Initial s)
    (hrun : Run (Step lib) s es t) : IssuersTrusted t := by
  have hinv : Inv t.now t.db := hrun.preserves (fun _ _ _ hstep hs => hstep.inv hs) (Inv.init hinit)
  refine ⟨fun p hp => ?_, fun p hp hmode => ?_, hinv.enrolled.trusted⟩
  · obtain ⟨i, hi⟩ := hinv.pki.served p hp
    refine ⟨i, ⟨hi.active.mem, hi.active.ofTenant, hi.active.status⟩, ?_⟩
    rintro j ⟨hj, htenant, hstatus⟩
    exact hi.active.only j hj htenant hstatus
  · obtain ⟨i, hi⟩ := hinv.pki.served p hp
    obtain ⟨g, hg⟩ := hi.gateway hmode
    refine ⟨g, ⟨hg.mem, hg.ofPolicy, i, hi.active.mem, hi.active.ofTenant, hi.active.status,
      hg.issuer, hg.issued⟩, ?_⟩
    rintro k ⟨hk, hpolicy, -⟩
    exact hg.only k hk hpolicy

/-! ### A tenant that rotates its issuer -/

/-- Libraries that tell certificates apart by their serial numbers. -/
def sampleLibrary : Library where
  fingerprint c := Crypto.sha256 (encode c.serialText.toList)
  bundleSha256 bundle := Crypto.sha256 (encode (toString bundle.key.pair).toList)
  bundleSize _ _ := 1200
  hostname name := some name

/-- Draws that differ from request to request. -/
def sampleDraws (n : Nat) : Draws where
  rootKey := ⟨10 * n⟩
  issuerKey := ⟨10 * n + 1⟩
  gatewayKey := ⟨10 * n + 2⟩
  rootSerial := 10 * n
  issuerSerial := 10 * n + 1
  leafSerial := 10 * n + 2
  policy := s!"policy {n}"
  issuer := s!"issuer {n}"
  identity := "0f8fad5b-d9cb-469f-a165-70867728950e"
  other := s!"row {n}"
  token := s!"token {n}"

/-- An active tenant without a PKI. -/
def sampleStart : System where
  db := {
    tenants := .single ⟨"t", .active, .infrastructure⟩
    policies := .empty
    issuers := .empty
    identities := .empty
    materials := .empty
    enrollments := .empty
    tokens := .empty
    revocations := .empty }
  now := 1789036245000000

def sampleRoot : Certificate :=
  authorityCertificate sampleStart.now "IPMS Agent Root CA" ⟨10⟩ 10 (days 3650) 1
    (nameOf "IPMS Agent Root CA") ⟨10⟩

/-- An agent enrolls, the issuer is rotated, and the old one is retired when the agent renewed. -/
def sampleEvents : List Event :=
  [.bootstrap (sampleDraws 1) "t" "gateway.example" "a passphrase of the root" true,
    .createToken (sampleDraws 2) "t" "agent" .windows 30 "alice",
    .enroll (sampleDraws 3) "token 2" 800 (some ⟨⟨77⟩, .ed25519, true⟩) (some "t"),
    .rotate (sampleDraws 4) "t" ⟨1200, ⟨10⟩, true, "a passphrase of the root", some sampleRoot⟩
      "a passphrase of the root",
    .retire "t" "issuer 1",
    .elapse 2160000000000,
    .renew (sampleDraws 5) "row 2" "t" 800 (some ⟨⟨78⟩, .ed25519, true⟩),
    .retire "t" "issuer 1"]

theorem issuers_trusted_sample :
    IssuersTrusted (sampleEvents.foldl (System.next sampleLibrary) sampleStart) :=
  issuers_trusted sampleLibrary ⟨rfl, rfl, rfl, rfl⟩
    (.cons rfl (.cons rfl (.cons rfl (.cons rfl (.cons rfl (.cons rfl (.cons rfl (.cons rfl
      (.nil _)))))))))

end Ipms.Server.AgentPki
