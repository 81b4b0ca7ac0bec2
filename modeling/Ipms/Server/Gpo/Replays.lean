import Ipms.ManagementJson.Unambiguous
import Ipms.Server.Gpo.JobRows

/-
  Ipms.Server.Gpo.Replays

  Requests that create a job under a key of their own.  A request with the key of
  a job that exists makes no other one: what it is answered with depends on what
  is checked before the key is looked up, and on the row that stands under it.
-/

namespace Ipms.Server

open Ipms.ManagementJson

/-- Documents that are different texts with one SHA-256 digest. -/
def Collide (v w : Value) : Prop :=
  canonical v ≠ canonical w ∧ Crypto.sha256 (canonical v) = Crypto.sha256 (canonical w)

theorem digest_eq {v w : Value} (h : digest v = digest w) : v = w ∨ Collide v w := by
  by_cases hcanonical : canonical v = canonical w
  · rw [canonical_eq_render, canonical_eq_render] at hcanonical
    exact .inl (render_injective hcanonical)
  · exact .inr ⟨hcanonical, h⟩

end Ipms.Server

namespace Ipms.Server.Gpo

open Ipms.Lib Ipms.ManagementJson Txn
open Ipms.Agent.Gpo (Job ManagedJob Operation)

/-! ## Requests -/

/-- A request that creates a job. -/
inductive Creation where
  | pilotImport (data : ImportData)
  | preflight (data : PreflightData)
  | change (data : ChangeData)
  deriving DecidableEq

/-- `idempotency_key`. -/
def Creation.key : Creation → String
  | .pilotImport data => data.idempotencyKey
  | .preflight (.selection data) => data.idempotencyKey
  | .preflight (.deletion data) => data.idempotencyKey
  | .change data => data.idempotencyKey

/-- The document a request is known by. -/
def Creation.document (domain : String) : Creation → Value
  | .pilotImport data =>
    .obj [("backup_id", .str data.backupId), ("baseline_id", .str data.baselineId),
      ("domain_id", .str domain), ("idempotency_key", .str data.idempotencyKey),
      ("revision", .int data.revision), ("system_id", .str data.systemId),
      ("target", .str data.target), ("tier", .str data.tier), ("version", .str data.version)]
  | .preflight (.selection d) =>
    .obj ([("adopt_job_id", textOrNull d.adoptJobId), ("backup_id", .str d.backupId),
      ("baseline_id", .str d.baselineId), ("domain_id", .str domain)] ++
      (optionalMember "domain_root_confirmed" (d.domainRootConfirmed.map .bool) ++
      [("idempotency_key", .str d.idempotencyKey), ("managed_id", textOrNull d.managedId),
      ("operation", .str d.operation.text)] ++
      (optionalMember "override_id" (d.override.map fun o => .str o.overrideId) ++
      optionalMember "override_revision" (d.override.map fun o => .int o.revision) ++
      optionalMember "override_sha256" (d.override.map fun o => .str o.sha256) ++
      [("revision", .int d.revision), ("system_id", .str d.systemId), ("target", .str d.target),
      ("target_ous", .arr (d.targetOus.map .str)), ("tier", .str d.tier),
      ("version", .str d.version)])))
  | .preflight (.deletion d) =>
    .obj ([("domain_id", .str domain)] ++
      (optionalMember "domain_root_confirmed" (d.domainRootConfirmed.map .bool) ++
      [("idempotency_key", .str d.idempotencyKey), ("managed_id", .str d.managedId),
      ("operation", .str Operation.deleteManagedGpo.text), ("revision", .int d.revision),
      ("system_id", .str d.systemId)]))
  | .change data =>
    .obj [("domain_id", .str domain), ("idempotency_key", .str data.idempotencyKey),
      ("preflight_id", .str data.preflightId), ("safety_review", data.safetyReview.toJson)]

/-- `request_sha256`. -/
def Creation.digest (domain : String) (r : Creation) : String := Server.digest (r.document domain)

/-- Perform a request; the id of the job it made or found is returned. -/
def create (c : Catalogue) (now : Time) (tenant : Tenant) (user : User)
    (config : DomainSecuritySettings) (policyId : String) : Creation → Request String
  | .pilotImport data => queueJob c now tenant user config data
  | .preflight data => createPreflight c now tenant user config data policyId
  | .change data => createChange c now tenant user config data

/-! ## Documents -/

theorem textOrNull_injective {a b : Option String} (h : textOrNull a = textOrNull b) : a = b := by
  cases a <;> cases b <;> first | rfl | cases h <;> rfl

theorem texts_injective : {as bs : List String} → as.map Value.str = bs.map Value.str → as = bs
  | [], [], _ => rfl
  | _ :: _, _ :: _, h => by
    obtain ⟨hhead, htail⟩ := List.cons.inj h
    rw [Value.str.inj hhead, texts_injective htail]

theorem operationText_injective : {a b : Operation} → a.text = b.text → a = b := by
  intro a b h
  cases a <;> cases b <;> first | rfl | exact absurd h (by decide)

theorem safetyReview_injective {a b : Agent.Gpo.SafetyReview} (h : a.toJson = b.toJson) : a = b := by
  cases a
  cases b
  cases h
  rfl

variable {domain' domain : String}

theorem selection_injective {d d' : SelectionData}
    (h : (Creation.preflight (.selection d)).document domain =
      (Creation.preflight (.selection d')).document domain') : domain = domain' ∧ d = d' := by
  obtain ⟨revision, systemId, baselineId, backupId, tier, target, targetOus, version, key, operation,
    managedId, adoptJobId, override, confirmed⟩ := d
  obtain ⟨revision', systemId', baselineId', backupId', tier', target', targetOus', version', key',
    operation', managedId', adoptJobId', override', confirmed'⟩ := d'
  have hmembers := Value.obj.inj h
  cases confirmed <;> cases confirmed' <;> cases override <;> cases override' <;>
    simp only [optionalMember, Option.map_none, Option.map_some, Option.toList, List.cons_append,
      List.nil_append, List.cons.injEq, Prod.mk.injEq, Value.str.injEq, Value.int.injEq,
      Value.bool.injEq, Value.arr.injEq, String.reduceEq, true_and, false_and, and_false, and_true]
      at hmembers
  · obtain ⟨ha, rfl, rfl, rfl, rfl, hm, ho, rfl, rfl, rfl, ht, rfl, rfl⟩ := hmembers
    rw [textOrNull_injective ha, textOrNull_injective hm, operationText_injective ho,
      texts_injective ht]
    exact ⟨rfl, rfl⟩
  · next o o' =>
      obtain ⟨oid, orevision, osha⟩ := o
      obtain ⟨oid', orevision', osha'⟩ := o'
      obtain ⟨ha, rfl, rfl, rfl, rfl, hm, ho, rfl, rfl, rfl, rfl, rfl, rfl, ht, rfl, rfl⟩ := hmembers
      rw [textOrNull_injective ha, textOrNull_injective hm, operationText_injective ho,
        texts_injective ht]
      exact ⟨rfl, rfl⟩
  · obtain ⟨ha, rfl, rfl, rfl, rfl, rfl, hm, ho, rfl, rfl, rfl, ht, rfl, rfl⟩ := hmembers
    rw [textOrNull_injective ha, textOrNull_injective hm, operationText_injective ho,
      texts_injective ht]
    exact ⟨rfl, rfl⟩
  · next o o' =>
      obtain ⟨oid, orevision, osha⟩ := o
      obtain ⟨oid', orevision', osha'⟩ := o'
      obtain ⟨ha, rfl, rfl, rfl, rfl, rfl, hm, ho, rfl, rfl, rfl, rfl, rfl, rfl, ht, rfl, rfl⟩ :=
        hmembers
      rw [textOrNull_injective ha, textOrNull_injective hm, operationText_injective ho,
        texts_injective ht]
      exact ⟨rfl, rfl⟩

theorem deletion_injective {d d' : DeletionData}
    (h : (Creation.preflight (.deletion d)).document domain =
      (Creation.preflight (.deletion d')).document domain') : domain = domain' ∧ d = d' := by
  obtain ⟨revision, systemId, key, managedId, confirmed⟩ := d
  obtain ⟨revision', systemId', key', managedId', confirmed'⟩ := d'
  have hmembers := Value.obj.inj h
  cases confirmed <;> cases confirmed' <;>
    simp only [optionalMember, Option.map_none, Option.map_some, Option.toList, List.cons_append,
      List.nil_append, List.cons.injEq, Prod.mk.injEq, Value.str.injEq, Value.int.injEq,
      Value.bool.injEq, String.reduceEq, true_and, false_and, and_false, and_true] at hmembers
  · obtain ⟨rfl, rfl, rfl, rfl, rfl⟩ := hmembers
    exact ⟨rfl, rfl⟩
  · obtain ⟨rfl, rfl, rfl, rfl, rfl, rfl⟩ := hmembers
    exact ⟨rfl, rfl⟩

/-- The name of the first member of a document. -/
def firstName : Value → Option String
  | .obj (member :: _) => some member.1
  | _ => none

/-- The name of the first member of a request's document. -/
def Creation.leading : Creation → String
  | .pilotImport _ => "backup_id"
  | .preflight (.selection _) => "adopt_job_id"
  | .preflight (.deletion _) => "domain_id"
  | .change _ => "domain_id"

theorem firstName_document (domain : String) (r : Creation) :
    firstName (r.document domain) = some r.leading := by
  match r with
  | .pilotImport _ | .preflight (.selection _) | .preflight (.deletion _) | .change _ => rfl

variable {data : ChangeData}

theorem deletion_ne_change {d : DeletionData} :
    (Creation.preflight (.deletion d)).document domain ≠ (Creation.change data).document domain' := by
  obtain ⟨revision, systemId, key, managedId, confirmed⟩ := d
  intro h
  have hmembers := Value.obj.inj h
  cases confirmed <;>
    simp only [optionalMember, Option.map_none, Option.map_some, Option.toList, List.cons_append,
      List.nil_append, List.cons.injEq, Prod.mk.injEq, String.reduceEq, false_and, and_false]
      at hmembers

variable {r : Creation}

/-- The document of a request tells what is asked for, and for which domain. -/
theorem document_injective {r' : Creation} (h : r.document domain = r'.document domain') :
    domain = domain' ∧ r = r' := by
  have hleading : r.leading = r'.leading := by
    have hfirst := congrArg firstName h
    rw [firstName_document, firstName_document] at hfirst
    exact Option.some.inj hfirst
  match r, r' with
  | .pilotImport ⟨_, _, _, _, _, _, _, _⟩, .pilotImport ⟨_, _, _, _, _, _, _, _⟩ =>
    cases h
    exact ⟨rfl, rfl⟩
  | .preflight (.selection d), .preflight (.selection d') =>
    obtain ⟨hdomain, rfl⟩ := selection_injective h
    exact ⟨hdomain, rfl⟩
  | .preflight (.deletion d), .preflight (.deletion d') =>
    obtain ⟨hdomain, rfl⟩ := deletion_injective h
    exact ⟨hdomain, rfl⟩
  | .change ⟨preflight, key, review⟩, .change ⟨preflight', key', review'⟩ =>
    simp only [Creation.document, Value.obj.injEq, List.cons.injEq, Prod.mk.injEq, Value.str.injEq,
      true_and, and_true] at h
    obtain ⟨rfl, rfl, rfl, hreview⟩ := h
    rw [safetyReview_injective hreview]
    exact ⟨rfl, rfl⟩
  | .preflight (.deletion d), .change data => exact absurd h deletion_ne_change
  | .change data, .preflight (.deletion d) => exact absurd h.symm deletion_ne_change
  | .pilotImport _, .preflight (.selection _) | .pilotImport _, .preflight (.deletion _)
  | .pilotImport _, .change _ | .preflight (.selection _), .pilotImport _
  | .preflight (.selection _), .preflight (.deletion _) | .preflight (.selection _), .change _
  | .preflight (.deletion _), .pilotImport _ | .preflight (.deletion _), .preflight (.selection _)
  | .change _, .pilotImport _ | .change _, .preflight (.selection _) =>
    simp [Creation.leading] at hleading

/-! ## The key of a job that exists -/

/-- What is checked before the key of a request is looked up. -/
def Admitted (c : Catalogue) (now : Time) (tenant : Tenant) (user : User)
    (config : DomainSecuritySettings) (db : Db) : Creation → Prop
  | .pilotImport data => uuidText data.idempotencyKey = true ∧ uuidText data.systemId = true ∧
      ∃ tier, tierNumber data.tier = some tier ∧
        db.scopedFor now (some user) tenant config tier .securityGpoImportsRun = true
  | .preflight (.selection data) => ∃ s, db.selection c now tenant user config data = .ok s
  | .preflight (.deletion data) => uuidText data.idempotencyKey = true
  | .change data => uuidText data.preflightId = true ∧ uuidText data.idempotencyKey = true ∧
      ∃ inspected, db.jobs.get? data.preflightId = some inspected ∧ inspected.tenant = tenant.id ∧
        inspected.domain = config.id ∧ db.scopedFor now (some user) tenant config
          inspected.assignment.core.targetTier .securityGpoImportsRun = true

/-- The row of a job answers a request: it was made by such a one. -/
structure Answers (j : GpoImportJob) (tenant : String) (user : Nat) (sha256 : String) : Prop where
  tenant : j.tenant = tenant
  digest : j.requestSha256 = sha256
  requester : j.requestedBy = some user

section
variable {c : Catalogue} {now : Time} {db m : Db} {tenant : Tenant} {user : User}
variable {config : DomainSecuritySettings} {j : GpoImportJob} {key : String}

variable {α : Type}

theorem exec_throwIf_bind {p : Prop} [Decidable p] {e : ServerError} {f : Unit → Request α} {a : α}
    : (throwIf p e >>= f).exec db = .ok (a, m) ↔
      ¬p ∧ (f ()).exec db = .ok (a, m) := by
  rw [exec_bind]
  unfold throwIf
  by_cases hp : p <;> simp [hp]

theorem exec_get_bind {f : Db → Request α} : (get >>= f).exec db = (f db).exec db := by
  rw [exec_bind, exec_get]

theorem exec_ofExcept_bind {β : Type} {x : Except ServerError α} {f : α → Request β} {b : β} :
    (Txn.ofExcept x >>= f).exec db = .ok (b, m) ↔
      ∃ a, x = .ok a ∧ (f a).exec db = .ok (b, m) := by
  rw [exec_bind_ok]
  constructor
  · rintro ⟨a, u, ha, hb⟩
    obtain ⟨hx, hu⟩ := exec_ofExcept_ok.mp ha
    rw [hu] at hb
    exact ⟨a, hx, hb⟩
  · rintro ⟨a, ha, hb⟩
    exact ⟨a, db, exec_ofExcept_ok.mpr ⟨ha, rfl⟩, hb⟩

variable {sha256 : String}

theorem retry_existing {row : Option GpoImportJob} (hj : db.jobs.get? key = some j) :
    db.retry tenant user.id key sha256 = .ok row ↔ Answers j tenant.id user.id sha256 ∧ row = some j := by
  unfold Db.retry
  rw [hj]
  simp only [bind_eq_ok, throwIf_eq_ok, pure_eq_ok]
  constructor
  · rintro ⟨⟨⟩, hsame, rfl⟩
    simp only [ne_eq, not_or, not_not] at hsame
    exact ⟨⟨hsame.1, hsame.2.1, hsame.2.2⟩, rfl⟩
  · rintro ⟨hanswers, rfl⟩
    refine ⟨(), ?_, rfl⟩
    rw [not_or, not_or, not_not, not_not, not_not]
    exact ⟨hanswers.tenant, hanswers.digest, hanswers.requester⟩

theorem queueJob_existing {data : ImportData} (hj : db.jobs.get? data.idempotencyKey = some j) :
    (queueJob c now tenant user config data).exec db = .ok (key, m) ↔
      Admitted c now tenant user config db (.pilotImport data) ∧
        Answers j tenant.id user.id (data.digest config.id) ∧ key = j.id ∧ m = db := by
  unfold queueJob Admitted
  rw [exec_throwIf_bind, not_or, Bool.not_eq_false, Bool.not_eq_false]
  cases htier : tierNumber data.tier with
  | none =>
    constructor
    · rintro ⟨-, hexec⟩
      cases hexec
    · rintro ⟨⟨-, -, tier, htier', -⟩, -⟩
      rw [htier] at htier'
      cases htier'
  | some tier =>
    simp only [exec_get_bind, exec_throwIf_bind, hj, exec_pure, Bool.not_eq_false, ne_eq, not_or,
      not_not, Except.ok.injEq, Prod.mk.injEq]
    constructor
    · rintro ⟨⟨hkey, hsystem⟩, hscoped, htenant, ⟨hdigest, huser⟩, rfl, rfl⟩
      exact ⟨⟨hkey, hsystem, tier, htier, hscoped⟩, ⟨htenant, hdigest, huser⟩, rfl, rfl⟩
    · rintro ⟨⟨hkey, hsystem, tier', htier', hscoped⟩, hanswers, rfl, rfl⟩
      obtain rfl : tier = tier' := Option.some.inj (htier.symm.trans htier')
      exact ⟨⟨hkey, hsystem⟩, hscoped, hanswers.tenant, ⟨hanswers.digest, hanswers.requester⟩, rfl,
        rfl⟩

variable {id : String}

theorem createSelected_existing {data : SelectionData}
    (hj : db.jobs.get? data.idempotencyKey = some j) :
    (createSelected c now tenant user config data sha256 id).exec db = .ok (key, m) ↔
      (∃ s, db.selection c now tenant user config data = .ok s) ∧
        Answers j tenant.id user.id sha256 ∧ key = j.id ∧ m = db := by
  unfold createSelected
  simp only [exec_get_bind, exec_ofExcept_bind, retry_existing hj]
  constructor
  · rintro ⟨s, hs, row, ⟨hanswers, rfl⟩, hexec⟩
    cases hexec
    exact ⟨⟨s, hs⟩, hanswers, rfl, rfl⟩
  · rintro ⟨⟨s, hs⟩, hanswers, rfl, rfl⟩
    exact ⟨s, hs, some j, ⟨hanswers, rfl⟩, rfl⟩

theorem createDeletion_existing {data : DeletionData}
    (hj : db.jobs.get? data.idempotencyKey = some j) :
    (createDeletion c now tenant user config data sha256).exec db = .ok (key, m) ↔
      uuidText data.idempotencyKey = true ∧ Answers j tenant.id user.id sha256 ∧ key = j.id ∧
        m = db := by
  unfold createDeletion
  by_cases hkey : uuidText data.idempotencyKey = true
  · simp only [if_pos hkey, exec_get_bind, exec_ofExcept_bind, retry_existing hj]
    constructor
    · rintro ⟨row, ⟨hanswers, rfl⟩, hexec⟩
      cases hexec
      exact ⟨hkey, hanswers, rfl, rfl⟩
    · rintro ⟨-, hanswers, rfl, rfl⟩
      exact ⟨some j, ⟨hanswers, rfl⟩, rfl⟩
  · have hrefused : ∀ s, db.deleteSelection c now tenant user config data ≠ .ok s := by
      intro s hs
      obtain ⟨⟨⟩, hidentity, -⟩ := bind_eq_ok.mp hs
      rw [throwIf_eq_ok] at hidentity
      exact hidentity (.inr (.inl (by simpa using hkey)))
    constructor
    · intro h
      simp only [if_neg hkey, pure_bind, exec_get_bind, exec_ofExcept_bind] at h
      obtain ⟨s, hs, -⟩ := h
      exact absurd hs (hrefused s)
    · rintro ⟨hkey', -⟩
      exact absurd hkey' hkey

theorem createChange_existing (hj : db.jobs.get? data.idempotencyKey = some j) :
    (createChange c now tenant user config data).exec db = .ok (key, m) ↔
      Admitted c now tenant user config db (.change data) ∧
        Answers j tenant.id user.id (data.digest config.id) ∧ key = j.id ∧ m = db := by
  unfold createChange Admitted
  rw [exec_throwIf_bind, not_or, Bool.not_eq_false, Bool.not_eq_false, exec_get_bind]
  have hfilter : ∀ k, (db.jobs.get? data.preflightId).filter
      (fun j => j.tenant == tenant.id && j.domain == config.id) = some k ↔
        db.jobs.get? data.preflightId = some k ∧ k.tenant = tenant.id ∧ k.domain = config.id := by
    intro k
    rw [Option.filter_eq_some_iff, Bool.and_eq_true, beq_iff_eq, beq_iff_eq]
  cases hinspected : (db.jobs.get? data.preflightId).filter
      fun j => j.tenant == tenant.id && j.domain == config.id with
  | none =>
    constructor
    · rintro ⟨-, hexec⟩
      cases hexec
    · rintro ⟨⟨-, -, k, hk, htenant, hdomain, -⟩, -⟩
      rw [(hfilter k).mpr ⟨hk, htenant, hdomain⟩] at hinspected
      cases hinspected
  | some inspected =>
    obtain ⟨hget, htenant, hdomain⟩ := (hfilter inspected).mp hinspected
    simp only [exec_throwIf_bind, exec_ofExcept_bind, retry_existing hj, Bool.not_eq_false]
    constructor
    · rintro ⟨⟨hpreflight, hkey⟩, hscoped, row, ⟨hanswers, rfl⟩, hexec⟩
      cases hexec
      exact ⟨⟨hpreflight, hkey, inspected, hget, htenant, hdomain, hscoped⟩, hanswers, rfl, rfl⟩
    · rintro ⟨⟨hpreflight, hkey, k, hk, -, -, hscoped⟩, hanswers, rfl, rfl⟩
      obtain rfl : inspected = k := Option.some.inj (hget.symm.trans hk)
      exact ⟨⟨hpreflight, hkey⟩, hscoped, some j, ⟨hanswers, rfl⟩, rfl⟩

/-- A request with the key of a job is answered with the job exactly when it is admitted and the job
is one of its own, and then it changes nothing. -/
theorem create_existing (hj : db.jobs.get? r.key = some j) :
    (create c now tenant user config id r).exec db = .ok (key, m) ↔
      Admitted c now tenant user config db r ∧ Answers j tenant.id user.id (r.digest config.id) ∧
        key = r.key ∧ m = db := by
  rw [← Table.get?_key hj]
  match r with
  | .pilotImport data => exact queueJob_existing hj
  | .preflight (.selection data) => exact createSelected_existing hj
  | .preflight (.deletion data) => exact createDeletion_existing hj
  | .change data => exact createChange_existing hj

/-! ## The row an accepted request leaves -/

theorem yields_last {β : Type} {t : Request α} {f : α → Request β} {Q : β → Db → Prop}
    (hf : ∀ a u, Yields (f a) Q u) : Yields (t >>= f) Q db :=
  (yields_bind t f).mpr fun a u _ => hf a u

theorem yields_inserted (j : GpoImportJob) :
    Yields (createJob j) (fun _ m => m.jobs.get? j.id = some j) db := by
  unfold createJob
  rw [yields_bind, yields_get]
  split
  · rw [yields_throw]
    trivial
  · split
    · rw [yields_throw]
      trivial
    · next jobs hinsert =>
        rw [yields_set]
        show jobs.get? j.id = some j
        rw [Table.get?_insert hinsert, if_pos rfl]

/-- The row of a job that such a request made, whose requester may be forgotten. -/
structure Own (tenant : String) (user : Nat) (sha256 : String) (j : GpoImportJob) : Prop where
  tenant : j.tenant = tenant
  digest : j.requestSha256 = sha256
  requester : ∀ user', j.requestedBy = some user' → user' = user

theorem RowMove.own {content : Content} {b : Bool} {k : GpoImportJob} {requester : Nat}
    (h : RowMove content now b db j k) (hj : Own id requester sha256 j) :
    Own id requester sha256 k := by
  cases h with
  | step h => cases h <;> exact ⟨hj.tenant, hj.digest, hj.requester⟩
  | ended h =>
    cases h with
    | ended =>
      unfold GpoImportJob.endUnlessClaimed
      split <;> exact ⟨hj.tenant, hj.digest, hj.requester⟩
    | settled => exact ⟨hj.tenant, hj.digest, hj.requester⟩
  | forgotten user =>
    refine ⟨hj.tenant, hj.digest, fun user' huser' => hj.requester user' ?_⟩
    unfold GpoImportJob.forget forgetReference at huser'
    dsimp only at huser'
    split at huser'
    · cases huser'
    · exact huser'
  | _ => exact ⟨hj.tenant, hj.digest, hj.requester⟩

/-- A request is answered with its key, under which a row of its own stands. -/
def Leaves (key tenant : String) (user : Nat) (sha256 answer : String) (m : Db) : Prop :=
  answer = key ∧ ∃ j, m.jobs.get? key = some j ∧ Own tenant user sha256 j

theorem yields_newJob (j : GpoImportJob) (hid : j.id = key) (htenant : j.tenant = tenant.id)
    (hrequester : j.requestedBy = some user.id) (hdigest : j.requestSha256 = sha256) :
    Yields (createJob j >>= fun _ => pure j.id) (Leaves key tenant.id user.id sha256) db := by
  rw [yields_bind]
  refine (yields_inserted j).mono fun _ m hm => ?_
  rw [yields_pure]
  refine ⟨hid, j, hid ▸ hm, htenant, hdigest, ?_⟩
  intro user' huser'
  rw [hrequester] at huser'
  exact (Option.some.inj huser').symm

theorem queueJob_leaves {data : ImportData} (hnone : db.jobs.get? data.idempotencyKey = none) :
    Yields (queueJob c now tenant user config data)
      (Leaves data.idempotencyKey tenant.id user.id (data.digest config.id)) db := by
  unfold queueJob
  rw [yields_bind, yields_throwIf]
  intro _
  split
  · rw [yields_throw]
    trivial
  · rw [yields_bind, yields_get, yields_bind, yields_throwIf]
    intro _
    rw [hnone]
    refine yields_last fun s u => yields_last fun _ v => yields_last fun w v => ?_
    refine yields_last fun _ v => yields_last fun _ v => yields_last fun _ v => ?_
    exact yields_newJob _ rfl rfl rfl rfl

theorem createInspection_leaves {intent : Intent} {s : Selection} {policy : ManagedGpoPolicy} :
    Yields (createInspection c now tenant user config intent s policy sha256)
      (Leaves intent.key tenant.id user.id sha256) db := by
  unfold createInspection
  rw [yields_bind, yields_get, yields_bind, yields_ofExcept]
  intro a ha
  unfold Db.inspectionAssignment at ha
  obtain ⟨⟨⟩, -, ha⟩ := bind_eq_ok.mp ha
  obtain ⟨override, hoverride, ha⟩ := bind_eq_ok.mp ha
  obtain ⟨⟨⟩, -, ha⟩ := bind_eq_ok.mp ha
  cases ha
  rw [yields_bind, yields_get]
  exact yields_newJob _ rfl rfl rfl rfl

theorem createSelected_leaves {data : SelectionData}
    (hnone : db.jobs.get? data.idempotencyKey = none) :
    Yields (createSelected c now tenant user config data sha256 id)
      (Leaves data.idempotencyKey tenant.id user.id sha256) db := by
  have hretry : db.retry tenant user.id data.idempotencyKey sha256 = .ok none := by
    unfold Db.retry
    rw [hnone]
    rfl
  unfold createSelected
  rw [yields_bind, yields_get, yields_bind, yields_ofExcept]
  intro s _
  rw [yields_bind, yields_get, yields_bind, yields_ofExcept]
  intro row hrow
  rw [hretry] at hrow
  cases hrow
  refine yields_last fun _ u => yields_last fun logical u => yields_last fun policy u => ?_
  exact createInspection_leaves

theorem deletionInspection_leaves {data : DeletionData} (u : Db) : Yields (do
      let (s, policy) ← Txn.ofExcept ((← get).deleteSelection c now tenant user config data)
      idle tenant s.executor.report.domainGuid now
      let _ ← Txn.ofExcept (logicalKey c policy.baselineId s)
      createInspection c now tenant user config
        { key := data.idempotencyKey, operation := .deleteManagedGpo
          baselineId := policy.baselineId, backupId := policy.backupId, version := policy.version }
        s policy sha256) (Leaves data.idempotencyKey tenant.id user.id sha256) u := by
  refine yields_last fun v u => yields_last fun s u => yields_last fun _ u => ?_
  refine yields_last fun _ u => ?_
  exact createInspection_leaves

theorem createDeletion_leaves {data : DeletionData}
    (hnone : db.jobs.get? data.idempotencyKey = none) :
    Yields (createDeletion c now tenant user config data sha256)
      (Leaves data.idempotencyKey tenant.id user.id sha256) db := by
  have hretry : db.retry tenant user.id data.idempotencyKey sha256 = .ok none := by
    unfold Db.retry
    rw [hnone]
    rfl
  unfold createDeletion
  by_cases hkey : uuidText data.idempotencyKey = true
  · rw [if_pos hkey, yields_bind, yields_get, yields_bind, yields_ofExcept]
    intro row hrow
    rw [hretry] at hrow
    cases hrow
    exact deletionInspection_leaves db
  · rw [if_neg hkey, pure_bind]
    exact deletionInspection_leaves db

theorem createChange_leaves (hnone : db.jobs.get? data.idempotencyKey = none) :
    Yields (createChange c now tenant user config data)
      (Leaves data.idempotencyKey tenant.id user.id (data.digest config.id)) db := by
  have hretry : db.retry tenant user.id data.idempotencyKey (data.digest config.id) = .ok none := by
    unfold Db.retry
    rw [hnone]
    rfl
  unfold createChange
  rw [yields_bind, yields_throwIf]
  intro _
  rw [yields_bind, yields_get]
  split
  · rw [yields_throw]
    trivial
  · next preflight hpreflight =>
      have htenant : preflight.tenant = tenant.id := by
        obtain ⟨-, hfilter⟩ := Option.filter_eq_some_iff.mp hpreflight
        exact eq_of_beq (Bool.and_eq_true_iff.mp hfilter).1
      rw [yields_bind, yields_throwIf]
      intro _
      rw [yields_bind, yields_ofExcept]
      intro row hrow
      rw [hretry] at hrow
      cases hrow
      dsimp only
      split
      · rw [yields_throw]
        trivial
      · next inspected =>
          unfold changeInspected
          rw [yields_bind, yields_get, yields_bind, yields_throwIf]
          intro _
          rw [yields_bind, yields_throwIf]
          intro _
          split
          · refine yields_last fun _ u => ?_
            rw [yields_bind, yields_get, yields_bind, yields_ofExcept]
            intro a ha
            have hid : a.jobId = data.idempotencyKey := by
              obtain ⟨⟨⟩, -, ha⟩ := bind_eq_ok.mp ha
              obtain ⟨orders, -, ha⟩ := bind_eq_ok.mp ha
              obtain ⟨⟨⟩, -, ha⟩ := bind_eq_ok.mp ha
              cases ha
              rfl
            dsimp only
            rw [yields_bind]
            refine (yields_inserted _).mono fun _ v hv => ?_
            -- The approval on creation moves the row that was inserted.
            rw [yields_bind]
            refine (chains_approveOnCreation (b := false) hv user.id).mono fun _ m hm => ?_
            rw [yields_pure]
            refine ⟨hid, ?_⟩
            rw [← hid]
            refine Moved.row (fun _ _ _ hown hrow => hrow.own hown) hm hv ⟨htenant, rfl, ?_⟩
            intro user' huser'
            exact (Option.some.inj huser').symm
          · rw [yields_throw]
            trivial

theorem create_leaves (h : (create c now tenant user config id r).exec db = .ok (key, m)) :
    Leaves r.key tenant.id user.id (r.digest config.id) key m := by
  cases hj : db.jobs.get? r.key with
  | some j =>
    obtain ⟨-, hanswers, rfl, rfl⟩ := (create_existing hj).mp h
    refine ⟨rfl, j, hj, hanswers.tenant, hanswers.digest, ?_⟩
    intro user' huser'
    rw [hanswers.requester] at huser'
    exact (Option.some.inj huser').symm
  | none =>
    match r with
    | .pilotImport data => exact queueJob_leaves hj key m h
    | .preflight (.selection data) => exact createSelected_leaves hj key m h
    | .preflight (.deletion data) => exact createDeletion_leaves hj key m h
    | .change data => exact createChange_leaves hj key m h

end

section
variable {c : Catalogue} {now now' : Time} {db db' : Db} {tenant tenant' : Tenant} {user user' : User}
variable {config config' : DomainSecuritySettings} {r : Creation} {id id' key : String}
variable {s : State} {ls : List Label}

/-- The account that made the job of a key is not deleted. -/
def Db.RequesterKnown (db : Db) (key : String) : Prop :=
  ∃ j, db.jobs.get? key = some j ∧ j.requestedBy ≠ none

theorem own_of_run (h : (create c now tenant user config id r).exec db = .ok (key, db'))
    (hrun : Run (Step c) ⟨db', now⟩ ls s) :
    ∃ j, s.db.jobs.get? r.key = some j ∧ Own tenant.id user.id (r.digest config.id) j := by
  obtain ⟨-, j, hj, hown⟩ := create_leaves h
  exact Run.row (fun _ _ _ _ _ hown hrow => hrow.own hown) hrun hj hown

/-- A request that was accepted, made again after any run, returns its job and changes nothing exactly
when it passes what is checked before its key is looked up and its account is still known. -/
theorem create_again (h : (create c now tenant user config id r).exec db = .ok (key, db'))
    (hrun : Run (Step c) ⟨db', now⟩ ls s) (htenant : tenant'.id = tenant.id)
    (huser : user'.id = user.id) (hconfig : config'.id = config.id) :
    (create c now' tenant' user' config' id' r).exec s.db = .ok (key, s.db) ↔
      Admitted c now' tenant' user' config' s.db r ∧ s.db.RequesterKnown r.key := by
  obtain ⟨rfl, -⟩ := create_leaves h
  obtain ⟨j, hj, hown⟩ := own_of_run h hrun
  rw [create_existing hj]
  refine and_congr_right' ⟨?_, ?_⟩
  · rintro ⟨hanswers, -⟩
    refine ⟨j, hj, ?_⟩
    rw [hanswers.requester]
    exact Option.some_ne_none _
  · rintro ⟨k, hk, hknown⟩
    obtain rfl : j = k := Option.some.inj (hj.symm.trans hk)
    obtain ⟨requester, hrequester⟩ := Option.ne_none_iff_exists'.mp hknown
    refine ⟨⟨hown.tenant.trans htenant.symm, ?_, ?_⟩, rfl, rfl⟩
    · rw [hown.digest, hconfig]
    · rw [hrequester, hown.requester requester hrequester, huser]

theorem create_other (h : (create c now tenant user config id r).exec db = .ok (key, db'))
    (hrun : Run (Step c) ⟨db', now⟩ ls s) {r' : Creation} (hkey : r'.key = r.key)
    (hother : (tenant'.id, user'.id, config'.id, r') ≠ (tenant.id, user.id, config.id, r)) :
    (∃ e, (create c now' tenant' user' config' id' r').exec s.db = .error e) ∨
      Collide (r'.document config'.id) (r.document config.id) := by
  obtain ⟨j, hj, hown⟩ := own_of_run h hrun
  cases hresult : (create c now' tenant' user' config' id' r').exec s.db with
  | error e => exact .inl ⟨e, rfl⟩
  | ok answer =>
    rw [← hkey] at hj
    obtain ⟨-, hanswers, -, -⟩ := (create_existing hj).mp hresult
    refine .inr ((digest_eq (hanswers.digest.symm.trans hown.digest)).resolve_left ?_)
    intro hsame
    obtain ⟨hdomain, rfl⟩ := document_injective hsame
    have huser := hown.requester _ hanswers.requester
    have htenant := hanswers.tenant.symm.trans hown.tenant
    exact hother (by rw [htenant, huser, hdomain])

end

end Ipms.Server.Gpo
