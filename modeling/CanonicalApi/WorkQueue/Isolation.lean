import CanonicalApi.WorkQueue

/-!
# `CanonicalApi.WorkQueue.Isolation`: one tenant among many

Every part of the statement of `list_work_items` sees only rows of the tenant, also in its joins
and in its subquery: each `WHERE` asks for the tenant of a row, and each join and the subquery for
the tenant of the row they start from (`workParts_perm`). This does not rely on the row level
security of the tables.

A table has no order, and neither has `UNION ALL`. When the rows of the tenant have distinct ids,
no two items have the same kind and id (`workItems_nodup`), and `ORDER BY` determines the answer.
-/

set_option autoImplicit false

namespace CanonicalApi

open Sql (Truth selectFrom selectJoin existsIn orderBy nullsLast)

/-- The two databases have the same rows of the tenant, each table in any order. -/
structure GrcTables.Agree (tenantId : Uuid) (tables tables' : GrcTables) : Prop where
  vendorAssessments : (tables.vendorAssessments.filter (·.belongs tenantId)).Perm
    (tables'.vendorAssessments.filter (·.belongs tenantId))
  vendors : (tables.vendors.filter (·.belongs tenantId)).Perm
    (tables'.vendors.filter (·.belongs tenantId))
  accessReviewItems : (tables.accessReviewItems.filter (·.belongs tenantId)).Perm
    (tables'.accessReviewItems.filter (·.belongs tenantId))
  accessReviewCampaigns : (tables.accessReviewCampaigns.filter (·.belongs tenantId)).Perm
    (tables'.accessReviewCampaigns.filter (·.belongs tenantId))
  securityQuestionnaires : (tables.securityQuestionnaires.filter (·.belongs tenantId)).Perm
    (tables'.securityQuestionnaires.filter (·.belongs tenantId))
  risks : (tables.risks.filter (·.belongs tenantId)).Perm
    (tables'.risks.filter (·.belongs tenantId))
  riskTreatments : (tables.riskTreatments.filter (·.belongs tenantId)).Perm
    (tables'.riskTreatments.filter (·.belongs tenantId))
  trustCenterAccessRequests : (tables.trustCenterAccessRequests.filter (·.belongs tenantId)).Perm
    (tables'.trustCenterAccessRequests.filter (·.belongs tenantId))
  auditEvidenceRequests : (tables.auditEvidenceRequests.filter (·.belongs tenantId)).Perm
    (tables'.auditEvidenceRequests.filter (·.belongs tenantId))
  policies : (tables.policies.filter (·.belongs tenantId)).Perm
    (tables'.policies.filter (·.belongs tenantId))
  trainingAssignments : (tables.trainingAssignments.filter (·.belongs tenantId)).Perm
    (tables'.trainingAssignments.filter (·.belongs tenantId))
  trainingCourses : (tables.trainingCourses.filter (·.belongs tenantId)).Perm
    (tables'.trainingCourses.filter (·.belongs tenantId))
  automationRuns : (tables.automationRuns.filter (·.belongs tenantId)).Perm
    (tables'.automationRuns.filter (·.belongs tenantId))
  automationJobs : (tables.automationJobs.filter (·.belongs tenantId)).Perm
    (tables'.automationJobs.filter (·.belongs tenantId))
  aiSystems : (tables.aiSystems.filter (·.belongs tenantId)).Perm
    (tables'.aiSystems.filter (·.belongs tenantId))

/-- No two of these rows of the tenant have the same id. -/
def DistinctIds {α : Type} (tenantId : Uuid) (row : α → GrcRow) (rows : List α) : Prop :=
  ((rows.filter fun a => (row a).belongs tenantId).map fun a => (row a).id).Nodup

/-- The rows of the tenant have distinct ids in each table that an item or a join takes its id
from. -/
structure GrcTables.Keyed (tenantId : Uuid) (tables : GrcTables) : Prop where
  vendorAssessments : DistinctIds tenantId VendorAssessment.toGrcRow tables.vendorAssessments
  vendors : DistinctIds tenantId Vendor.toGrcRow tables.vendors
  accessReviewItems : DistinctIds tenantId AccessReviewItem.toGrcRow tables.accessReviewItems
  accessReviewCampaigns :
    DistinctIds tenantId AccessReviewCampaign.toGrcRow tables.accessReviewCampaigns
  securityQuestionnaires :
    DistinctIds tenantId SecurityQuestionnaire.toGrcRow tables.securityQuestionnaires
  risks : DistinctIds tenantId Risk.toGrcRow tables.risks
  trustCenterAccessRequests :
    DistinctIds tenantId TrustCenterAccessRequest.toGrcRow tables.trustCenterAccessRequests
  auditEvidenceRequests :
    DistinctIds tenantId AuditEvidenceRequest.toGrcRow tables.auditEvidenceRequests
  policies : DistinctIds tenantId Policy.toGrcRow tables.policies
  trainingAssignments : DistinctIds tenantId TrainingAssignment.toGrcRow tables.trainingAssignments
  trainingCourses : DistinctIds tenantId TrainingCourse.toGrcRow tables.trainingCourses
  automationRuns : DistinctIds tenantId AutomationRun.toGrcRow tables.automationRuns
  automationJobs : DistinctIds tenantId AutomationJob.toGrcRow tables.automationJobs
  aiSystems : DistinctIds tenantId AiSystem.toGrcRow tables.aiSystems

section

variable {tenantId : Uuid}

/-- A condition that asks for the tenant. -/
theorem belongs_of_and {row : GrcRow} {t : Truth}
    (h : ((Sql.eq row.tenantId (some tenantId)).and t).holds = true) :
    row.belongs tenantId = true := by
  rw [Sql.Truth.holds_and, Bool.and_eq_true, Sql.holds_eq_some] at h
  exact decide_eq_true h.1

/-- A row that a statement selects belongs to the tenant, since each `WHERE` starts with this
condition. -/
theorem belongs_of_and_and {row : GrcRow} {t u : Truth}
    (h : (((Sql.eq row.tenantId (some tenantId)).and t).and u).holds = true) :
    row.belongs tenantId = true := by
  rw [Sql.Truth.holds_and, Bool.and_eq_true] at h
  exact belongs_of_and h.1

/-- A row that is joined belongs to the same tenant, and its id is the key. -/
theorem belongs_of_joinsOn {row other : GrcRow} {key : Option Uuid}
    (h : (joinsOn row other key).holds = true) (hrow : row.belongs tenantId = true) :
    other.belongs tenantId = true ∧ other.id = key := by
  have htenant : row.tenantId = some tenantId := of_decide_eq_true hrow
  rw [joinsOn, Sql.Truth.holds_and, Bool.and_eq_true, htenant, Sql.holds_eq_some] at h
  refine ⟨decide_eq_true h.1, ?_⟩
  cases key with
  | none =>
    exfalso
    cases hid : other.id <;> simp [Sql.eq, Sql.compare, Truth.holds, hid] at h
  | some id => exact (Sql.holds_eq_some other.id id).mp h.2

/-- A join on the id of a row of the tenant finds at most one row. -/
theorem length_partners_le {α β : Type} {row : α → GrcRow} {other : β → GrcRow}
    {others : List β} {key : α → Option Uuid} {cond : α → β → Truth}
    (hids : DistinctIds tenantId other others)
    (hcond : ∀ a b, (cond a b).holds = true → (row a).belongs tenantId = true) (a : α) :
    (others.filter fun b => ((joinsOn (row a) (other b) (key a)).and (cond a b)).holds).length
      ≤ 1 := by
  have hpartner : ∀ b, ((joinsOn (row a) (other b) (key a)).and (cond a b)).holds = true →
      (other b).belongs tenantId = true ∧ (other b).id = key a := by
    intro b h
    rw [Sql.Truth.holds_and, Bool.and_eq_true] at h
    exact belongs_of_joinsOn h.1 (hcond a b h.2)
  rw [Sql.filter_seen (p := fun b => (other b).belongs tenantId) fun b h => (hpartner b h).1]
  -- All of them have the id `key a`.
  have hsub := (List.filter_sublist (l := others.filter fun b => (other b).belongs tenantId)
    (p := fun b => ((joinsOn (row a) (other b) (key a)).and (cond a b)).holds)).map
      fun b => (other b).id
  have hnodup := hids.sublist hsub
  rw [List.map_congr_left (g := fun _ => key a)
    fun b hb => (hpartner b (List.mem_filter.mp hb).2).2, List.map_const'] at hnodup
  exact List.nodup_replicate.mp hnodup

end

/-! ### The parts -/

section

variable {tenantId : Uuid} {tables tables' : GrcTables}

/-- The subquery sees the treatments of the tenant. -/
theorem treated_congr (h : tables.Agree tenantId tables') {risk : Risk}
    (hrisk : risk.belongs tenantId = true) : risk.treated tables = risk.treated tables' := by
  refine Sql.existsIn_perm h.riskTreatments ?_
  intro treatment htreatment
  have htenant : risk.tenantId = some tenantId := of_decide_eq_true hrisk
  simp only [htenant] at htreatment
  rw [Sql.Truth.holds_and, Bool.and_eq_true] at htreatment
  exact belongs_of_and htreatment.1

/-- The statement computes the same products, in any order. -/
theorem riskScores_perm (h : tables.Agree tenantId tables') (clock : WorkClock) :
    (riskScores tables clock tenantId).Perm (riskScores tables' clock tenantId) := by
  refine Sql.selectFrom_perm h.risks (fun _ => belongs_of_and_and) (fun _ => belongs_of_and_and) ?_
    fun _ _ => rfl
  intro risk hrisk
  simp only [Risk.isWork, treated_congr h hrisk]

/-- Each part has the same rows, in any order. -/
theorem workParts_perm (h : tables.Agree tenantId tables') (clock : WorkClock) :
    List.Forall₂ (fun part part' => part.1 = part'.1 ∧ part.2.Perm part'.2)
      (workParts tables clock tenantId) (workParts tables' clock tenantId) := by
  -- The condition of a join asks for the tenant of the first row.
  have hjoin : ∀ {row other : GrcRow} {key : Option Uuid}, (joinsOn row other key).holds = true →
      row.belongs tenantId = true → row.belongs tenantId = true ∧ other.belongs tenantId = true :=
    fun hon hrow => ⟨hrow, (belongs_of_joinsOn hon hrow).1⟩
  refine .cons ⟨rfl, ?_⟩ (.cons ⟨rfl, ?_⟩ (.cons ⟨rfl, ?_⟩ (.cons ⟨rfl, ?_⟩ (.cons ⟨rfl, ?_⟩
    (.cons ⟨rfl, ?_⟩ (.cons ⟨rfl, ?_⟩ (.cons ⟨rfl, ?_⟩ (.cons ⟨rfl, ?_⟩ (.cons ⟨rfl, ?_⟩
      .nil)))))))))
  · exact Sql.selectJoin_perm h.vendorAssessments h.vendors
      fun _ _ hon hcond => hjoin hon (belongs_of_and hcond)
  · exact Sql.selectJoin_perm h.accessReviewItems h.accessReviewCampaigns
      fun _ _ hon hcond => hjoin hon (belongs_of_and hcond)
  · exact Sql.selectFrom_perm h.securityQuestionnaires (fun _ => belongs_of_and)
      (fun _ => belongs_of_and) (fun _ _ => rfl) fun _ _ => rfl
  · refine Sql.selectFrom_perm h.risks (fun _ => belongs_of_and_and)
      (fun _ => belongs_of_and_and) ?_ ?_
    · intro risk hrisk
      simp only [Risk.isWork, treated_congr h hrisk]
    · intro risk hrisk
      simp only [treated_congr h hrisk]
  · exact Sql.selectFrom_perm h.trustCenterAccessRequests (fun _ => belongs_of_and)
      (fun _ => belongs_of_and) (fun _ _ => rfl) fun _ _ => rfl
  · exact Sql.selectFrom_perm h.auditEvidenceRequests (fun _ => belongs_of_and)
      (fun _ => belongs_of_and) (fun _ _ => rfl) fun _ _ => rfl
  · exact Sql.selectFrom_perm h.policies (fun _ => belongs_of_and)
      (fun _ => belongs_of_and) (fun _ _ => rfl) fun _ _ => rfl
  · exact Sql.selectJoin_perm h.trainingAssignments h.trainingCourses
      fun _ _ hon hcond => hjoin hon (belongs_of_and_and hcond)
  · exact Sql.selectJoin_perm h.automationRuns h.automationJobs
      fun _ _ hon hcond => hjoin hon (belongs_of_and_and hcond)
  · exact Sql.selectFrom_perm h.aiSystems (fun _ => belongs_of_and_and)
      (fun _ => belongs_of_and_and) (fun _ _ => rfl) fun _ _ => rfl

/-- Statements that give the same rows part by part give the same rows together. -/
theorem flatMap_perm_of_parts {parts parts' : List (String × List WorkRow)}
    (h : List.Forall₂ (fun part part' => part.1 = part'.1 ∧ part.2.Perm part'.2) parts parts') :
    (parts.flatMap Prod.snd).Perm (parts'.flatMap Prod.snd) := by
  induction h with
  | nil => exact .nil
  | cons hpart _ ih =>
    rw [List.flatMap_cons, List.flatMap_cons]
    exact hpart.2.append ih

/-- Tables that agree on the rows of a tenant give the same work for it, up to the order. -/
theorem workItems_perm (h : tables.Agree tenantId tables') (clock : WorkClock) :
    (workItems tables clock tenantId).Perm (workItems tables' clock tenantId) :=
  flatMap_perm_of_parts (workParts_perm h clock)

/-- The kind and the id of a row. -/
def WorkRow.key (row : WorkRow) : String × Option Uuid := (row.kind, row.id)

/-- A part has rows of its own kind, and no two of them for the same id. -/
theorem workParts_nodup (hkeyed : tables.Keyed tenantId) (clock : WorkClock) :
    ∀ part ∈ workParts tables clock tenantId,
      (∀ row ∈ part.2, row.kind = part.1) ∧ (part.2.map WorkRow.key).Nodup := by
  have hkinds : ∀ {α : Type} {rows : List α} {cond : α → Truth} {row : α → WorkRow} {kind : String},
      (∀ a, (row a).kind = kind) → ∀ found ∈ selectFrom rows cond row, found.kind = kind := by
    intro α rows cond row kind hkind found hfound
    obtain ⟨a, -, rfl⟩ := List.mem_map.mp hfound
    exact hkind a
  have hjoined : ∀ {α β : Type} {rows : List α} {others : List β} {on cond : α → β → Truth}
      {row : α → β → WorkRow} {kind : String}, (∀ a b, (row a b).kind = kind) →
      ∀ found ∈ selectJoin rows others on cond row, found.kind = kind := by
    intro α β rows others on cond row kind hkind found hfound
    obtain ⟨a, -, hfound⟩ := List.mem_flatMap.mp hfound
    exact hkinds (hkind a) found hfound
  -- Distinct ids are distinct keys, whatever the kind is.
  have hids : ∀ {α : Type} {row : α → GrcRow} {rows : List α} (kind : String),
      DistinctIds tenantId row rows →
      ((rows.filter fun a => (row a).belongs tenantId).map fun a => (kind, (row a).id)).Nodup := by
    intro α row rows kind h
    have hmap := h.map (f := fun id => (kind, id)) fun id id' heq => (Prod.mk.inj heq).2
    rw [List.map_map] at hmap
    exact hmap
  intro part hpart
  simp only [workParts, List.mem_cons, List.not_mem_nil, or_false] at hpart
  rcases hpart with rfl | rfl | rfl | rfl | rfl | rfl | rfl | rfl | rfl | rfl
  · exact ⟨hjoined fun _ _ => rfl, Sql.selectJoin_nodup (fun _ _ => rfl)
      (hids "vendor_assessment" hkeyed.vendorAssessments) (fun _ _ _ => belongs_of_and)
      (length_partners_le hkeyed.vendors fun _ _ => belongs_of_and)⟩
  · exact ⟨hjoined fun _ _ => rfl, Sql.selectJoin_nodup (fun _ _ => rfl)
      (hids "access_review_item" hkeyed.accessReviewItems) (fun _ _ _ => belongs_of_and)
      (length_partners_le hkeyed.accessReviewCampaigns fun _ _ => belongs_of_and)⟩
  · exact ⟨hkinds fun _ => rfl, Sql.selectFrom_nodup
      (hids "security_questionnaire" hkeyed.securityQuestionnaires) fun _ => belongs_of_and⟩
  · exact ⟨hkinds fun _ => rfl, Sql.selectFrom_nodup
      (hids "risk" hkeyed.risks) fun _ => belongs_of_and_and⟩
  · exact ⟨hkinds fun _ => rfl, Sql.selectFrom_nodup
      (hids "trust_center_access" hkeyed.trustCenterAccessRequests) fun _ => belongs_of_and⟩
  · exact ⟨hkinds fun _ => rfl, Sql.selectFrom_nodup
      (hids "audit_evidence_request" hkeyed.auditEvidenceRequests) fun _ => belongs_of_and⟩
  · exact ⟨hkinds fun _ => rfl, Sql.selectFrom_nodup
      (hids "policy_review" hkeyed.policies) fun _ => belongs_of_and⟩
  · exact ⟨hjoined fun _ _ => rfl, Sql.selectJoin_nodup (fun _ _ => rfl)
      (hids "training_assignment" hkeyed.trainingAssignments) (fun _ _ _ => belongs_of_and_and)
      (length_partners_le hkeyed.trainingCourses fun _ _ => belongs_of_and_and)⟩
  · exact ⟨hjoined fun _ _ => rfl, Sql.selectJoin_nodup (fun _ _ => rfl)
      (hids "automation_run" hkeyed.automationRuns) (fun _ _ _ => belongs_of_and_and)
      (length_partners_le hkeyed.automationJobs fun _ _ => belongs_of_and_and)⟩
  · exact ⟨hkinds fun _ => rfl, Sql.selectFrom_nodup
      (hids "ai_system_review" hkeyed.aiSystems) fun _ => belongs_of_and_and⟩

/-- Parts of different kinds without repetitions have none together. -/
theorem flatMap_key_nodup {parts : List (String × List WorkRow)}
    (hparts : ∀ part ∈ parts, (∀ row ∈ part.2, row.kind = part.1) ∧
      (part.2.map WorkRow.key).Nodup) (hkinds : (parts.map Prod.fst).Nodup) :
    ((parts.flatMap Prod.snd).map WorkRow.key).Nodup := by
  induction parts with
  | nil => exact List.nodup_nil
  | cons part parts ih =>
    obtain ⟨hkind, hnodup⟩ := hparts part List.mem_cons_self
    rw [List.map_cons, List.nodup_cons] at hkinds
    rw [List.flatMap_cons, List.map_append, List.nodup_append']
    refine ⟨hnodup, ih (fun p hp => hparts p (List.mem_cons_of_mem part hp)) hkinds.2, ?_⟩
    -- A common key would give two parts one kind.
    intro key hkey hkey'
    obtain ⟨row, hrow, rfl⟩ := List.mem_map.mp hkey
    obtain ⟨row', hrow', hsame⟩ := List.mem_map.mp hkey'
    obtain ⟨part', hpart', hrow'⟩ := List.mem_flatMap.mp hrow'
    have hkind' := (hparts part' (List.mem_cons_of_mem part hpart')).1 row' hrow'
    have heq : part'.1 = part.1 := by
      rw [← hkind', ← hkind row hrow]
      exact (Prod.mk.inj hsame).1
    exact hkinds.1 (List.mem_map.mpr ⟨part', hpart', heq⟩)

/-- No two items have the same kind and id. -/
theorem workItems_nodup (hkeyed : tables.Keyed tenantId) (clock : WorkClock) :
    ((workItems tables clock tenantId).map WorkRow.key).Nodup :=
  flatMap_key_nodup (workParts_nodup hkeyed clock) (by simp [workParts])

/-- So the order of the statement is strict. -/
theorem workItems_orderKey_nodup (hkeyed : tables.Keyed tenantId) (clock : WorkClock) :
    ((workItems tables clock tenantId).map WorkRow.orderKey).Nodup := by
  have hnodup := workItems_nodup hkeyed clock
  rw [List.nodup_iff_pairwise_ne, List.pairwise_map] at hnodup ⊢
  refine hnodup.imp ?_
  intro row row' hne heq
  apply hne
  have hrest := (Prod.mk.inj (toLex.injective heq)).2
  have hlast := (Prod.mk.inj (toLex.injective hrest)).2
  obtain ⟨hkind, hid⟩ := Prod.mk.inj (toLex.injective hlast)
  rw [WorkRow.key, WorkRow.key, hkind, Sql.nullsLast_inj _ hid]

/-- The answer to a tenant depends only on the rows of the tenant. Databases that have these in
common, in any order and whatever else they have, give the same answer when the same calls fail. -/
theorem work_queue_isolated [Postgres] [GrcSchema] (h : tables.Agree tenantId tables')
    (hkeyed : tables.Keyed tenantId) (clock : WorkClock) (calls : WorkQueueCalls) :
    listWorkItems tenantId calls (some (.postgres tables clock)) =
      listWorkItems tenantId calls (some (.postgres tables' clock)) := by
  have hperm := workItems_perm h clock
  have hrows : workQueueRows tables clock tenantId = workQueueRows tables' clock tenantId := by
    dsimp only [workQueueRows]
    rw [Sql.orderBy_perm (workItems_orderKey_nodup hkeyed clock) hperm, hperm.length_eq]
  have hscores : scoreOverflows tables clock tenantId = scoreOverflows tables' clock tenantId :=
    (riskScores_perm h clock).any_eq
  have hstatement : workQueueStatement tables clock tenantId =
      workQueueStatement tables' clock tenantId := by
    rw [workQueueStatement, hscores, hrows, workQueueStatement]
  simp only [listWorkItems, hstatement]

end

/-! ### Two tenants -/

/-- Databases with these policies and nothing else. Their rows differ in the tenant and the id. -/
def testGrcTables (policies : List Policy) : GrcTables where
  vendorAssessments := []
  vendors := []
  accessReviewItems := []
  accessReviewCampaigns := []
  securityQuestionnaires := []
  risks := []
  riskTreatments := []
  trustCenterAccessRequests := []
  auditEvidenceRequests := []
  policies
  trainingAssignments := []
  trainingCourses := []
  automationRuns := []
  automationJobs := []
  aiSystems := []

/-- The clock at the Unix epoch, in UTC. -/
def testGrcClock : WorkClock where
  now := 0
  plusDays days := days * 86400000000

/-- A draft of the tenant. -/
def testDraft (tenantId id : Uuid) : Policy where
  tenantId := some tenantId
  id := some id
  state := some "draft"
  title := some "Access control"
  nextReviewAt := none

section

attribute [local instance] openServer

/-- Scores of the type `integer`. -/
@[reducible] def testGrcSchema : GrcSchema where
  isScore n := -2147483648 ≤ n && n ≤ 2147483647

attribute [local instance] testGrcSchema

/-- Two databases with the same policies of tenant 1, in another order, and one with a policy of
tenant 2 as well. The answer to tenant 1 is the same. -/
theorem work_queue_isolated_test :
    listWorkItems ⟨1⟩ {} (some (.postgres
      (testGrcTables [testDraft ⟨2⟩ ⟨7⟩, testDraft ⟨1⟩ ⟨8⟩, testDraft ⟨1⟩ ⟨9⟩]) testGrcClock)) =
    listWorkItems ⟨1⟩ {} (some (.postgres
      (testGrcTables [testDraft ⟨1⟩ ⟨9⟩, testDraft ⟨1⟩ ⟨8⟩]) testGrcClock)) := by
  apply work_queue_isolated
  · constructor <;> decide
  · constructor <;> (unfold DistinctIds; decide)

end

end CanonicalApi
