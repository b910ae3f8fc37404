import CanonicalApi.Lib.Outcome
import CanonicalApi.Lib.Sql
import CanonicalApi.External
import CanonicalApi.Listing

/-!
# `CanonicalApi.WorkQueue`: the feed of a tenant

`list_work_items` of `grc_work_queue.rs` selects what a tenant has to do from ten tables, with
one statement. Each `SELECT` of the statement is a definition here, under its `kind`. The tables
are not defined in the repository, so every column may be NULL.

`work_queue_answer` says what the answer is. The handler fails when a call of the database fails,
when a product of scores is out of range, or when one of the first 500 rows lacks a value that an
item needs. Otherwise the answer has the first rows in the order of the statement and the count of
all. `work_queue_isolated` says that the answer depends on the rows of the tenant alone.
-/

set_option autoImplicit false

namespace CanonicalApi

open Sql (Truth selectFrom selectJoin existsIn orderBy nullsLast)

/-! ### The tables -/

/-- The columns that every table has. -/
structure GrcRow where
  tenantId : Option Uuid
  id : Option Uuid
deriving DecidableEq

/-- The row belongs to the tenant. -/
def GrcRow.belongs (tenantId : Uuid) (row : GrcRow) : Bool := row.tenantId = some tenantId

/-- A row of the vendors. -/
structure Vendor extends GrcRow where
  displayName : Option String
deriving DecidableEq

/-- A row of the vendor assessments. -/
structure VendorAssessment extends GrcRow where
  vendorId : Option Uuid
  state : Option String
  assessmentKind : Option String
  nextReviewAt : Option Int
  residualRiskBasisPoints : Option Int
deriving DecidableEq

/-- A row of the access review campaigns. -/
structure AccessReviewCampaign extends GrcRow where
  state : Option String
  dueAt : Option Int
deriving DecidableEq

/-- A row of the access review items. -/
structure AccessReviewItem extends GrcRow where
  campaignId : Option Uuid
  decision : Option String
  remediationState : Option String
  principalKey : Option String
  entitlementKey : Option String
deriving DecidableEq

/-- A row of the security questionnaires. -/
structure SecurityQuestionnaire extends GrcRow where
  vendorId : Option Uuid
  state : Option String
  title : Option String
  dueAt : Option Int
deriving DecidableEq

/-- A row of the risks. The two scores are integers of the database, so their product can be out of
range (`scoreOverflows`). -/
structure Risk extends GrcRow where
  scopeId : Option Uuid
  state : Option String
  title : Option String
  reviewDueAt : Option Int
  inherentLikelihood : Option Int
  inherentImpact : Option Int
deriving DecidableEq

/-- A row of the risk treatments. -/
structure RiskTreatment extends GrcRow where
  riskId : Option Uuid
  state : Option String
deriving DecidableEq

/-- A row of the requests for access to a trust center. As in the other tables, a column may be
NULL. -/
structure TrustCenterAccessRequest extends GrcRow where
  trustCenterId : Option Uuid
  state : Option String
  ndaState : Option String
  requesterName : Option String
  requesterCompany : Option String
  requestedAt : Option Int
  expiresAt : Option Int
deriving DecidableEq

/-- A row of the requests for audit evidence. -/
structure AuditEvidenceRequest extends GrcRow where
  engagementId : Option Uuid
  state : Option String
  title : Option String
  dueAt : Option Int
deriving DecidableEq

/-- A row of the policies. -/
structure Policy extends GrcRow where
  state : Option String
  title : Option String
  nextReviewAt : Option Int
deriving DecidableEq

/-- A row of the training courses. -/
structure TrainingCourse extends GrcRow where
  title : Option String
deriving DecidableEq

/-- A row of the training assignments. -/
structure TrainingAssignment extends GrcRow where
  courseId : Option Uuid
  state : Option String
  dueAt : Option Int
deriving DecidableEq

/-- A row of the automation jobs. -/
structure AutomationJob extends GrcRow where
  name : Option String
deriving DecidableEq

/-- A row of the automation runs. -/
structure AutomationRun extends GrcRow where
  jobId : Option Uuid
  state : Option String
  startedAt : Option Int
deriving DecidableEq

/-- A row of the AI systems. -/
structure AiSystem extends GrcRow where
  assetId : Option Uuid
  name : Option String
  deploymentState : Option String
  riskTier : Option String
  nextReviewAt : Option Int
deriving DecidableEq

/-- The tables, as the transaction sees them. A table is the list of its rows, in an order about
which nothing is known. -/
structure GrcTables where
  vendorAssessments : List VendorAssessment
  vendors : List Vendor
  accessReviewItems : List AccessReviewItem
  accessReviewCampaigns : List AccessReviewCampaign
  securityQuestionnaires : List SecurityQuestionnaire
  risks : List Risk
  riskTreatments : List RiskTreatment
  trustCenterAccessRequests : List TrustCenterAccessRequest
  auditEvidenceRequests : List AuditEvidenceRequest
  policies : List Policy
  trainingAssignments : List TrainingAssignment
  trainingCourses : List TrainingCourse
  automationRuns : List AutomationRun
  automationJobs : List AutomationJob
  aiSystems : List AiSystem

/-- `now()`, and `now() + interval 'n days'` in the time zone of the session. -/
structure WorkClock where
  now : Int
  plusDays : Int → Int

/-! ### `WORK_QUEUE_SQL` -/

/-- A row of `work_items`. The columns that the statement computes are never NULL; those that it
copies may be. -/
structure WorkRow where
  kind : String
  id : Option Uuid
  parentId : Option Uuid
  state : Option String
  title : Option String
  dueAt : Option Int
  priority : String
  action : String
deriving DecidableEq

/-- The row of the other table with this id, of the same tenant. -/
def joinsOn (row other : GrcRow) (key : Option Uuid) : Truth :=
  (Sql.eq other.tenantId row.tenantId).and (Sql.eq other.id key)

/-- The time is not NULL and has passed. -/
def WorkClock.overdue (clock : WorkClock) (due : Option Int) : Truth :=
  (Sql.isNotNull due).and (Sql.lt due (some clock.now))

/-- The time is at most `days` days away. -/
def WorkClock.within (clock : WorkClock) (days : Int) (due : Option Int) : Truth :=
  Sql.le due (some (clock.plusDays days))

section

variable (tables : GrcTables) (clock : WorkClock) (tenantId : Uuid)

/-- The first `SELECT`: vendor assessments that are going on, or whose next review is due within
two weeks. A high residual risk or an overdue review makes them urgent. -/
def vendorAssessmentWork : List WorkRow :=
  selectJoin tables.vendorAssessments tables.vendors
    (fun assessment vendor => joinsOn assessment.toGrcRow vendor.toGrcRow assessment.vendorId)
    (fun assessment _ => (Sql.eq assessment.tenantId (some tenantId)).and
      ((Sql.isIn assessment.state ["planned", "collecting", "in_review"]).or
        (clock.within 14 assessment.nextReviewAt)))
    fun assessment vendor => {
      kind := "vendor_assessment"
      id := assessment.id
      parentId := assessment.vendorId
      state := assessment.state
      title := Sql.left
        (Sql.concat (Sql.concat vendor.displayName (some ": ")) assessment.assessmentKind) 240
      dueAt := assessment.nextReviewAt
      priority :=
        if (Sql.le (some 7500) assessment.residualRiskBasisPoints).holds then "high"
        else if (clock.overdue assessment.nextReviewAt).holds then "high"
        else "medium"
      action := "review_vendor_assessment" }

/-- The access review items without a decision or with an unfinished remediation, in campaigns that
are still open. -/
def accessReviewItemWork : List WorkRow :=
  selectJoin tables.accessReviewItems tables.accessReviewCampaigns
    (fun item campaign => joinsOn item.toGrcRow campaign.toGrcRow item.campaignId)
    (fun item campaign => (Sql.eq item.tenantId (some tenantId)).and
      (((Sql.eq item.decision (some "pending")).or
        (Sql.isIn item.remediationState ["pending", "in_progress", "failed"])).and
        (Sql.isIn campaign.state ["complete", "cancelled"]).not))
    fun item campaign => {
      kind := "access_review_item"
      id := item.id
      parentId := item.campaignId
      state :=
        if (Sql.eq item.decision (some "pending")).holds then some "pending_decision"
        else item.remediationState
      title := Sql.left
        (Sql.concat (Sql.concat item.principalKey (some " / ")) item.entitlementKey) 240
      dueAt := campaign.dueAt
      priority :=
        if (clock.overdue campaign.dueAt).holds then "high"
        else if (Sql.eq item.remediationState (some "failed")).holds then "high"
        else "medium"
      action :=
        if (Sql.eq item.decision (some "pending")).holds then "decide_access"
        else "remediate_access" }

/-- The security questionnaires that are not answered yet. Those in review wait for an approval, the
others for an answer. -/
def securityQuestionnaireWork : List WorkRow :=
  selectFrom tables.securityQuestionnaires
    (fun questionnaire => (Sql.eq questionnaire.tenantId (some tenantId)).and
      (Sql.isIn questionnaire.state ["draft", "open", "in_progress", "in_review", "received"]))
    fun questionnaire => {
      kind := "security_questionnaire"
      id := questionnaire.id
      parentId := questionnaire.vendorId
      state := questionnaire.state
      title := Sql.left questionnaire.title 240
      dueAt := questionnaire.dueAt
      priority :=
        if (clock.overdue questionnaire.dueAt).holds then "high"
        else if (Sql.eq questionnaire.state (some "in_review")).holds then "medium"
        else "low"
      action :=
        if (Sql.eq questionnaire.state (some "in_review")).holds then "approve_questionnaire"
        else "complete_questionnaire" }

/-- The subquery: the risk has a treatment that is planned, in progress or implemented. -/
def Risk.treated (risk : Risk) : Bool :=
  existsIn tables.riskTreatments fun treatment =>
    ((Sql.eq treatment.tenantId risk.tenantId).and (Sql.eq treatment.riskId risk.id)).and
      (Sql.isIn treatment.state ["planned", "in_progress", "implemented"])

/-- The product of the likelihood and the impact of a risk. -/
def Risk.inherent (risk : Risk) : Option Int :=
  match risk.inherentLikelihood, risk.inherentImpact with
  | some likelihood, some impact => some (likelihood * impact)
  | _, _ => none

/-- The `WHERE` of the risks. -/
def Risk.isWork (risk : Risk) : Truth :=
  ((Sql.eq risk.tenantId (some tenantId)).and
    (Sql.isIn risk.state ["open", "monitoring"])).and
      ((clock.within 14 risk.reviewDueAt).or (.of !risk.treated tables))

/-- The risks that are due for review or that have no treatment yet. The inherent score is the
product of two columns, and decides on the priority with the date of the review. -/
def riskWork : List WorkRow :=
  selectFrom tables.risks (fun risk => risk.isWork tables clock tenantId)
    fun risk => {
      kind := "risk"
      id := risk.id
      parentId := risk.scopeId
      state := risk.state
      title := Sql.left risk.title 240
      dueAt := risk.reviewDueAt
      priority :=
        if (Sql.le (some 16) risk.inherent).holds then "high"
        else if (clock.overdue risk.reviewDueAt).holds then "high"
        else if (Sql.le (some 9) risk.inherent).holds then "medium"
        else "low"
      action := if risk.treated tables then "review_risk" else "choose_risk_treatment" }

/-- The requests for access that wait for a decision or for the agreement on confidentiality. They
become urgent two days after the request. -/
def trustCenterAccessWork : List WorkRow :=
  selectFrom tables.trustCenterAccessRequests
    (fun request => (Sql.eq request.tenantId (some tenantId)).and
      ((Sql.eq request.state (some "pending")).or (Sql.eq request.ndaState (some "pending"))))
    fun request => {
      kind := "trust_center_access"
      id := request.id
      parentId := request.trustCenterId
      state :=
        if (Sql.eq request.ndaState (some "pending")).holds then some "nda_pending"
        else request.state
      title := Sql.left
        (Sql.concat request.requesterName
          (match request.requesterCompany with
          | none => some ""
          | some company => some (" — " ++ company))) 240
      dueAt := request.expiresAt
      priority :=
        if (Sql.lt request.requestedAt (some (clock.plusDays (-2)))).holds then "high"
        else "medium"
      action :=
        if (Sql.eq request.ndaState (some "pending")).holds then "complete_nda"
        else "decide_trust_access" }

/-- The requests for audit evidence that are open or whose evidence was rejected. A rejection is
urgent whatever the date. -/
def auditEvidenceWork : List WorkRow :=
  selectFrom tables.auditEvidenceRequests
    (fun request => (Sql.eq request.tenantId (some tenantId)).and
      (Sql.isIn request.state ["open", "in_progress", "rejected"]))
    fun request => {
      kind := "audit_evidence_request"
      id := request.id
      parentId := request.engagementId
      state := request.state
      title := Sql.left request.title 240
      dueAt := request.dueAt
      priority :=
        if (clock.overdue request.dueAt).holds then "high"
        else if (Sql.eq request.state (some "rejected")).holds then "high"
        else "medium"
      action :=
        if (Sql.eq request.state (some "rejected")).holds then "resubmit_evidence"
        else "submit_evidence" }

/-- The policies that are drafts, and the active ones whose next review is due within two weeks.
Nothing is joined, so the parent is NULL. -/
def policyReviewWork : List WorkRow :=
  selectFrom tables.policies
    (fun policy => (Sql.eq policy.tenantId (some tenantId)).and
      ((Sql.eq policy.state (some "draft")).or
        ((Sql.eq policy.state (some "active")).and (clock.within 14 policy.nextReviewAt))))
    fun policy => {
      kind := "policy_review"
      id := policy.id
      parentId := none
      state := policy.state
      title := Sql.left policy.title 240
      dueAt := policy.nextReviewAt
      priority := if (clock.overdue policy.nextReviewAt).holds then "high" else "medium"
      action :=
        if (Sql.eq policy.state (some "draft")).holds then "publish_policy"
        else "review_policy" }

/-- The training assignments that are overdue or due within a week. The title is that of the course,
so an assignment without a course is left out. -/
def trainingAssignmentWork : List WorkRow :=
  selectJoin tables.trainingAssignments tables.trainingCourses
    (fun assignment course => joinsOn assignment.toGrcRow course.toGrcRow assignment.courseId)
    (fun assignment _ => ((Sql.eq assignment.tenantId (some tenantId)).and
      (Sql.isIn assignment.state ["assigned", "in_progress", "overdue"])).and
        ((Sql.eq assignment.state (some "overdue")).or (clock.within 7 assignment.dueAt)))
    fun assignment course => {
      kind := "training_assignment"
      id := assignment.id
      parentId := assignment.courseId
      state := assignment.state
      title := Sql.left course.title 240
      dueAt := assignment.dueAt
      priority :=
        if ((Sql.eq assignment.state (some "overdue")).or (clock.overdue assignment.dueAt)).holds
        then "high" else "low"
      action := "complete_training" }

/-- The automation runs of the last thirty days that failed, in part or as a whole. A run has no due
date. -/
def automationRunWork : List WorkRow :=
  selectJoin tables.automationRuns tables.automationJobs
    (fun run job => joinsOn run.toGrcRow job.toGrcRow run.jobId)
    (fun run _ => ((Sql.eq run.tenantId (some tenantId)).and
      (Sql.isIn run.state ["failed", "partial"])).and
        (Sql.le (some (clock.plusDays (-30))) run.startedAt))
    fun run job => {
      kind := "automation_run"
      id := run.id
      parentId := run.jobId
      state := run.state
      title := Sql.left job.name 240
      dueAt := none
      priority := if (Sql.eq run.state (some "failed")).holds then "high" else "medium"
      action := "inspect_automation_run" }

/-- The AI systems in use that have a high or prohibited risk tier, or whose next review is due
within thirty days. -/
def aiSystemReviewWork : List WorkRow :=
  selectFrom tables.aiSystems
    (fun system => ((Sql.eq system.tenantId (some tenantId)).and
      (Sql.isIn system.deploymentState ["discovered", "proposed", "approved", "active"])).and
        ((Sql.isIn system.riskTier ["high", "prohibited"]).or
          (clock.within 30 system.nextReviewAt)))
    fun system => {
      kind := "ai_system_review"
      id := system.id
      parentId := system.assetId
      state := system.deploymentState
      title := Sql.left system.name 240
      dueAt := system.nextReviewAt
      priority :=
        if (Sql.eq system.riskTier (some "prohibited")).holds then "high"
        else if (Sql.eq system.riskTier (some "high")).holds then "high"
        else "medium"
      action := "review_ai_system" }

/-- The parts of `work_items`, each with the kind of its rows, in the order of the statement. The
statement takes their union without removing duplicates. -/
def workParts : List (String × List WorkRow) :=
  [("vendor_assessment", vendorAssessmentWork tables clock tenantId),
    ("access_review_item", accessReviewItemWork tables clock tenantId),
    ("security_questionnaire", securityQuestionnaireWork tables clock tenantId),
    ("risk", riskWork tables clock tenantId),
    ("trust_center_access", trustCenterAccessWork tables clock tenantId),
    ("audit_evidence_request", auditEvidenceWork tables clock tenantId),
    ("policy_review", policyReviewWork tables clock tenantId),
    ("training_assignment", trainingAssignmentWork tables clock tenantId),
    ("automation_run", automationRunWork tables clock tenantId),
    ("ai_system_review", aiSystemReviewWork tables clock tenantId)]

/-- `work_items`: the parts with `UNION ALL`. -/
def workItems : List WorkRow :=
  (workParts tables clock tenantId).flatMap Prod.snd

end

/-- `CASE priority WHEN 'high' THEN 0 WHEN 'medium' THEN 1 ELSE 2 END`. -/
def priorityRank (priority : String) : Nat :=
  if priority = "high" then 0 else if priority = "medium" then 1 else 2

/-- The key of `ORDER BY`. -/
def WorkRow.orderKey (row : WorkRow) : Nat ×ₗ (Bool ×ₗ Int) ×ₗ String ×ₗ (Bool ×ₗ Uuid) :=
  toLex (priorityRank row.priority, toLex (nullsLast 0 row.dueAt,
    toLex (row.kind, nullsLast .nil row.id)))

/-- The rows of the statement, when it has a result: the first 500, each with the count of all. -/
def workQueueRows (tables : GrcTables) (clock : WorkClock) (tenantId : Uuid) :
    List (WorkRow × Int) :=
  let rows := workItems tables clock tenantId
  ((orderBy WorkRow.orderKey rows).take 500).map fun row => (row, (rows.length : Int))

/-- The tables are not defined in the repository. `isScore` is the range of the integer type of the
likelihood and the impact of a risk, which is the type of their product as well. -/
class GrcSchema where
  isScore : Int → Bool

/-- The products that the statement computes: the first `CASE` of the risks asks for them. -/
def riskScores (tables : GrcTables) (clock : WorkClock) (tenantId : Uuid) : List (Option Int) :=
  selectFrom tables.risks (fun risk => risk.isWork tables clock tenantId) Risk.inherent

/-- A product is out of range. -/
def scoreOverflows [GrcSchema] (tables : GrcTables) (clock : WorkClock) (tenantId : Uuid) : Bool :=
  (riskScores tables clock tenantId).any fun score => score.any fun n => !GrcSchema.isScore n

/-- `WORK_QUEUE_SQL`. It fails when a product is out of range. -/
def workQueueStatement [GrcSchema] (tables : GrcTables) (clock : WorkClock) (tenantId : Uuid) :
    Option (List (WorkRow × Int)) :=
  if scoreOverflows tables clock tenantId = true then none
  else some (workQueueRows tables clock tenantId)

/-! ### `list_work_items` -/

/-- An item of the answer. A field that is not optional here must not be null in the row. -/
structure WorkItem where
  kind : String
  id : Uuid
  parentId : Option Uuid
  state : String
  title : String
  dueAt : Option String
  priority : String
  action : String
deriving DecidableEq

/-- The answer: how many items there are in all, and the first ones of them. -/
structure WorkQueueResponse where
  schemaVersion : String
  tenantId : Uuid
  totalMatching : Nat
  returned : Nat
  truncated : Bool
  items : List WorkItem
deriving DecidableEq

/-- `database_error`. -/
def workQueueError : ApiError :=
  .serviceUnavailable "grc_storage_unavailable" "GRC persistence is temporarily unavailable"

/-- The calls of the database in `list_work_items`, and whether they succeed. A call can fail for
any reason, and what it fails with does not reach the caller. -/
structure WorkQueueCalls where
  begin : Bool := true
  setTenant : Bool := true
  query : Bool := true
  commit : Bool := true
deriving DecidableEq

/-- All calls succeed. -/
def WorkQueueCalls.succeed (calls : WorkQueueCalls) : Bool :=
  calls.begin && calls.setTenant && calls.query && calls.commit

/-- The database of the handler. -/
inductive GrcDatabase where
  | postgres (tables : GrcTables) (clock : WorkClock)
  | other

section

variable [Postgres]

/-- The item of a row. NULL is not a text or an id, so a row without one of these ends the
request. -/
def WorkRow.item? (row : WorkRow) : Option WorkItem := do
  let id ← row.id
  let state ← row.state
  let title ← row.title
  return {
    kind := row.kind, id, parentId := row.parentId, state, title
    dueAt := row.dueAt.map Postgres.toChar, priority := row.priority, action := row.action }

/-- The loop over the rows, with the count and the items so far. Every row brings the count of all
matching rows, and the last one read is the one that is kept. -/
def readWorkRows : List (WorkRow × Int) → Nat → List WorkItem →
    Except ApiError (Nat × List WorkItem)
  | [], total, items => .ok (total, items)
  | (row, count) :: rows, _, items =>
      if count < 0 then
        .error (.serviceUnavailable "grc_storage_unavailable"
          "GRC work queue returned an invalid count")
      else
        match row.item? with
        | none => .error workQueueError
        | some item => readWorkRows rows count.toNat (items ++ [item])

/-- `list_work_items`, after the authentication of the tenant. `calls` says which calls on the
database succeed; each failure has the same answer. The answer is given only after the commit. -/
def listWorkItems [GrcSchema] (tenantId : Uuid) (calls : WorkQueueCalls) :
    Option GrcDatabase → Except ApiError WorkQueueResponse
  | none => .error
      (.serviceUnavailable "grc_storage_unavailable" "GRC persistence is not configured")
  | some .other => .error
      (.serviceUnavailable "grc_storage_unavailable" "GRC persistence requires PostgreSQL")
  | some (.postgres tables clock) =>
      if calls.begin = false ∨ calls.setTenant = false ∨ calls.query = false then
        .error workQueueError
      else do
        let rows ← Outcome.okOr workQueueError (workQueueStatement tables clock tenantId)
        let (totalMatching, items) ← readWorkRows rows 0 []
        if calls.commit = false then .error workQueueError
        else
          let returned := items.length
          return {
            schemaVersion := "canonical.grc.work-queue.v1"
            tenantId, totalMatching, returned
            truncated := returned < totalMatching
            items }

end

end CanonicalApi
