import Sqlery.Staging.DjangoJobs
import Sqlery.Standalone.Worker

/-!
# The specification of a retry

`JobExecutor._retry_job` copies the fields of a failed job into the arguments
of `create_job`, in two groups of which the second is filtered by the signature;
`TaskExecutor._retry_job` copies them into a new row.  Neither copies all of
them: a retry keeps the specification exactly when the fields that are left out
have their defaults.
-/

namespace Sqlery.Staging

inductive Backend where
  | standalone
  | django
  deriving DecidableEq, Repr

/-- A failed job: what `_retry_job` reads, and the rest of its specification. -/
structure JobRecord where
  id : JobId
  taskPath : String
  kwargs : List (String × Json)
  queueName : String
  priority : Int
  retryCount : Int
  maxRetries : Int
  retryBackoff : Rat
  allowParallel : Bool
  timeoutSeconds : Option Int
  jobName : Option String
  retryIntervals : Option (List Json)
  metadata : Option (List (String × Json))
  dependencies : List Json
  tags : List Json
  onSuccessPath : String
  onFailurePath : String
  ttl : Option Int
  resultTtl : Option Int
  failureTtl : Option Int
  scheduledTaskId : Option Int
  webhookUrl : Option String
  webhookEvents : List Json
  webhookMaxRetries : Int
  runs : List Json

/-! ## The two `_retry_job` -/

/-- `retry_job_name`. -/
def retriedName (failed : JobRecord) : Option String :=
  failed.jobName.bind fun name =>
    if name = "" then none
    else some (Standalone.retryJobName name (failed.retryCount + 1))

/-- The parameters of `create_job`. -/
def createJobParameters : Backend → List String
  | .standalone =>
      ["task_path", "kwargs", "queue_name", "priority", "scheduled_at",
        "max_retries", "retry_backoff", "allow_parallel", "timeout_seconds",
        "retry_count", "scheduled_task_id", "job_name", "retry_intervals",
        "meta", "dependencies", "on_success_path", "on_failure_path", "ttl",
        "result_ttl", "failure_ttl", "parent_job_id", "tags"]
  | .django =>
      ["task_path", "kwargs", "queue_name", "priority", "scheduled_at",
        "max_retries", "retry_backoff", "allow_parallel", "timeout_seconds",
        "retry_count", "scheduled_task_id", "job_name", "retry_intervals",
        "meta", "dependencies", "on_success_path", "on_failure_path", "ttl",
        "result_ttl", "failure_ttl", "parent_job_id", "tags", "webhook_url",
        "webhook_events", "webhook_max_retries"]

/-- An argument of the second group, which only a `create_job` that has the
parameter gets. -/
def carried {α : Type} (accepted : List String) (key : String)
    (value default : α) : α :=
  if key ∈ accepted then value else default

/-- The call of `create_job` in `JobExecutor._retry_job`. -/
def retriedSpec (accepted : List String) (failed : JobRecord)
    (scheduledAt : Time) : Spec where
  taskPath := failed.taskPath
  kwargs := failed.kwargs
  queueName := failed.queueName
  priority := failed.priority
  scheduledAt := some scheduledAt
  jobName := retriedName failed
  maxRetries := failed.maxRetries
  retryBackoff := failed.retryBackoff
  allowParallel := failed.allowParallel
  timeoutSeconds := failed.timeoutSeconds
  retryCount := some (failed.retryCount + 1)
  parentJobId := some failed.id
  retryIntervals :=
    carried accepted "retry_intervals" failed.retryIntervals none
  dependencies :=
    carried accepted "dependencies" (some failed.dependencies) none
  tags := carried accepted "tags" (some failed.tags) none
  metadata := carried accepted "meta" failed.metadata none
  onSuccessPath := carried accepted "on_success_path" failed.onSuccessPath ""
  onFailurePath := carried accepted "on_failure_path" failed.onFailurePath ""
  resultTtl := carried accepted "result_ttl" failed.resultTtl none
  failureTtl := carried accepted "failure_ttl" failed.failureTtl none

/-- The fields of the row that `TaskExecutor._retry_job` creates. -/
def taskExecutorSpec (failed : JobRecord) (scheduledAt : Time) : Spec where
  taskPath := failed.taskPath
  kwargs := failed.kwargs
  queueName := failed.queueName
  priority := failed.priority
  scheduledTaskId := failed.scheduledTaskId
  retryCount := some (failed.retryCount + 1)
  maxRetries := failed.maxRetries
  retryBackoff := failed.retryBackoff
  retryIntervals := failed.retryIntervals
  timeoutSeconds := failed.timeoutSeconds
  allowParallel := failed.allowParallel
  dependencies := some failed.dependencies
  tags := some failed.tags
  metadata := failed.metadata
  onSuccessPath := failed.onSuccessPath
  onFailurePath := failed.onFailurePath
  resultTtl := failed.resultTtl
  failureTtl := failed.failureTtl
  parentJobId := some failed.id
  scheduledAt := some scheduledAt
  jobName := retriedName failed

/-- The ways of a retry into the table of live jobs. -/
inductive Route where
  | direct (backend : Backend)
  | staged (backend : Backend)
  | taskExecutor
  deriving DecidableEq, Repr

def Route.backend : Route → Backend
  | .direct backend => backend
  | .staged backend => backend
  | .taskExecutor => .django

/-- A staging row that its table takes, promoted. -/
def stagedRow (columns : List Column) (defaults : List (String × Value))
    (now : Time) (row : ScheduledJob) : Option Row :=
  if row.fits then promotedRow columns defaults now row else none

/-- The live row of the retry; `none` when the database refuses it. -/
def retryRow (route : Route) (failed : JobRecord) (scheduledAt : Time)
    (id : JobId) (createdAt now : Time) : Option Row :=
  match route with
  | .direct .standalone =>
      directRow (retriedSpec (createJobParameters .standalone) failed
        scheduledAt) id createdAt now
  | .direct .django =>
      djangoDirectRow (retriedSpec (createJobParameters .django) failed
        scheduledAt) {} [] id createdAt now
  | .staged .standalone =>
      stagedRow jobColumns (ormColumnDefaults now) now
        (scheduledJob (retriedSpec (createJobParameters .standalone) failed
          scheduledAt) scheduledAt id createdAt)
  | .staged .django =>
      stagedRow djangoJobColumns (djangoColumnDefaults now) now
        (djangoScheduledJob (retriedSpec (createJobParameters .django) failed
          scheduledAt) {} scheduledAt id createdAt)
  | .taskExecutor =>
      djangoDirectRow (taskExecutorSpec failed scheduledAt)
        { url := failed.webhookUrl, events := some failed.webhookEvents }
        failed.runs id createdAt now

/-! ## The specification -/

def intCell : Option Int → Cell
  | none => .null
  | some value => .int value

def textCell : Option String → Cell
  | none => .null
  | some value => .text value

def jsonCell {α : Type} (encode : α → Json) : Option α → Cell
  | none => .null
  | some value => .json (encode value)

/-- The fields of a job's specification as they are read from its row. -/
def JobRecord.specification (failed : JobRecord) : List (String × Cell) :=
  [("task_path", .text failed.taskPath),
    ("kwargs", .json (.obj failed.kwargs)),
    ("queue_name", .text failed.queueName),
    ("priority", .int failed.priority),
    ("allow_parallel", .bool failed.allowParallel),
    ("timeout_seconds", intCell failed.timeoutSeconds),
    ("max_retries", .int failed.maxRetries),
    ("retry_backoff", .real failed.retryBackoff),
    ("retry_intervals", jsonCell .arr failed.retryIntervals),
    ("dependencies", .json (.arr failed.dependencies)),
    ("tags", .json (.arr failed.tags)),
    ("meta", jsonCell .obj failed.metadata),
    ("on_success_path", .text failed.onSuccessPath),
    ("on_failure_path", .text failed.onFailurePath),
    ("ttl", intCell failed.ttl),
    ("result_ttl", intCell failed.resultTtl),
    ("failure_ttl", intCell failed.failureTtl),
    ("scheduled_task_id", intCell failed.scheduledTaskId)]

/-- The webhook settings, which only the Django table has. -/
def JobRecord.webhookSettings (failed : JobRecord) : List (String × Cell) :=
  [("webhook_url", textCell failed.webhookUrl),
    ("webhook_events", .json (.arr failed.webhookEvents)),
    ("webhook_max_retries", .int failed.webhookMaxRetries)]

def JobRecord.settings (failed : JobRecord) : Backend → List (String × Cell)
  | .standalone => failed.specification
  | .django => failed.specification ++ failed.webhookSettings

/-- The row reads as the cells. -/
def Reads (row : Row) (cells : List (String × Cell)) : Prop :=
  ∀ entry ∈ cells, (row.cell entry.1).asRead = entry.2

theorem Reads.nil {row : Row} : Reads row [] := by
  intro entry member
  cases member

theorem Reads.cons {row : Row} {name : String} {cell : Cell}
    {cells : List (String × Cell)} (here : (row.cell name).asRead = cell)
    (rest : Reads row cells) : Reads row ((name, cell) :: cells) := by
  intro entry member
  rcases List.mem_cons.mp member with rfl | later
  · exact here
  · exact rest entry later

theorem Reads.append {row : Row} {first second : List (String × Cell)}
    (left : Reads row first) (right : Reads row second) :
    Reads row (first ++ second) := by
  intro entry member
  rcases List.mem_append.mp member with inFirst | inSecond
  · exact left entry inFirst
  · exact right entry inSecond

/-- The fields that a route leaves out have their defaults. -/
def Unused : Route → JobRecord → Prop
  | .taskExecutor, failed => failed.ttl = none ∧ failed.webhookMaxRetries = 3
  | .direct .standalone, failed | .staged .standalone, failed =>
      failed.ttl = none ∧ failed.scheduledTaskId = none
  | .direct .django, failed | .staged .django, failed =>
      failed.ttl = none ∧ failed.scheduledTaskId = none ∧
        failed.webhookUrl = none ∧ failed.webhookEvents = [] ∧
        failed.webhookMaxRetries = 3

/-- What becomes of a job's specification on a route. -/
def Route.retried : Route → JobRecord → JobRecord
  | .taskExecutor, failed =>
      { failed with ttl := none, webhookMaxRetries := 3 }
  | _, failed =>
      { failed with
        ttl := none, scheduledTaskId := none, webhookUrl := none
        webhookEvents := [], webhookMaxRetries := 3 }

/-! ## What the rows read as -/

section Cells

variable {columns : List Column} {now : Time} {row : Row} {column : Column}
variable {name : String} {cell : Cell} {value : Value}

theorem read_of_param {parts : List (String × Part)}
    (inserted : insertRow columns now parts = some row)
    (isColumn : (columns.find? fun column => column.name = name) =
      some column)
    (given : parts.lookup name = some (.param value))
    (reads : (column.cellOf value).asRead = cell) :
    (row.cell name).asRead = cell := by
  rw [cell_of_param inserted isColumn given]
  exact reads

theorem read_of_promotion {staged defaults : List (String × Value)}
    (once : (columns.map Column.name).Nodup)
    (inserted : insertRow columns now
      (promotionInsertParts columns staged defaults) = some row)
    (isColumn : (columns.find? fun column => column.name = name) =
      some column)
    (given : promotionPart staged defaults column = some (.param value))
    (reads : (column.cellOf value).asRead = cell) :
    (row.cell name).asRead = cell := by
  rw [cell_of_promotion once inserted isColumn given]
  exact reads

theorem intValue_reads (isWhole : column.udt = .int4 ∨ column.udt = .int8)
    (value : Option Int) :
    (column.cellOf (intValue value)).asRead = intCell value := by
  cases value with
  | none => rfl
  | some value =>
      rcases isWhole with isInt4 | isInt8
      · simp [intValue, Column.cellOf, isInt4, Cell.asRead, intCell]
      · simp [intValue, Column.cellOf, isInt8, Cell.asRead, intCell]

theorem textValue_reads (value : Option String) :
    (column.cellOf (textValue value)).asRead = textCell value := by
  cases value <;> rfl

theorem jsonValue_reads {α : Type} {encode : α → Json}
    (isData : ∀ value, encode value ≠ .null) (value : Option α) :
    (column.cellOf (jsonValue encode value)).asRead =
      jsonCell encode value := by
  cases value with
  | none => rfl
  | some value =>
      have data := isData value
      simp only [jsonValue, Column.cellOf, jsonCell]
      generalize encode value = json at data ⊢
      cases json <;> first | rfl | exact (data rfl).elim

end Cells

/-! ## What a retry reads as -/

theorem dumped_reads {column : Column} {α : Type} {encode : α → Json}
    (isData : ∀ value, encode value ≠ .null) (value : Option α) :
    (column.cellOf (.dumped (Json.ofOption encode value))).asRead =
      jsonCell encode value := by
  cases value with
  | none => rfl
  | some value => exact jsonValue_reads isData (some value)

theorem dumpsUnlessNone_reads {column : Column} {α : Type}
    {encode : α → Json} (isData : ∀ value, encode value ≠ .null)
    (value : Option α) :
    (column.cellOf (.dumpsUnlessNone (Json.ofOption encode value))).asRead =
      jsonCell encode value := by
  cases value with
  | none => rfl
  | some value =>
      have data := isData value
      simp only [Json.ofOption, jsonCell]
      generalize encode value = json at data ⊢
      cases json <;> first | rfl | exact (data rfl).elim

theorem arr_isData (items : List Json) : Json.arr items ≠ .null := by
  intro same
  cases same

theorem obj_isData (fields : List (String × Json)) :
    Json.obj fields ≠ .null := by
  intro same
  cases same

/-- What the row of a specification reads as. -/
def specCells (spec : Spec) : List (String × Cell) :=
  [("task_path", .text spec.taskPath),
    ("kwargs", .json (.obj spec.kwargs)),
    ("queue_name", .text spec.queueName),
    ("priority", .int spec.priority),
    ("allow_parallel", .bool spec.allowParallel),
    ("timeout_seconds", intCell spec.timeoutSeconds),
    ("max_retries", .int spec.maxRetries),
    ("retry_backoff", .real spec.retryBackoff),
    ("retry_intervals", jsonCell .arr spec.retryIntervals),
    ("dependencies", .json (.arr (spec.dependencies.getD []))),
    ("tags", .json (.arr (spec.tags.getD []))),
    ("meta", jsonCell .obj spec.metadata),
    ("on_success_path", .text spec.onSuccessPath),
    ("on_failure_path", .text spec.onFailurePath),
    ("ttl", intCell spec.ttl),
    ("result_ttl", intCell spec.resultTtl),
    ("failure_ttl", intCell spec.failureTtl),
    ("scheduled_task_id", intCell spec.scheduledTaskId)]

def webhookCells (webhook : Webhook) : List (String × Cell) :=
  [("webhook_url", textCell webhook.url),
    ("webhook_events", .json (.arr (webhook.events.getD []))),
    ("webhook_max_retries", .int (webhook.maxRetries.getD 3))]

section Retries

variable {record : JobRecord} {scheduledAt createdAt now : Time}
variable {id : JobId} {row : Row}

theorem directRow_reads {spec : Spec}
    (created : directRow spec id createdAt now = some row) :
    Reads row (specCells spec) := by
  refine .cons (read_of_param created rfl rfl rfl) ?_
  refine .cons (read_of_param created rfl rfl rfl) ?_
  refine .cons (read_of_param created rfl rfl rfl) ?_
  refine .cons (read_of_param created rfl rfl rfl) ?_
  refine .cons (read_of_param created rfl rfl rfl) ?_
  refine .cons
    (read_of_param created rfl rfl (intValue_reads (.inl rfl) _)) ?_
  refine .cons (read_of_param created rfl rfl rfl) ?_
  refine .cons (read_of_param created rfl rfl rfl) ?_
  refine .cons (read_of_param created rfl rfl (dumped_reads arr_isData _)) ?_
  refine .cons (read_of_param created rfl rfl rfl) ?_
  refine .cons (read_of_param created rfl rfl rfl) ?_
  refine .cons (read_of_param created rfl rfl (dumped_reads obj_isData _)) ?_
  refine .cons (read_of_param created rfl rfl rfl) ?_
  refine .cons (read_of_param created rfl rfl rfl) ?_
  refine .cons
    (read_of_param created rfl rfl (intValue_reads (.inl rfl) _)) ?_
  refine .cons
    (read_of_param created rfl rfl (intValue_reads (.inl rfl) _)) ?_
  refine .cons
    (read_of_param created rfl rfl (intValue_reads (.inl rfl) _)) ?_
  refine .cons
    (read_of_param created rfl rfl (intValue_reads (.inl rfl) _)) ?_
  exact .nil

theorem djangoDirectRow_reads {spec : Spec} {webhook : Webhook}
    {runs : List Json}
    (created : djangoDirectRow spec webhook runs id createdAt now =
      some row) :
    Reads row (specCells spec) := by
  refine .cons (read_of_param created rfl rfl rfl) ?_
  refine .cons (read_of_param created rfl rfl rfl) ?_
  refine .cons (read_of_param created rfl rfl rfl) ?_
  refine .cons (read_of_param created rfl rfl rfl) ?_
  refine .cons (read_of_param created rfl rfl rfl) ?_
  refine .cons
    (read_of_param created rfl rfl (intValue_reads (.inl rfl) _)) ?_
  refine .cons (read_of_param created rfl rfl rfl) ?_
  refine .cons (read_of_param created rfl rfl rfl) ?_
  refine .cons
    (read_of_param created rfl rfl (jsonValue_reads arr_isData _)) ?_
  refine .cons (read_of_param created rfl rfl rfl) ?_
  refine .cons (read_of_param created rfl rfl rfl) ?_
  refine .cons
    (read_of_param created rfl rfl (jsonValue_reads obj_isData _)) ?_
  refine .cons (read_of_param created rfl rfl rfl) ?_
  refine .cons (read_of_param created rfl rfl rfl) ?_
  refine .cons
    (read_of_param created rfl rfl (intValue_reads (.inl rfl) _)) ?_
  refine .cons
    (read_of_param created rfl rfl (intValue_reads (.inl rfl) _)) ?_
  refine .cons
    (read_of_param created rfl rfl (intValue_reads (.inl rfl) _)) ?_
  refine .cons
    (read_of_param created rfl rfl (intValue_reads (.inr rfl) _)) ?_
  exact .nil

theorem djangoDirectRow_readsWebhook {spec : Spec} {webhook : Webhook}
    {runs : List Json}
    (created : djangoDirectRow spec webhook runs id createdAt now =
      some row) :
    Reads row (webhookCells webhook) := by
  refine .cons (read_of_param created rfl rfl (textValue_reads _)) ?_
  refine .cons (read_of_param created rfl rfl rfl) ?_
  refine .cons (read_of_param created rfl rfl rfl) ?_
  exact .nil

/-- A row promoted by the Django daemon, whose table is not the standalone
one. -/
theorem djangoPromotedRow_reads {spec : Spec} {due : Time}
    (created : insertRow djangoJobColumns now (promotionInsertParts
      djangoJobColumns (unpackedValues spec due id createdAt)
      (djangoColumnDefaults now)) = some row) :
    Reads row (specCells spec ++ webhookCells {}) := by
  apply Reads.append
  · refine .cons
      (read_of_promotion djangoJobColumns_once created rfl rfl rfl) ?_
    refine .cons
      (read_of_promotion djangoJobColumns_once created rfl rfl rfl) ?_
    refine .cons
      (read_of_promotion djangoJobColumns_once created rfl rfl rfl) ?_
    refine .cons
      (read_of_promotion djangoJobColumns_once created rfl rfl rfl) ?_
    refine .cons
      (read_of_promotion djangoJobColumns_once created rfl rfl rfl) ?_
    refine .cons (read_of_promotion djangoJobColumns_once created rfl rfl
      (intValue_reads (.inl rfl) _)) ?_
    refine .cons
      (read_of_promotion djangoJobColumns_once created rfl rfl rfl) ?_
    refine .cons
      (read_of_promotion djangoJobColumns_once created rfl rfl rfl) ?_
    refine .cons (read_of_promotion djangoJobColumns_once created rfl rfl
      (dumpsUnlessNone_reads arr_isData _)) ?_
    refine .cons
      (read_of_promotion djangoJobColumns_once created rfl rfl rfl) ?_
    refine .cons
      (read_of_promotion djangoJobColumns_once created rfl rfl rfl) ?_
    refine .cons (read_of_promotion djangoJobColumns_once created rfl rfl
      (dumpsUnlessNone_reads obj_isData _)) ?_
    refine .cons
      (read_of_promotion djangoJobColumns_once created rfl rfl rfl) ?_
    refine .cons
      (read_of_promotion djangoJobColumns_once created rfl rfl rfl) ?_
    refine .cons (read_of_promotion djangoJobColumns_once created rfl rfl
      (intValue_reads (.inl rfl) _)) ?_
    refine .cons (read_of_promotion djangoJobColumns_once created rfl rfl
      (intValue_reads (.inl rfl) _)) ?_
    refine .cons (read_of_promotion djangoJobColumns_once created rfl rfl
      (intValue_reads (.inl rfl) _)) ?_
    refine .cons (read_of_promotion djangoJobColumns_once created rfl rfl
      (intValue_reads (.inr rfl) _)) ?_
    exact .nil
  · refine .cons ?_ ?_
    · rw [cell_of_silence djangoJobColumns_once created rfl rfl rfl]
      rfl
    refine .cons (read_of_promotion djangoJobColumns_once created rfl rfl rfl)
      ?_
    refine .cons (read_of_promotion djangoJobColumns_once created rfl rfl rfl)
      ?_
    exact .nil

theorem cell_asRead (row : Row) (name : String) :
    row.asRead.cell name = (row.cell name).asRead := by
  unfold Row.cell Row.asRead
  rw [lookup_map Cell.asRead]
  cases row.lookup name with
  | none => rfl
  | some cell => rfl

/-- A promoted row of the standalone table reads as the direct one. -/
theorem promotedRow_reads {spec : Spec} {due : Time}
    (isDue : spec.scheduledAt = some due)
    (created : promotedRow jobColumns (ormColumnDefaults now) now
      (scheduledJob spec due id createdAt) = some row) :
    Reads row (specCells spec) := by
  have whole : SomeDefaults (ormColumnDefaults now) now :=
    fun _ _ found => found
  have same := promotedRow_scheduledJob whole spec due isDue id createdAt
  rw [created] at same
  obtain ⟨direct, isDirect, reads⟩ := Option.map_eq_some_iff.mp same.symm
  intro entry member
  rw [← cell_asRead, ← reads, cell_asRead]
  exact directRow_reads isDirect entry member

theorem stagedRow_some {columns : List Column}
    {defaults : List (String × Value)} {staged : ScheduledJob}
    (created : stagedRow columns defaults now staged = some row) :
    promotedRow columns defaults now staged = some row := by
  unfold stagedRow at created
  split at created
  · exact created
  · cases created

/-- The row of a retry reads as what the route makes of the failed job. -/
theorem retryRow_reads (route : Route)
    (created : retryRow route record scheduledAt id createdAt now =
      some row) :
    Reads row ((route.retried record).settings route.backend) := by
  cases route with
  | direct backend =>
      cases backend with
      | standalone => exact directRow_reads created
      | django =>
          exact (djangoDirectRow_reads created).append
            (djangoDirectRow_readsWebhook created)
  | staged backend =>
      cases backend with
      | standalone => exact promotedRow_reads rfl (stagedRow_some created)
      | django =>
          have promoted := stagedRow_some created
          have plain : djangoScheduledJob (retriedSpec
              (createJobParameters .django) record scheduledAt) {}
              scheduledAt id createdAt =
            scheduledJob (retriedSpec (createJobParameters .django) record
              scheduledAt) scheduledAt id createdAt := rfl
          simp only [plain, promotedRow, stagedValues_scheduledJob] at promoted
          exact djangoPromotedRow_reads promoted
  | taskExecutor =>
      exact (djangoDirectRow_reads created).append
        (djangoDirectRow_readsWebhook created)

end Retries

/-! ## Which retries keep the specification -/

section Keeping

variable {row : Row} {first second : List (String × Cell)}

theorem Reads.eq_map (reads : Reads row first) :
    first = (first.map Prod.fst).map fun name =>
      (name, (row.cell name).asRead) := by
  induction first with
  | nil => rfl
  | cons entry entries ih =>
      have here := reads entry List.mem_cons_self
      have rest := ih fun other member =>
        reads other (List.mem_cons_of_mem _ member)
      rw [List.map_cons, List.map_cons, ← rest, here]

/-- A row reads in one way only. -/
theorem Reads.unique (one : Reads row first) (other : Reads row second)
    (names : first.map Prod.fst = second.map Prod.fst) : first = second := by
  calc first
      = (first.map Prod.fst).map fun name => (name, (row.cell name).asRead) :=
        one.eq_map
    _ = (second.map Prod.fst).map fun name =>
        (name, (row.cell name).asRead) := by rw [names]
    _ = second := other.eq_map.symm

theorem intCell_none {value : Option Int}
    (same : some .null = some (intCell value)) : value = none := by
  cases value with
  | none => rfl
  | some value => cases same

theorem textCell_none {value : Option String}
    (same : some .null = some (textCell value)) : value = none := by
  cases value with
  | none => rfl
  | some value => cases same

/-- `JobExecutor` leaves a job alone that does not use what it leaves out. -/
theorem direct_of_unused (backend : Backend) {record : JobRecord}
    (unused : Unused (.direct backend) record) :
    ((Route.direct backend).retried record).settings backend =
      record.settings backend := by
  cases backend with
  | standalone =>
      obtain ⟨ttl, task⟩ := unused
      simp only [Route.retried, JobRecord.settings, JobRecord.specification,
        ttl, task]
  | django =>
      obtain ⟨ttl, task, url, events, most⟩ := unused
      simp only [Route.retried, JobRecord.settings, JobRecord.specification,
        JobRecord.webhookSettings, ttl, task, url, events, most]

theorem retried_of_unused {route : Route} {record : JobRecord}
    (unused : Unused route record) :
    (route.retried record).settings route.backend =
      record.settings route.backend := by
  cases route with
  | direct backend => exact direct_of_unused backend unused
  | staged backend =>
      cases backend with
      | standalone => exact direct_of_unused .standalone unused
      | django => exact direct_of_unused .django unused
  | taskExecutor =>
      obtain ⟨ttl, most⟩ := unused
      simp only [Route.retried, Route.backend, JobRecord.settings,
        JobRecord.specification, JobRecord.webhookSettings, ttl, most]

/-- What two equal lists of settings say of one field. -/
theorem field_eq {first second : List (String × Cell)} (same : first = second)
    (name : String) : first.lookup name = second.lookup name := by
  rw [same]

theorem unused_of_direct (backend : Backend) {record : JobRecord}
    (same : ((Route.direct backend).retried record).settings backend =
      record.settings backend) :
    Unused (.direct backend) record := by
  have named := field_eq same
  cases backend with
  | standalone =>
      exact ⟨intCell_none (named "ttl"),
        intCell_none (named "scheduled_task_id")⟩
  | django =>
      have events := named "webhook_events"
      have most := named "webhook_max_retries"
      exact ⟨intCell_none (named "ttl"),
        intCell_none (named "scheduled_task_id"),
        textCell_none (named "webhook_url"),
        (Json.arr.inj (Cell.json.inj (Option.some.inj events))).symm,
        (Cell.int.inj (Option.some.inj most)).symm⟩

theorem unused_of_retried {route : Route} {record : JobRecord}
    (same : (route.retried record).settings route.backend =
      record.settings route.backend) :
    Unused route record := by
  cases route with
  | direct backend => exact unused_of_direct backend same
  | staged backend =>
      cases backend with
      | standalone => exact unused_of_direct .standalone same
      | django => exact unused_of_direct .django same
  | taskExecutor =>
      have named := field_eq same
      have most := named "webhook_max_retries"
      exact ⟨intCell_none (named "ttl"),
        (Cell.int.inj (Option.some.inj most)).symm⟩

/-- A retry reads as the failed job in every field of the specification just
when the fields that its route leaves out have their defaults. -/
theorem retryRow_keeps_iff (route : Route) (record : JobRecord)
    (scheduledAt : Time) (id : JobId) (createdAt now : Time) (row : Row)
    (created : retryRow route record scheduledAt id createdAt now =
      some row) :
    Reads row (record.settings route.backend) ↔ Unused route record := by
  have reads := retryRow_reads route created
  constructor
  · intro keeps
    apply unused_of_retried
    apply reads.unique keeps
    cases route with
    | direct backend => cases backend <;> rfl
    | staged backend => cases backend <;> rfl
    | taskExecutor => rfl
  · intro unused
    rw [← retried_of_unused unused]
    exact reads

/-- A job that may wait for an hour and then expires. -/
def expiringJob : JobRecord where
  id := 1
  taskPath := "app.tasks.report"
  kwargs := [("day", .int 1)]
  queueName := "default"
  priority := 0
  retryCount := 0
  maxRetries := 3
  retryBackoff := 1
  allowParallel := false
  timeoutSeconds := none
  jobName := none
  retryIntervals := none
  metadata := none
  dependencies := []
  tags := []
  onSuccessPath := ""
  onFailurePath := ""
  ttl := some 3600
  resultTtl := none
  failureTtl := none
  scheduledTaskId := none
  webhookUrl := none
  webhookEvents := []
  webhookMaxRetries := 3
  runs := []

/-- On no route does its retry expire. -/
theorem retryRow_drops_ttl : ¬∃ route, ∀ row,
    retryRow route expiringJob 100 2 50 50 = some row →
      Reads row (expiringJob.settings route.backend) := by
  intro keeping
  obtain ⟨route, keeps⟩ := keeping
  have hour : ∀ backend,
      ("ttl", .int 3600) ∈ expiringJob.settings backend := by
    intro backend
    cases backend <;>
      simp [expiringJob, JobRecord.settings, JobRecord.specification, intCell]
  cases route with
  | direct backend =>
      cases backend with
      | django => cases keeps _ rfl ("ttl", .int 3600) (hour _)
      | standalone => cases keeps _ rfl ("ttl", .int 3600) (hour _)
  | staged backend =>
      cases backend with
      | django => cases keeps _ rfl ("ttl", .int 3600) (hour _)
      | standalone => cases keeps _ rfl ("ttl", .int 3600) (hour _)
  | taskExecutor => cases keeps _ rfl ("ttl", .int 3600) (hour _)

/-- Without the hour, all of them keep the specification. -/
theorem retryRow_keeps_iff_plain : ∃ row,
    retryRow (.staged .django) { expiringJob with ttl := none } 100 2 50 50 =
      some row ∧
    Reads row ({ expiringJob with ttl := none }.settings .django) :=
  ⟨_, rfl, (retryRow_keeps_iff (.staged .django)
    { expiringJob with ttl := none } 100 2 50 50 _ rfl).mpr
      ⟨rfl, rfl, rfl, rfl, rfl⟩⟩

end Keeping

end Sqlery.Staging
