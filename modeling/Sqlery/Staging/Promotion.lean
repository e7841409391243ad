import Sqlery.Staging.Values

/-!
# A job by way of the staging table

`create_job` stores a job directly, or it puts the specification of a job far
in the future into the payload of a staging row; `promote_due_scheduled_jobs`
unpacks the payload and builds the live row from it.  This is the part of both
that builds rows.
-/

namespace Sqlery.Staging

/-! ## `create_job` -/

/-- The parameters of `create_job`. -/
structure Spec where
  taskPath : String
  kwargs : List (String × Json)
  queueName : String
  priority : Int
  scheduledAt : Option Time
  maxRetries : Int
  retryBackoff : Rat
  allowParallel : Bool
  timeoutSeconds : Option Int
  retryCount : Option Int := none
  scheduledTaskId : Option Int := none
  jobName : Option String := none
  retryIntervals : Option (List Json) := none
  metadata : Option (List (String × Json)) := none
  dependencies : Option (List Json) := none
  onSuccessPath : String := ""
  onFailurePath : String := ""
  ttl : Option Int := none
  resultTtl : Option Int := none
  failureTtl : Option Int := none
  parentJobId : Option Int := none
  tags : Option (List Json) := none

def intJson : Option Int → Json := Json.ofOption .int

/-- `job_spec` in the payload. -/
def jobSpec (spec : Spec) : List (String × Json) :=
  [("retry_backoff", .real spec.retryBackoff),
    ("allow_parallel", .bool spec.allowParallel),
    ("timeout_seconds", intJson spec.timeoutSeconds),
    ("retry_count", .int (spec.retryCount.getD 0)),
    ("scheduled_task_id", intJson spec.scheduledTaskId),
    ("job_name", Json.ofOption .str spec.jobName),
    ("retry_intervals", Json.ofOption .arr spec.retryIntervals),
    ("meta", Json.ofOption .obj spec.metadata),
    ("dependencies", .arr (spec.dependencies.getD [])),
    ("on_success_path", .str spec.onSuccessPath),
    ("on_failure_path", .str spec.onFailurePath),
    ("ttl", intJson spec.ttl),
    ("result_ttl", intJson spec.resultTtl),
    ("failure_ttl", intJson spec.failureTtl),
    ("parent_job_id", intJson spec.parentJobId),
    ("tags", .arr (spec.tags.getD []))]

/-- `full_payload`. -/
def fullPayload (spec : Spec) : List (String × Json) :=
  [("kwargs", .obj spec.kwargs), ("job_spec", .obj (jobSpec spec))]

/-- A row of `sqlery_scheduled_job`. -/
structure ScheduledJob where
  id : JobId
  createdAt : Time
  queueName : String
  taskPath : String
  payload : List (String × Json)
  scheduledAt : Time
  priority : Int
  maxRetries : Int

def scheduledJob (spec : Spec) (due : Time) (id : JobId) (createdAt : Time) :
    ScheduledJob where
  id
  createdAt
  queueName := spec.queueName
  taskPath := spec.taskPath
  payload := fullPayload spec
  scheduledAt := due
  priority := spec.priority
  maxRetries := spec.maxRetries

/-- The columns of the staging table take the row. -/
def ScheduledJob.fits (row : ScheduledJob) : Bool :=
  row.queueName.length ≤ 50 && row.taskPath.length ≤ 500 &&
    Column.inRange .int4 row.priority && Column.inRange .int4 row.maxRetries

def intValue : Option Int → Value
  | none => .none
  | some value => .int value

def textValue : Option String → Value
  | none => .none
  | some value => .text value

def timeValue : Option Time → Value
  | none => .none
  | some value => .time value

/-- What the flush of a new `QueuedJob` writes: the arguments of `create_job`
and the field defaults of the model.  A JSON column gets `null` for `None`. -/
def queuedJobValues (spec : Spec) (id : JobId) (createdAt : Time) :
    List (String × Value) :=
  [("id", .int id),
    ("task_path", .text spec.taskPath),
    ("kwargs", .dumped (.obj spec.kwargs)),
    ("queue_name", .text spec.queueName),
    ("priority", .int spec.priority),
    ("status", .text "queued"),
    ("parent_job_id", intValue spec.parentJobId),
    ("retry_count", .int (spec.retryCount.getD 0)),
    ("max_retries", .int spec.maxRetries),
    ("retry_backoff", .real spec.retryBackoff),
    ("allow_parallel", .bool spec.allowParallel),
    ("timeout_seconds", intValue spec.timeoutSeconds),
    ("worker_pid", .none),
    ("child_pid", .none),
    ("job_name", textValue spec.jobName),
    ("tags", .dumped (.arr (spec.tags.getD []))),
    ("retry_intervals", .dumped (Json.ofOption .arr spec.retryIntervals)),
    ("meta", .dumped (Json.ofOption .obj spec.metadata)),
    ("dependencies", .dumped (.arr (spec.dependencies.getD []))),
    ("on_success_path", .text spec.onSuccessPath),
    ("on_failure_path", .text spec.onFailurePath),
    ("ttl", intValue spec.ttl),
    ("result_ttl", intValue spec.resultTtl),
    ("failure_ttl", intValue spec.failureTtl),
    ("version", .int 0),
    ("runs", .dumped (.arr [])),
    ("scheduled_task_id", intValue spec.scheduledTaskId),
    ("worker_id", .none),
    ("created_at", .time createdAt),
    ("scheduled_at", timeValue spec.scheduledAt),
    ("started_at", .none),
    ("finished_at", .none),
    ("duration_seconds", .none),
    ("output", .text ""),
    ("error", .text ""),
    ("traceback", .text ""),
    ("termination_reason", .text "")]

/-! ## The table of live jobs -/

/-- `_build_partitioned_jobs_ddl`.  The default of `id`, the next number of the
sequence, is left out: both ways give the id. -/
def jobColumns : List Column :=
  [{ name := "id", udt := .int8, notNull := true },
    { name := "created_at", udt := .timestamptz, notNull := true
      default := some .now },
    { name := "task_path", udt := .varchar, limit := some 500
      notNull := true },
    { name := "kwargs", udt := .json, notNull := true
      default := some (.constant (.json (.obj []))) },
    { name := "queue_name", udt := .varchar, limit := some 50
      notNull := true, default := some (.constant (.text "default")) },
    { name := "priority", udt := .int4, notNull := true
      default := some (.constant (.int 0)) },
    { name := "status", udt := .varchar, limit := some 20, notNull := true
      default := some (.constant (.text "queued")) },
    { name := "parent_job_id", udt := .int8 },
    { name := "retry_count", udt := .int4, notNull := true
      default := some (.constant (.int 0)) },
    { name := "max_retries", udt := .int4, notNull := true
      default := some (.constant (.int 0)) },
    { name := "retry_backoff", udt := .float8, notNull := true
      default := some (.constant (.real 1)) },
    { name := "allow_parallel", udt := .bool, notNull := true
      default := some (.constant (.bool false)) },
    { name := "timeout_seconds", udt := .int4 },
    { name := "worker_pid", udt := .int4 },
    { name := "child_pid", udt := .int4 },
    { name := "job_name", udt := .varchar, limit := some 255 },
    { name := "tags", udt := .json, notNull := true
      default := some (.constant (.json (.arr []))) },
    { name := "retry_intervals", udt := .json },
    { name := "meta", udt := .json },
    { name := "dependencies", udt := .json, notNull := true
      default := some (.constant (.json (.arr []))) },
    { name := "on_success_path", udt := .varchar, limit := some 500
      notNull := true, default := some (.constant (.text "")) },
    { name := "on_failure_path", udt := .varchar, limit := some 500
      notNull := true, default := some (.constant (.text "")) },
    { name := "ttl", udt := .int4 },
    { name := "result_ttl", udt := .int4 },
    { name := "failure_ttl", udt := .int4 },
    { name := "version", udt := .int4, notNull := true
      default := some (.constant (.int 0)) },
    { name := "runs", udt := .json, notNull := true
      default := some (.constant (.json (.arr []))) },
    { name := "scheduled_task_id", udt := .int4 },
    { name := "worker_id", udt := .uuid },
    { name := "scheduled_at", udt := .timestamptz },
    { name := "started_at", udt := .timestamptz },
    { name := "finished_at", udt := .timestamptz },
    { name := "duration_seconds", udt := .float8 },
    { name := "output", udt := .text, notNull := true
      default := some (.constant (.text "")) },
    { name := "error", udt := .text, notNull := true
      default := some (.constant (.text "")) },
    { name := "traceback", udt := .text, notNull := true
      default := some (.constant (.text "")) },
    { name := "termination_reason", udt := .varchar, limit := some 100
      notNull := true, default := some (.constant (.text "")) }]

/-- The row `create_job` inserts directly. -/
def directRow (spec : Spec) (id : JobId) (createdAt now : Time) : Option Row :=
  insertRow jobColumns now
    ((queuedJobValues spec id createdAt).map fun entry =>
      (entry.1, .param entry.2))

/-! ## `promote_due_scheduled_jobs` -/

/-- `_orm_column_defaults`: the field defaults of `QueuedJob` that are not
`None`. -/
def ormColumnDefaults (now : Time) : List (String × Value) :=
  [("kwargs", .data (.obj [])),
    ("queue_name", .text "default"),
    ("priority", .int 0),
    ("status", .text "queued"),
    ("retry_count", .int 0),
    ("max_retries", .int 0),
    ("retry_backoff", .real 1),
    ("allow_parallel", .bool false),
    ("tags", .data (.arr [])),
    ("dependencies", .data (.arr [])),
    ("on_success_path", .text ""),
    ("on_failure_path", .text ""),
    ("version", .int 0),
    ("runs", .data (.arr [])),
    ("created_at", .time now),
    ("output", .text ""),
    ("error", .text ""),
    ("traceback", .text ""),
    ("termination_reason", .text "")]

/-- The keyword arguments and the specification in a payload.  In a legacy
payload, which has no key `kwargs`, all of it is the arguments. -/
def unpackPayload (payload : List (String × Json)) : Json × Json :=
  match payload.lookup "kwargs" with
  | some kwargs => (kwargs, field payload "job_spec" (.obj []))
  | none => (.obj payload, .obj [])

/-- `spec.get("tags") or []`. -/
def tagsOf (spec : List (String × Json)) : Json :=
  let tags := field spec "tags" .null
  if tags.truthy then tags else .arr []

/-- The webhook settings that were staged with a job. -/
def stagedWebhooks (spec : List (String × Json)) : List (String × Value) :=
  ["webhook_url", "webhook_events", "webhook_max_retries"].filterMap fun key =>
    match field spec key .null with
    | .null => none
    | value => some (key,
        if key = "webhook_events" then .dumped value else .ofJson value)

/-- `staged`: the values of the live row.  A `job_spec` that is not a dict
raises. -/
def stagedValues (row : ScheduledJob) : Option (List (String × Value)) :=
  match unpackPayload row.payload with
  | (kwargs, .obj spec) => some
      ([("id", .int row.id),
        ("queue_name", .text row.queueName),
        ("task_path", .text row.taskPath),
        ("kwargs", .dumped kwargs),
        ("scheduled_at", .time row.scheduledAt),
        ("priority", .int row.priority),
        ("max_retries", .int row.maxRetries),
        ("status", .text "queued"),
        ("version", .int 0),
        ("retry_count", .ofJson (field spec "retry_count" (.int 0))),
        ("retry_backoff", .ofJson (field spec "retry_backoff" (.real 1))),
        ("allow_parallel", .ofJson (field spec "allow_parallel" (.bool false))),
        ("timeout_seconds", .ofJson (field spec "timeout_seconds" .null)),
        ("scheduled_task_id", .ofJson (field spec "scheduled_task_id" .null)),
        ("job_name", .ofJson (field spec "job_name" .null)),
        ("retry_intervals",
          .dumpsUnlessNone (field spec "retry_intervals" .null)),
        ("meta", .dumpsUnlessNone (field spec "meta" .null)),
        ("dependencies", .dumped (field spec "dependencies" (.arr []))),
        ("on_success_path", .ofJson (field spec "on_success_path" (.str ""))),
        ("on_failure_path", .ofJson (field spec "on_failure_path" (.str ""))),
        ("ttl", .ofJson (field spec "ttl" .null)),
        ("result_ttl", .ofJson (field spec "result_ttl" .null)),
        ("failure_ttl", .ofJson (field spec "failure_ttl" .null)),
        ("parent_job_id", .ofJson (field spec "parent_job_id" .null)),
        ("tags", .dumped (tagsOf spec)),
        ("created_at", .time row.createdAt)] ++ stagedWebhooks spec)
  | _ => none

/-- A default of a JSON column is dumped unless it is a string. -/
def dumpDefault (column : Column) : Value → Value
  | .data value => if column.udt.isJson then .dumped value else .data value
  | value => value

/-- `_NEUTRAL_BY_TYPE` and the two cases beside it. -/
def neutral : Udt → Option Part
  | .json | .jsonb => some (.param (.dumped (.arr [])))
  | .int2 | .int4 | .int8 | .numeric | .float4 | .float8 =>
      some (.param (.int 0))
  | .bool => some (.param (.bool false))
  | .text | .varchar | .bpchar => some (.param (.text ""))
  | .timestamptz | .timestamp => some .now
  | .uuid => none

/-- What the promotion says of one column, if it says anything. -/
def promotionPart (staged defaults : List (String × Value))
    (column : Column) : Option Part :=
  match staged.lookup column.name with
  | some value => some (.param value)
  | none =>
      match defaults.lookup column.name with
      | some value => some (.param (dumpDefault column value))
      | none =>
          if column.notNull && column.default.isNone then neutral column.udt
          else none

/-- `_promotion_insert_parts`. -/
def promotionInsertParts (targetColumns : List Column)
    (staged defaults : List (String × Value)) : List (String × Part) :=
  targetColumns.filterMap fun column =>
    (promotionPart staged defaults column).map fun part => (column.name, part)

/-- The live row a staging row is promoted to. -/
def promotedRow (targetColumns : List Column)
    (defaults : List (String × Value)) (now : Time) (row : ScheduledJob) :
    Option Row := do
  let staged ← stagedValues row
  insertRow targetColumns now
    (promotionInsertParts targetColumns staged defaults)

end Sqlery.Staging
