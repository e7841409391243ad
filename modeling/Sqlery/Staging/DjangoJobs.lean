import Sqlery.Staging.RoundTrip

/-!
# Rows of the Django backend

Django's `create_job` takes three webhook settings more than the standalone
one, and passes them on only when they are given.  Its defaults stand in the
model, not in the database: the table has none, and the promotion takes them
from the fields of the model.
-/

namespace Sqlery.Staging

/-- `webhook`: the settings that were given. -/
structure Webhook where
  url : Option String := none
  events : Option (List Json) := none
  maxRetries : Option Int := none

def Webhook.staged (webhook : Webhook) : List (String × Json) :=
  (webhook.url.map fun url => ("webhook_url", Json.str url)).toList ++
    (webhook.events.map fun events =>
      ("webhook_events", Json.arr events)).toList ++
    (webhook.maxRetries.map fun most =>
      ("webhook_max_retries", Json.int most)).toList

/-- The staging row of the Django backend. -/
def djangoScheduledJob (spec : Spec) (webhook : Webhook) (due : Time)
    (id : JobId) (createdAt : Time) : ScheduledJob :=
  { scheduledJob spec due id createdAt with
    payload :=
      [("kwargs", .obj spec.kwargs),
        ("job_spec", .obj (jobSpec spec ++ webhook.staged))] }

/-- `NULL` for `None`, as a `JSONField` writes it. -/
def jsonValue (encode : α → Json) : Option α → Value
  | none => .none
  | some value => .dumped (encode value)

/-- What `QueuedJob.objects.create` writes: its arguments and the defaults of
the fields. -/
def djangoJobValues (spec : Spec) (webhook : Webhook) (runs : List Json)
    (id : JobId) (createdAt : Time) : List (String × Value) :=
  [("id", .int id),
    ("task_path", .text spec.taskPath),
    ("kwargs", .dumped (.obj spec.kwargs)),
    ("queue_name", .text spec.queueName),
    ("priority", .int spec.priority),
    ("status", .text "queued"),
    ("version", .int 0),
    ("parent_job_id", intValue spec.parentJobId),
    ("retry_count", .int (spec.retryCount.getD 0)),
    ("max_retries", .int spec.maxRetries),
    ("retry_backoff", .real spec.retryBackoff),
    ("allow_parallel", .bool spec.allowParallel),
    ("tags", .dumped (.arr (spec.tags.getD []))),
    ("dependencies", .dumped (.arr (spec.dependencies.getD []))),
    ("webhook_url", textValue webhook.url),
    ("webhook_events", .dumped (.arr (webhook.events.getD []))),
    ("webhook_status", .none),
    ("webhook_retries", .int 0),
    ("webhook_max_retries", .int (webhook.maxRetries.getD 3)),
    ("timeout_seconds", intValue spec.timeoutSeconds),
    ("worker_pid", .none),
    ("child_pid", .none),
    ("runs", .dumped (.arr runs)),
    ("meta", jsonValue .obj spec.metadata),
    ("job_name", textValue spec.jobName),
    ("retry_intervals", jsonValue .arr spec.retryIntervals),
    ("on_success_path", .text spec.onSuccessPath),
    ("on_failure_path", .text spec.onFailurePath),
    ("ttl", intValue spec.ttl),
    ("result_ttl", intValue spec.resultTtl),
    ("failure_ttl", intValue spec.failureTtl),
    ("scheduled_task_id", intValue spec.scheduledTaskId),
    ("worker_id", .none),
    ("created_at", .time createdAt),
    ("scheduled_at", timeValue spec.scheduledAt),
    ("started_at", .none),
    ("finished_at", .none),
    ("duration_seconds", .none),
    ("output", .text ""),
    ("error", .text ""),
    ("traceback", .text ""),
    ("termination_reason", .text "")]

/-- The table of live jobs after the migrations. -/
def djangoJobColumns : List Column :=
  [{ name := "id", udt := .int8, notNull := true },
    { name := "task_path", udt := .varchar, limit := some 500
      notNull := true },
    { name := "kwargs", udt := .jsonb, notNull := true },
    { name := "queue_name", udt := .varchar, limit := some 50
      notNull := true },
    { name := "priority", udt := .int4, notNull := true },
    { name := "status", udt := .varchar, limit := some 20, notNull := true },
    { name := "version", udt := .int4, notNull := true },
    { name := "parent_job_id", udt := .int8 },
    { name := "retry_count", udt := .int4, notNull := true },
    { name := "max_retries", udt := .int4, notNull := true },
    { name := "retry_backoff", udt := .float8, notNull := true },
    { name := "allow_parallel", udt := .bool, notNull := true },
    { name := "tags", udt := .jsonb, notNull := true },
    { name := "dependencies", udt := .jsonb, notNull := true },
    { name := "webhook_url", udt := .varchar, limit := some 500 },
    { name := "webhook_events", udt := .jsonb, notNull := true },
    { name := "webhook_status", udt := .varchar, limit := some 20 },
    { name := "webhook_retries", udt := .int4, notNull := true },
    { name := "webhook_max_retries", udt := .int4, notNull := true },
    { name := "timeout_seconds", udt := .int4 },
    { name := "worker_pid", udt := .int4 },
    { name := "child_pid", udt := .int4 },
    { name := "runs", udt := .jsonb, notNull := true },
    { name := "meta", udt := .jsonb },
    { name := "job_name", udt := .varchar, limit := some 255 },
    { name := "retry_intervals", udt := .jsonb },
    { name := "on_success_path", udt := .varchar, limit := some 500
      notNull := true },
    { name := "on_failure_path", udt := .varchar, limit := some 500
      notNull := true },
    { name := "ttl", udt := .int4 },
    { name := "result_ttl", udt := .int4 },
    { name := "failure_ttl", udt := .int4 },
    { name := "scheduled_task_id", udt := .int8 },
    { name := "worker_id", udt := .uuid },
    { name := "created_at", udt := .timestamptz, notNull := true },
    { name := "scheduled_at", udt := .timestamptz },
    { name := "started_at", udt := .timestamptz },
    { name := "finished_at", udt := .timestamptz },
    { name := "duration_seconds", udt := .float8 },
    { name := "output", udt := .text, notNull := true },
    { name := "error", udt := .text, notNull := true },
    { name := "traceback", udt := .text, notNull := true },
    { name := "termination_reason", udt := .varchar, limit := some 100
      notNull := true }]

/-- `_orm_column_defaults` of the Django model. -/
def djangoColumnDefaults (now : Time) : List (String × Value) :=
  [("kwargs", .data (.obj [])),
    ("queue_name", .text "default"),
    ("priority", .int 0),
    ("status", .text "queued"),
    ("version", .int 0),
    ("retry_count", .int 0),
    ("max_retries", .int 0),
    ("retry_backoff", .real 1),
    ("allow_parallel", .bool false),
    ("tags", .data (.arr [])),
    ("dependencies", .data (.arr [])),
    ("webhook_events", .data (.arr [])),
    ("webhook_retries", .int 0),
    ("webhook_max_retries", .int 3),
    ("runs", .data (.arr [])),
    ("on_success_path", .text ""),
    ("on_failure_path", .text ""),
    ("created_at", .time now),
    ("output", .text ""),
    ("error", .text ""),
    ("traceback", .text ""),
    ("termination_reason", .text "")]

/-- The row that is inserted directly. -/
def djangoDirectRow (spec : Spec) (webhook : Webhook) (runs : List Json)
    (id : JobId) (createdAt now : Time) : Option Row :=
  insertRow djangoJobColumns now
    ((djangoJobValues spec webhook runs id createdAt).map fun entry =>
      (entry.1, .param entry.2))

theorem djangoJobColumns_once : (djangoJobColumns.map Column.name).Nodup := by
  decide +kernel

/-! ## What a row says of a column -/

/-- The cell a parameter becomes, if it is accepted. -/
def Column.cellOf (column : Column) : Value → Cell
  | .none => .null
  | .bool value => .bool value
  | .int value =>
      match column.udt with
      | .numeric | .float4 | .float8 => .real value
      | _ => .int value
  | .real value => .real value
  | .text value => .text value
  | .time value => .time value
  | .data value => .json value
  | .dumped value => .json value

theorem Column.accept_cellOf {column : Column} {value : Value} {cell : Cell}
    (accepted : column.accept value = some cell) :
    cell = column.cellOf value := by
  cases value with
  | none => exact (Option.some.inj accepted).symm
  | bool value =>
      simp only [Column.accept] at accepted
      split at accepted
      · exact (Option.some.inj accepted).symm
      · cases accepted
  | int value =>
      obtain ⟨name, udt, limit, notNull, default⟩ := column
      simp only [Column.accept] at accepted
      cases udt <;> simp only at accepted
      case int2 | int4 | int8 =>
        split at accepted
        · exact (Option.some.inj accepted).symm
        · cases accepted
      case numeric | float4 | float8 => exact (Option.some.inj accepted).symm
      all_goals cases accepted
  | real value =>
      simp only [Column.accept] at accepted
      split at accepted
      all_goals first
        | exact (Option.some.inj accepted).symm
        | cases accepted
  | text value =>
      simp only [Column.accept] at accepted
      split at accepted
      · split at accepted
        · exact (Option.some.inj accepted).symm
        · cases accepted
      · split at accepted
        · exact (Option.some.inj accepted).symm
        · cases accepted
      · split at accepted
        · exact (Option.some.inj accepted).symm
        · cases accepted
      · cases accepted
  | time value =>
      simp only [Column.accept] at accepted
      split at accepted
      all_goals first
        | exact (Option.some.inj accepted).symm
        | cases accepted
  | data value => cases accepted
  | dumped value =>
      simp only [Column.accept] at accepted
      split at accepted
      · exact (Option.some.inj accepted).symm
      · cases accepted

/-- An inserted row has in each column the cell that fills it. -/
theorem cell_of_insertRow {columns : List Column} {now : Time}
    {parts : List (String × Part)} {row : Row} {column : Column}
    {name : String} (inserted : insertRow columns now parts = some row)
    (isColumn : (columns.find? fun column => column.name = name) =
      some column) :
    column.fill now (parts.lookup name) = some (row.cell name) := by
  unfold insertRow at inserted
  split at inserted
  · rename_i known
    clear known
    induction columns generalizing row with
    | nil => cases isColumn
    | cons head columns ih =>
        rw [List.mapM_cons] at inserted
        obtain ⟨entry, filled, rest⟩ := Option.bind_eq_some_iff.mp inserted
        obtain ⟨others, isOthers, same⟩ := Option.bind_eq_some_iff.mp rest
        cases same
        obtain ⟨cell, isCell, rfl⟩ := Option.map_eq_some_iff.mp filled
        rw [List.find?_cons] at isColumn
        by_cases named : head.name = name
        · simp only [named, decide_true] at isColumn
          cases isColumn
          rw [named] at isCell
          rw [isCell]
          simp [Row.cell, named]
        · simp only [named, decide_false] at isColumn
          have skips : (name == head.name) = false :=
            beq_eq_false_iff_ne.mpr fun same => named same.symm
          have there := ih isColumn isOthers
          simpa [Row.cell, List.lookup_cons, skips] using there
  · cases inserted

theorem cell_of_param {columns : List Column} {now : Time}
    {parts : List (String × Part)} {row : Row} {column : Column}
    {name : String} {value : Value}
    (inserted : insertRow columns now parts = some row)
    (isColumn : (columns.find? fun column => column.name = name) =
      some column)
    (given : parts.lookup name = some (.param value)) :
    row.cell name = column.cellOf value := by
  have filled := cell_of_insertRow inserted isColumn
  rw [given] at filled
  obtain ⟨accepted, _⟩ := Option.filter_eq_some_iff.mp filled
  exact Column.accept_cellOf accepted

section Promoted

variable {columns : List Column} {now : Time} {row : Row} {column : Column}
variable {staged defaults : List (String × Value)} {name : String}

theorem cell_of_promotion {value : Value}
    (once : (columns.map Column.name).Nodup)
    (inserted : insertRow columns now
      (promotionInsertParts columns staged defaults) = some row)
    (isColumn : (columns.find? fun column => column.name = name) =
      some column)
    (given : promotionPart staged defaults column = some (.param value)) :
    row.cell name = column.cellOf value := by
  have member := List.mem_of_find?_eq_some isColumn
  have named : column.name = name := by
    simpa using List.find?_some isColumn
  apply cell_of_param inserted isColumn
  rw [← named, lookup_promotion once member]
  exact given

/-- A column of which nothing is said, without a default. -/
theorem cell_of_silence (once : (columns.map Column.name).Nodup)
    (inserted : insertRow columns now
      (promotionInsertParts columns staged defaults) = some row)
    (isColumn : (columns.find? fun column => column.name = name) =
      some column)
    (silent : promotionPart staged defaults column = none)
    (bare : column.default = none) :
    row.cell name = .null := by
  have member := List.mem_of_find?_eq_some isColumn
  have named : column.name = name := by
    simpa using List.find?_some isColumn
  have filled := cell_of_insertRow inserted isColumn
  rw [← named, lookup_promotion once member, silent] at filled
  obtain ⟨given, _⟩ := Option.filter_eq_some_iff.mp filled
  simp only [Column.given, bare] at given
  rw [← named]
  exact (Option.some.inj given).symm

end Promoted

end Sqlery.Staging
