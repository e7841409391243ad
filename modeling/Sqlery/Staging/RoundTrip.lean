import Sqlery.Staging.Promotion

/-!
# The two ways to a live row agree

What `promote_due_scheduled_jobs` unpacks from the payload is what
`create_job` packed into it, and a column that the payload lacks gets what the
flush of a new job writes.
-/

namespace Sqlery.Staging

/-! ## One column at a time -/

section Parts

variable {staged defaults : List (String × Value)}

theorem lookup_map {α β : Type} (encode : α → β) (name : String)
    (entries : List (String × α)) :
    (entries.map fun entry => (entry.1, encode entry.2)).lookup name =
      (entries.lookup name).map encode := by
  induction entries with
  | nil => rfl
  | cons entry entries ih =>
      obtain ⟨key, value⟩ := entry
      simp only [List.map_cons, List.lookup_cons]
      by_cases same : name == key
      · simp [same]
      · simp [same, ih]

theorem names_of_promotion {columns : List Column} {part : String × Part}
    (member : part ∈ promotionInsertParts columns staged defaults) :
    ∃ column ∈ columns, column.name = part.1 := by
  obtain ⟨column, isColumn, built⟩ := List.mem_filterMap.mp member
  obtain ⟨found, _, rfl⟩ := Option.map_eq_some_iff.mp built
  exact ⟨column, isColumn, rfl⟩

/-- An `INSERT` says of each column what the promotion says of it. -/
theorem lookup_promotion {columns : List Column}
    (once : (columns.map Column.name).Nodup) {column : Column}
    (member : column ∈ columns) :
    (promotionInsertParts columns staged defaults).lookup column.name =
      promotionPart staged defaults column := by
  induction columns with
  | nil => cases member
  | cons head columns ih =>
      rw [List.map_cons, List.nodup_cons] at once
      have absent : ∀ name, name ∉ columns.map Column.name →
          (promotionInsertParts columns staged defaults).lookup name =
            none := by
        intro name missing
        rw [List.lookup_eq_none_iff]
        intro part isPart
        obtain ⟨other, isOther, named⟩ := names_of_promotion isPart
        have different : name ≠ part.1 := by
          intro same
          exact missing (List.mem_map.mpr ⟨other, isOther, by rw [named, same]⟩)
        simpa using different
      rcases List.mem_cons.mp member with rfl | later
      · cases said : promotionPart staged defaults column with
        | none =>
            have skips : promotionInsertParts (column :: columns) staged
                defaults = promotionInsertParts columns staged defaults := by
              simp [promotionInsertParts, said]
            rw [skips]
            exact absent column.name once.1
        | some part =>
            simp [promotionInsertParts, said]
      · have different : column.name ≠ head.name := by
          intro same
          exact once.1 (same ▸ List.mem_map_of_mem later)
        have rest := ih once.2 later
        cases said : promotionPart staged defaults head with
        | none =>
            rw [← rest]
            simp [promotionInsertParts, said]
        | some part =>
            rw [← rest]
            have skips : (column.name == head.name) = false :=
              beq_eq_false_iff_ne.mpr different
            simp only [promotionInsertParts, List.filterMap_cons, said,
              Option.map_some, List.lookup_cons, skips]

end Parts

/-! ## The staged values -/

/-- The values that come back out of the payload of a specification. -/
def unpackedValues (spec : Spec) (due : Time) (id : JobId)
    (createdAt : Time) : List (String × Value) :=
  [("id", .int id),
    ("queue_name", .text spec.queueName),
    ("task_path", .text spec.taskPath),
    ("kwargs", .dumped (.obj spec.kwargs)),
    ("scheduled_at", .time due),
    ("priority", .int spec.priority),
    ("max_retries", .int spec.maxRetries),
    ("status", .text "queued"),
    ("version", .int 0),
    ("retry_count", .int (spec.retryCount.getD 0)),
    ("retry_backoff", .real spec.retryBackoff),
    ("allow_parallel", .bool spec.allowParallel),
    ("timeout_seconds", intValue spec.timeoutSeconds),
    ("scheduled_task_id", intValue spec.scheduledTaskId),
    ("job_name", textValue spec.jobName),
    ("retry_intervals",
      .dumpsUnlessNone (Json.ofOption .arr spec.retryIntervals)),
    ("meta", .dumpsUnlessNone (Json.ofOption .obj spec.metadata)),
    ("dependencies", .dumped (.arr (spec.dependencies.getD []))),
    ("on_success_path", .text spec.onSuccessPath),
    ("on_failure_path", .text spec.onFailurePath),
    ("ttl", intValue spec.ttl),
    ("result_ttl", intValue spec.resultTtl),
    ("failure_ttl", intValue spec.failureTtl),
    ("parent_job_id", intValue spec.parentJobId),
    ("tags", .dumped (.arr (spec.tags.getD []))),
    ("created_at", .time createdAt)]

theorem ofJson_int (value : Option Int) :
    Value.ofJson (intJson value) = intValue value := by
  cases value <;> rfl

theorem ofJson_text (value : Option String) :
    Value.ofJson (Json.ofOption .str value) = textValue value := by
  cases value <;> rfl

theorem tagsOf_jobSpec (spec : Spec) :
    tagsOf (jobSpec spec) = .arr (spec.tags.getD []) := by
  have found : field (jobSpec spec) "tags" .null =
      .arr (spec.tags.getD []) := rfl
  unfold tagsOf
  rw [found]
  cases spec.tags.getD [] with
  | nil => rfl
  | cons tag tags => rfl

theorem stagedWebhooks_jobSpec (spec : Spec) :
    stagedWebhooks (jobSpec spec) = [] := rfl

/-- What `create_job` packs comes back out. -/
theorem stagedValues_scheduledJob (spec : Spec) (due : Time) (id : JobId)
    (createdAt : Time) :
    stagedValues (scheduledJob spec due id createdAt) =
      some (unpackedValues spec due id createdAt) := by
  have unpacked : unpackPayload (fullPayload spec) =
      (.obj spec.kwargs, .obj (jobSpec spec)) := rfl
  have retryCount : field (jobSpec spec) "retry_count" (.int 0) =
      .int (spec.retryCount.getD 0) := rfl
  have retryBackoff : field (jobSpec spec) "retry_backoff" (.real 1) =
      .real spec.retryBackoff := rfl
  have allowParallel : field (jobSpec spec) "allow_parallel" (.bool false) =
      .bool spec.allowParallel := rfl
  have timeoutSeconds : field (jobSpec spec) "timeout_seconds" .null =
      intJson spec.timeoutSeconds := rfl
  have scheduledTaskId : field (jobSpec spec) "scheduled_task_id" .null =
      intJson spec.scheduledTaskId := rfl
  have jobName : field (jobSpec spec) "job_name" .null =
      Json.ofOption .str spec.jobName := rfl
  have retryIntervals : field (jobSpec spec) "retry_intervals" .null =
      Json.ofOption .arr spec.retryIntervals := rfl
  have metadata : field (jobSpec spec) "meta" .null =
      Json.ofOption .obj spec.metadata := rfl
  have dependencies : field (jobSpec spec) "dependencies" (.arr []) =
      .arr (spec.dependencies.getD []) := rfl
  have onSuccessPath : field (jobSpec spec) "on_success_path" (.str "") =
      .str spec.onSuccessPath := rfl
  have onFailurePath : field (jobSpec spec) "on_failure_path" (.str "") =
      .str spec.onFailurePath := rfl
  have ttl : field (jobSpec spec) "ttl" .null = intJson spec.ttl := rfl
  have resultTtl : field (jobSpec spec) "result_ttl" .null =
      intJson spec.resultTtl := rfl
  have failureTtl : field (jobSpec spec) "failure_ttl" .null =
      intJson spec.failureTtl := rfl
  have parentJobId : field (jobSpec spec) "parent_job_id" .null =
      intJson spec.parentJobId := rfl
  simp only [stagedValues, scheduledJob, unpacked, retryCount, retryBackoff,
    allowParallel, timeoutSeconds, scheduledTaskId, jobName, retryIntervals,
    metadata, dependencies, onSuccessPath, onFailurePath, ttl, resultTtl,
    failureTtl, parentJobId, tagsOf_jobSpec, stagedWebhooks_jobSpec,
    ofJson_int, ofJson_text, List.append_nil]
  rfl

/-! ## The two rows -/

/-- Some of the ORM's defaults: reading them can fail half-way. -/
def SomeDefaults (defaults : List (String × Value)) (now : Time) : Prop :=
  ∀ name value, defaults.lookup name = some value →
    (ormColumnDefaults now).lookup name = some value

theorem jobColumns_once : (jobColumns.map Column.name).Nodup := by
  decide +kernel

section Unstaged

variable {staged defaults : List (String × Value)} {now : Time}
variable {column : Column}

/-- A nullable column that the payload lacks and that has no default. -/
theorem unset_agrees (partly : SomeDefaults defaults now)
    (absent : staged.lookup column.name = none)
    (plain : (ormColumnDefaults now).lookup column.name = none)
    (nullable : column.notNull = false) (bare : column.default = none) :
    column.fill now (promotionPart staged defaults column) =
      column.fill now (some (.param .none)) := by
  have missing : defaults.lookup column.name = none := by
    cases found : defaults.lookup column.name with
    | none => rfl
    | some value =>
        rw [partly _ _ found] at plain
        cases plain
  have silent : promotionPart staged defaults column = none := by
    simp [promotionPart, absent, missing, nullable]
  rw [silent]
  simp [Column.fill, Column.given, Column.accept, bare]

/-- A column that the payload lacks and whose default in the ORM is that of the
database. -/
theorem default_agrees {value written : Value} {cell : Cell}
    (partly : SomeDefaults defaults now)
    (absent : staged.lookup column.name = none)
    (orm : (ormColumnDefaults now).lookup column.name = some value)
    (isDefault : column.default = some (.constant cell))
    (dumps : dumpDefault column value = written)
    (accepts : column.accept written = some cell) :
    column.fill now (promotionPart staged defaults column) =
      column.fill now (some (.param written)) := by
  cases found : defaults.lookup column.name with
  | none =>
      have silent : promotionPart staged defaults column = none := by
        simp [promotionPart, absent, found, isDefault]
      rw [silent]
      simp only [Column.fill, Column.given, isDefault, accepts]
  | some other =>
      have same : other = value := by
        have known := partly _ _ found
        rw [orm] at known
        exact (Option.some.inj known).symm
      have said : promotionPart staged defaults column =
          some (.param written) := by
        simp [promotionPart, absent, found, same, dumps]
      rw [said]

end Unstaged

/-- A column of the promoted row reads as that of the direct row. -/
theorem column_agrees {defaults : List (String × Value)} {now : Time}
    (partly : SomeDefaults defaults now) (spec : Spec) (due : Time)
    (isDue : spec.scheduledAt = some due) (id : JobId) (createdAt : Time)
    {column : Column} (member : column ∈ jobColumns) :
    (column.fill now (promotionPart (unpackedValues spec due id createdAt)
        defaults column)).map Cell.asRead =
      (column.fill now (((queuedJobValues spec id createdAt).lookup
        column.name).map Part.param)).map Cell.asRead := by
  unfold jobColumns at member
  simp only [List.mem_cons, List.not_mem_nil, or_false] at member
  rcases member with rfl | rfl | rfl | rfl | rfl | rfl | rfl | rfl | rfl |
    rfl | rfl | rfl | rfl | rfl | rfl | rfl | rfl | rfl | rfl | rfl | rfl |
    rfl | rfl | rfl | rfl | rfl | rfl | rfl | rfl | rfl | rfl | rfl | rfl |
    rfl | rfl | rfl | rfl
  -- the columns that both ways write from the same argument
  all_goals try rfl
  -- the columns that the payload lacks
  all_goals try exact congrArg _ (unset_agrees partly rfl rfl rfl rfl)
  all_goals try exact congrArg _ (default_agrees partly rfl rfl rfl rfl rfl)
  · show ((Column.fill _ now (some (.param (.dumpsUnlessNone
      (Json.ofOption .arr spec.retryIntervals))))).map Cell.asRead) =
      ((Column.fill _ now (some (.param (.dumped
        (Json.ofOption .arr spec.retryIntervals))))).map Cell.asRead)
    cases spec.retryIntervals <;> rfl
  · show ((Column.fill _ now (some (.param (.dumpsUnlessNone
      (Json.ofOption .obj spec.metadata))))).map Cell.asRead) =
      ((Column.fill _ now (some (.param (.dumped
        (Json.ofOption .obj spec.metadata))))).map Cell.asRead)
    cases spec.metadata <;> rfl
  · show ((Column.fill _ now (some (.param (.time due)))).map Cell.asRead) =
      ((Column.fill _ now (some (.param
        (timeValue spec.scheduledAt)))).map Cell.asRead)
    rw [isDue]
    rfl

theorem names_of_queuedJobValues (spec : Spec) (id : JobId)
    (createdAt : Time) {part : String × Part}
    (member : part ∈ (queuedJobValues spec id createdAt).map fun entry =>
      (entry.1, Part.param entry.2)) :
    ∃ column ∈ jobColumns, column.name = part.1 := by
  have named : part.1 ∈ (queuedJobValues spec id createdAt).map Prod.fst := by
    obtain ⟨entry, isEntry, rfl⟩ := List.mem_map.mp member
    exact List.mem_map_of_mem isEntry
  have inTable : ∀ name ∈ (queuedJobValues spec id createdAt).map Prod.fst,
      name ∈ jobColumns.map Column.name := by
    have names : (queuedJobValues spec id createdAt).map Prod.fst =
        (queuedJobValues
          { taskPath := "", kwargs := [], queueName := "", priority := 0
            scheduledAt := none, maxRetries := 0, retryBackoff := 0
            allowParallel := false, timeoutSeconds := none } 0 0).map
          Prod.fst := rfl
    rw [names]
    decide +kernel
  exact List.mem_map.mp (inTable part.1 named)

/-- The row a job far in the future is promoted to reads as the row that
`create_job` would have inserted for it, and the database refuses the one if
it refuses the other. -/
theorem promotedRow_scheduledJob {defaults : List (String × Value)}
    {now : Time} (partly : SomeDefaults defaults now) (spec : Spec)
    (due : Time) (isDue : spec.scheduledAt = some due) (id : JobId)
    (createdAt : Time) :
    (promotedRow jobColumns defaults now
        (scheduledJob spec due id createdAt)).map Row.asRead =
      (directRow spec id createdAt now).map Row.asRead := by
  have built : promotedRow jobColumns defaults now
      (scheduledJob spec due id createdAt) =
        insertRow jobColumns now (promotionInsertParts jobColumns
          (unpackedValues spec due id createdAt) defaults) := by
    simp only [promotedRow, stagedValues_scheduledJob]
    rfl
  rw [built]
  apply insertRow_asRead
  · intro part member
    exact names_of_promotion member
  · intro part member
    exact names_of_queuedJobValues spec id createdAt member
  · intro column member
    rw [lookup_promotion jobColumns_once member, lookup_map]
    exact column_agrees partly spec due isDue id createdAt member

end Sqlery.Staging
