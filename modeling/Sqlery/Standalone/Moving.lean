import Sqlery.Standalone.Closing

/-!
# Moving a row into history

`_finish_in` locks the live row, inserts its history row, deletes the live row
and closes what is left open of the job.  The row counts of the two statements
decide: unless both are one, the transaction is given up.
-/

namespace Sqlery.Standalone

open ReadCommitted
open Setting (stable_and stable_exists stable_fact stable_when)
open Script

section Locks

variable {cfg : Config} {call : Call} {record : Record} {txn : Txn}

/-- The committed row of a job whose lock is held. -/
def Locked (cfg : Config) (job : JobId) (row : Option Job) (db : Db)
    (state : Loc) : Prop :=
  Owns cfg.dialect state (.live job) ∧ db.live.get job = row

/-- A job without an open attempt, whose lock is held. -/
def Idle (cfg : Config) (job : JobId) (db : Db) (state : Loc) : Prop :=
  Owns cfg.dialect state (.live job) ∧ db.hasOpenAttempt job = false

theorem locked_stable (job : JobId) (row : Option Job) :
    (backend cfg).Stable (Locked cfg job row) := by
  apply stable_of
  · intro db mine theirs other stage _ _ guarded _ _ apart holds
    refine ⟨holds.1, ?_⟩
    rw [live_kept guarded apart holds.1]
    exact holds.2
  · intro db next mine same holds
    exact ⟨holds.1, same.live ▸ holds.2⟩

theorem idle_stable (job : JobId) :
    (backend cfg).Stable (Idle cfg job) := by
  apply stable_of
  · intro db mine theirs other stage _ _ _ others _ apart holds
    exact ⟨holds.1, idle_kept others apart holds.1 holds.2⟩
  · intro db next mine same holds
    refine ⟨holds.1, ?_⟩
    rw [Db.hasOpenAttempt, same.attempts]
    exact holds.2

/-- The newest attempt of a job whose lock is held. -/
def Newest (cfg : Config) (job : JobId) (newest : Option Attempt) (db : Db)
    (state : Loc) : Prop :=
  Owns cfg.dialect state (.live job) ∧ db.newestOpening job = newest

theorem newest_stable (job : JobId) (newest : Option Attempt) :
    (backend cfg).Stable (Newest cfg job newest) := by
  apply stable_of
  · intro db mine theirs other stage _ _ _ others _ apart holds
    exact ⟨holds.1,
      (newestOpening_kept others apart holds.1).trans holds.2⟩
  · intro db next mine same holds
    exact ⟨holds.1, (same.newestOpening job).trans holds.2⟩

/-- The lock a move takes before it writes; SQLite has none to take. -/
def moveLock (cfg : Config) (job : JobId) : List Lock :=
  match cfg.dialect with
  | .postgresql => [.live job]
  | .sqlite => []

theorem owns_of_moveLock {state : Loc} {job : JobId}
    (isPostgres : cfg.dialect = .postgresql)
    (locked : ∀ lock ∈ moveLock cfg job, lock ∈ state.held) :
    Owns cfg.dialect state (.live job) := by
  rw [Owns, isPostgres]
  apply locked
  simp [moveLock, isPostgres, lockOf]

/-- A write takes the lock of every row on SQLite. -/
theorem owns_of_writer {state : Loc} (row : Lock)
    (isSqlite : cfg.dialect = .sqlite)
    (held : ∀ lock ∈ writerLock cfg.dialect, lock ∈ state.held) :
    Owns cfg.dialect state row := by
  rw [Owns, isSqlite]
  apply held
  simp [writerLock, isSqlite, lockOf]

theorem admits_id {fence : MoveFence} {db : Db} {row : Job}
    (isAdmitted : fence.admits db row = true) : row.id = fence.jobId := by
  simp only [MoveFence.admits, Bool.and_eq_true, decide_eq_true_eq]
    at isAdmitted
  exact isAdmitted.1.1.1.1

/-- Either nothing is locked, or the row of the job is. -/
theorem lockForMove_spec {fence : MoveFence} {fails : Db → Loc → Prop} :
    (backend cfg).Spec call (At cfg call record txn) (lockForMove cfg fence)
      (fun rows db state =>
        (rows = [] → At cfg call record txn db state) ∧
          (rows ≠ [] → At cfg call record
            { txn with locks := txn.locks ++ moveLock cfg fence.jobId }
            db state)) fails := by
  have stable : ∀ rows : List Job, (backend cfg).Stable fun db state =>
      (rows = [] → At cfg call record txn db state) ∧
        (rows ≠ [] → At cfg call record
          { txn with locks := txn.locks ++ moveLock cfg fence.jobId }
          db state) := fun rows =>
    stable_and (stable_when at_stable) (stable_when at_stable)
  unfold lockForMove
  cases isDialect : cfg.dialect with
  | postgresql =>
      refine .exec at_stable stable ?_
      intro snapshot current state others effect _ _ _ _ _ holds ran
      cases ran
      refine ⟨by simp [backend], ?_⟩
      have lawful : ∀ locks, Lawful cfg.dialect call txn.stage current
          (state.extend [] locks) := fun locks =>
        holds.lawful.extendSame (plain_additions holds.lawful (by simp))
          (by simp)
      constructor
      · intro _
        exact holds.extend (lawful _) (fun _ isKind => isKind) (by simp)
          (by simp) (fun _ member => Or.inl member)
          fun _ member => Or.inl member
      · intro found
        refine holds.extend (lawful _) (fun _ isKind => isKind) (by simp)
          (by simp) (fun _ member => Or.inl member) ?_
        intro lock member
        rcases List.mem_append.mp member with old | new
        · exact Or.inl old
        · refine Or.inr (List.mem_append_left _ ?_)
          obtain ⟨row, isRow⟩ := List.exists_mem_of_ne_nil _ found
          have isJob := admits_id (mem_targets_iff.mp isRow).2.1
          simp only [moveLock, isDialect, List.mem_singleton] at new
          rw [new, ← isJob]
          exact List.mem_map_of_mem isRow
  | sqlite =>
      refine ask_spec at_stable stable ?_
      intro db state _ _ holds
      refine ⟨fun _ => holds, fun _ => ?_⟩
      simpa [moveLock, isDialect] using holds

end Locks

/-! ## The statements of a move -/

section Move

variable {cfg : Config} {call : Call} {record : Record} {txn : Txn}
variable {fence : MoveFence} {status : Status} {values : Values}
variable {now : Time}

theorem movedRow_historyRow {db : Db} {row : Job} (now : Time)
    (terminal : isTerminal status = true)
    (finishes : Finishes call db row.id status values) :
    MovedRow call db row (historyRow db row status values now) where
  id := rfl
  createdAt := rfl
  spec := rfl
  columns := ⟨values, now, finishes, rfl⟩
  version := rfl
  terminal := terminal
  finished := rfl

/-- Why a move may record a success. -/
def SucceedsBy (call : Call) (fence : MoveFence) (txn : Txn) : Prop :=
  fence.requireStatus = some [.success] ∨ call.succeedsUnfenced = true ∨
    ∃ output version handle owner time outcome,
      call = .markJobSuccess fence.jobId output version (some handle) ∧
        .closeAttempt handle.id owner time outcome ∈ txn.sure

/-- A sweep closes the attempts of the jobs it judged and no others. -/
def MayClose (cfg : Config) (call : Call) (job : JobId) (db : Db)
    (state : Loc) : Prop :=
  (call.sweeps = true → ∃ found,
    .remark (.judged job found) ∈ state.noted) ∨ Idle cfg job db state

theorem mayClose_stable (job : JobId) :
    (backend cfg).Stable (MayClose cfg call job) := by
  intro before after state env inv guarded holds
  rcases holds with judged | idle
  · exact Or.inl judged
  · exact Or.inr (idle_stable job before after state env inv guarded idle)

theorem mayClose_grows (job : JobId) : Grows (MayClose cfg call job) := by
  intro db state writes locks holds
  rcases holds with judged | idle
  · exact Or.inl judged
  · exact Or.inr ⟨List.mem_append_left _ idle.1, idle.2⟩

/-- How a move may be allowed to close stragglers: its job was judged, or the
move requires an idle job and has closed nothing itself. -/
def MovesOnly (call : Call) (record : Record) (fence : MoveFence)
    (txn : Txn) : Prop :=
  (call.sweeps = true → ∃ found,
    .remark (.judged fence.jobId found) ∈ record.marks) ∨
    (fence.requireIdle = true ∧ txn.kind = plain)

/-- What is asked of a transaction before a move. -/
structure Movable (call : Call) (record : Record) (fence : MoveFence)
    (status : Status) (values : Values) (txn : Txn) : Prop where
  fits : ∀ write, txn.kind write = true → settling write = true
  stage : txn.stage = .clean ∨ txn.stage = .owing fence.jobId
  made : txn.made = []
  terminal : isTerminal status = true
  finishes : ∀ db state, Recorded call record db state →
    Finishes call db fence.jobId status values
  succeeds : status = .success → SucceedsBy call fence txn
  closes : MovesOnly call record fence txn

theorem At.noWrite {db : Db} {state : Loc} {write : Write}
    (holds : At cfg call record txn db state)
    (fits : ∀ write, txn.kind write = true → settling write = true)
    (unfit : settling write = false) : write ∉ state.pending := by
  intro member
  rw [fits write (holds.only write member)] at unfit
  cases unfit

/-- The row a statement of the move finds is the committed one. -/
theorem live_of_basis {snapshot current : Db} {state : Loc} {row : Job}
    (here : At cfg call record txn current state)
    (fits : ∀ write, txn.kind write = true → settling write = true)
    (locked : ∀ lock ∈ moveLock cfg row.id, lock ∈ state.held)
    (inv : Inv snapshot) (guarded : Guarded (schema cfg.dialect) state)
    (env : (backend cfg).Env state.held snapshot current)
    (found : row ∈ (basis cfg.dialect (after state.pending snapshot)
      (after state.pending current)).live.rows) :
    current.live.get row.id = some row := by
  have noInsert : ∀ new, .insertLive new ∉ state.pending :=
    fun new => here.noWrite fits rfl
  have noUpdate : ∀ new, .setLive new ∉ state.pending :=
    fun new => here.noWrite fits rfl
  cases isDialect : cfg.dialect with
  | postgresql =>
      rw [isDialect] at found
      have atSnapshot := live_of_view noInsert noUpdate
        (Table.get_of_mem found)
      exact (locked_stable row.id (some row) snapshot current state env inv
        guarded ⟨owns_of_moveLock isDialect locked, atSnapshot⟩).2
  | sqlite =>
      rw [isDialect] at found
      exact live_of_view noInsert noUpdate (Table.get_of_mem found)

/-- A move gives its row the columns of the newest attempt, which is the same
where the statement looks as in the committed data. -/
theorem newest_of_basis {snapshot current : Db} {state : Loc} {job : JobId}
    (here : At cfg call record txn current state)
    (fits : ∀ write, txn.kind write = true → settling write = true)
    (locked : ∀ lock ∈ moveLock cfg job, lock ∈ state.held)
    (inv : Inv snapshot) (guarded : Guarded (schema cfg.dialect) state)
    (env : (backend cfg).Env state.held snapshot current) :
    (basis cfg.dialect (after state.pending snapshot)
      (after state.pending current)).newestOpening job =
      current.newestOpening job := by
  have unchanged : ∀ db : Db, (after state.pending db).newestOpening job =
      db.newestOpening job := by
    intro db
    apply newestOpening_after
    intro attempt inserted
    exact (here.noWrite fits rfl inserted).elim
  cases isDialect : cfg.dialect with
  | postgresql =>
      exact (unchanged snapshot).trans (newest_stable job _ snapshot current
        state env inv guarded ⟨owns_of_moveLock isDialect locked, rfl⟩).2.symm
  | sqlite => exact unchanged current

/-- A job that is idle where the statement looks is idle in the committed
data. -/
theorem idle_of_basis {snapshot current : Db} {state next : Loc} {job : JobId}
    (here : At cfg call record txn current state) (isPlain : txn.kind = plain)
    (locked : ∀ lock ∈ moveLock cfg job, lock ∈ state.held)
    (held : ∀ lock ∈ state.held, lock ∈ next.held)
    (writes : ∀ lock ∈ writerLock cfg.dialect, lock ∈ next.held)
    (inv : Inv snapshot) (guarded : Guarded (schema cfg.dialect) state)
    (env : (backend cfg).Env state.held snapshot current)
    (idle : (basis cfg.dialect (after state.pending snapshot)
      (after state.pending current)).hasOpenAttempt job = false) :
    Idle cfg job current next := by
  have noClose : ∀ id owner now outcome,
      .closeAttempt id owner now outcome ∉ state.pending := by
    intro id owner now outcome member
    have isKind := here.only _ member
    rw [isPlain] at isKind
    cases isKind
  cases isDialect : cfg.dialect with
  | postgresql =>
      rw [isDialect] at idle
      have owned := owns_of_moveLock isDialect locked
      have kept := idle_stable job snapshot current state env inv guarded
        ⟨owned, idle_of_view noClose idle⟩
      exact ⟨held _ kept.1, kept.2⟩
  | sqlite =>
      rw [isDialect] at idle
      exact ⟨owns_of_writer _ isDialect writes, idle_of_view noClose idle⟩

/-- A row the session still sees is not one it has moved. -/
theorem not_moved {db other : Db} {state : Loc} {row : Job}
    (here : At cfg call record txn db state)
    (fits : ∀ write, txn.kind write = true → settling write = true)
    (stage : txn.stage = .clean ∨ txn.stage = .owing row.id)
    (found : row ∈ (after state.pending other).live.rows) :
    ∀ moved, .insertHistory moved ∈ state.pending → moved.id ≠ row.id := by
  intro moved member same
  have deleted : .deleteLive row.id ∈ state.pending := by
    rcases (here.lawful.moved moved member).2.2 with deleted | moving
    · exact same ▸ deleted
    · rcases stage with clean | owing
      · cases clean.symm.trans moving
      · cases owing.symm.trans moving
  have absent : (after state.pending other).live.get row.id = none :=
    live_after_removed deleted (Or.inl rfl)
      fun new inserted => (here.noWrite fits rfl inserted).elim
  rw [Table.get_of_mem found] at absent
  cases absent

/-- The history row of the move is one the transaction may insert. -/
theorem history_additions {db : Db} {state : Loc} {rows : List Job}
    {locks : List Lock} (here : At cfg call record txn db state)
    (movable : Movable call record fence status values txn)
    (owned : rows ≠ [] → Owns cfg.dialect
      (state.extend (rows.map .insertHistory) locks) (.live fence.jobId))
    (same : ∀ row ∈ rows, row.id = fence.jobId ∧ row.status = status ∧
      ∀ other ∈ rows, other = row)
    (live : ∀ row ∈ rows, ∃ old, db.live.get fence.jobId = some old ∧
      MovedRow call db old row ∧
      (fence.requireStatus = some [.success] → old.status = .success))
    (fresh : ∀ row ∈ rows, ∀ moved, .insertHistory moved ∈ state.pending →
      moved.id ≠ row.id) :
    Additions cfg.dialect call (.moving fence.jobId) db state
      (rows.map .insertHistory) locks := by
  have isRow : ∀ row, .insertHistory row ∈ rows.map Write.insertHistory →
      row ∈ rows := by
    intro row member
    obtain ⟨_, isRow, same⟩ := List.mem_map.mp member
    cases same
    exact isRow
  have never : ∀ write, (∀ row, write ≠ .insertHistory row) →
      write ∉ rows.map Write.insertHistory := by
    intro write different member
    obtain ⟨row, _, rfl⟩ := List.mem_map.mp member
    exact different row rfl
  apply rewriting_additions here.lawful
  case rewrite =>
    intro write member
    obtain ⟨row, _, rfl⟩ := List.mem_map.mp member
    rfl
  case moved =>
    intro row member
    obtain ⟨isJob, _, _⟩ := same row (isRow row member)
    obtain ⟨old, found, moved, _⟩ := live row (isRow row member)
    rw [isJob]
    exact ⟨owned (List.ne_nil_of_mem (isRow row member)), ⟨old, found, moved⟩,
      rfl⟩
  case judged =>
    exact fun _ _ member => (never _ (fun _ => by simp) member).elim
  case movedOnce =>
    intro first second isFirst isSecond sameId
    rcases List.mem_append.mp isSecond with old | new
    · exact (fresh first (isRow first isFirst) second old sameId.symm).elim
    · exact (same second (isRow second new)).2.2 first (isRow first isFirst)
  case succeeded =>
    intro row member isSuccess
    obtain ⟨isJob, isStatus, _⟩ := same row (isRow row member)
    obtain ⟨old, found, _, stays⟩ := live row (isRow row member)
    rw [isJob]
    rcases movable.succeeds (isStatus.symm.trans isSuccess) with required |
      unfenced | ⟨output, version, handle, owner, time, outcome, isCall, sure⟩
    · exact .settles old found (stays required)
    · exact .unfenced unfenced
    · exact .fenced output version handle owner time outcome isCall
        (List.mem_append_left _ (here.sure _ sure))
  all_goals exact fun _ member => (never _ (fun _ => by simp) member).elim

/-- The stage of a transaction that has inserted the history row. -/
def moving (job : JobId) (txn : Txn) (row : Job) : Txn :=
  { txn with
    kind := settling
    stage := .moving job
    sure := [.insertHistory row] }

theorem admits_status {db : Db} {row : Job}
    (isAdmitted : fence.admits db row = true)
    (required : fence.requireStatus = some [.success]) :
    row.status = .success := by
  simp only [MoveFence.admits, Bool.and_eq_true, required, Option.all_some,
    decide_eq_true_eq, List.mem_singleton] at isAdmitted
  exact isAdmitted.2

theorem admits_idle {db : Db} {row : Job}
    (isAdmitted : fence.admits db row = true)
    (required : fence.requireIdle = true) :
    db.hasOpenAttempt row.id = false := by
  simp only [MoveFence.admits, Bool.and_eq_true, required] at isAdmitted
  simpa using isAdmitted.1.1.1.2

/-- What was owed for the job is owed by the move from now on. -/
theorem Settled.half {db : Db} {writes : List Write} {rows : List Job}
    {stage : Stage} {job : JobId}
    (settled : Settled call stage db writes job)
    (owes : stage = .clean ∨ stage = .owing fence.jobId) :
    Settled call (.moving fence.jobId) db
      (writes ++ rows.map .insertHistory) job := by
  rcases owes with rfl | rfl
  · refine (settled.shift (Or.inl rfl)).mono
      (fun write member => List.mem_append_left _ member) ?_
    intro filed
    refine filed.append fun write member drops => ?_
    obtain ⟨_, _, rfl⟩ := List.mem_map.mp member
    cases drops
  · cases settled with
    | owing isOwing =>
        cases isOwing
        exact .moving rfl
    | moving isMoving => cases isMoving
    | filed isFiled _ _ => cases isFiled
    | moves deleted => exact .moves (List.mem_append_left _ deleted)
    | leaves kept member isKept notQueued =>
        exact .leaves kept (List.mem_append_left _ member) isKept notQueued
    | gone absent => exact .gone absent
    | foreign target completes different =>
        exact .foreign target completes different

/-- The transaction is half way through a move, or it will be given up. -/
def HalfMoved (cfg : Config) (call : Call) (record : Record)
    (fence : MoveFence) (txn : Txn) (rows : List Job) (db : Db)
    (state : Loc) : Prop :=
  Recorded call record db state ∧
    (rows.length = 1 → ∃ row : Job, row.id = fence.jobId ∧
      At cfg call record (moving fence.jobId txn row) db state ∧
      MayClose cfg call fence.jobId db state)

theorem halfMoved_stable (rows : List Job) :
    (backend cfg).Stable (HalfMoved cfg call record fence txn rows) :=
  stable_and recorded_stable (stable_when (stable_exists fun _ =>
    stable_and stable_fact (stable_and at_stable (mayClose_stable _))))

theorem insertHistory_spec {fails : Db → Loc → Prop}
    (movable : Movable call record fence status values txn)
    (locked : ∀ lock ∈ moveLock cfg fence.jobId, lock ∈ txn.locks) :
    (backend cfg).Spec call (At cfg call record txn)
      (insertHistory cfg fence status values now)
      (HalfMoved cfg call record fence txn) fails := by
  refine .exec at_stable halfMoved_stable ?_
  intro snapshot current state others effect good inv guarded env _ here ran
  cases ran
  set base := basis cfg.dialect ((backend cfg).sys.view snapshot state)
    ((backend cfg).sys.view current state) with isBase
  set found := base.live.rows.filter (fence.admits base) with isFound
  set rows := found.map fun row => historyRow base row status values now
    with isRows
  have held : ∀ lock ∈ moveLock cfg fence.jobId, lock ∈ state.held :=
    fun lock member => here.locks lock (locked lock member)
  have isLive : ∀ row ∈ found, row.id = fence.jobId ∧
      current.live.get fence.jobId = some row := by
    intro row member
    have isJob := admits_id (List.mem_filter.mp member).2
    refine ⟨isJob, ?_⟩
    rw [← isJob]
    exact live_of_basis here movable.fits (isJob ▸ held) good guarded env
      (List.mem_filter.mp member).1
  have fromFound : ∀ row ∈ rows, ∃ old ∈ found,
      row = historyRow base old status values now := by
    intro row member
    obtain ⟨old, isOld, rfl⟩ := List.mem_map.mp member
    exact ⟨old, isOld, rfl⟩
  have extended : Recorded call record current (state.extend
      (rows.map .insertHistory) ((backend cfg).sys.acquired
        { result := rows, writes := rows.map .insertHistory,
          locks := writerLock cfg.dialect })) :=
    here.recorded.still rfl rfl
  refine ⟨by simp [backend], extended, ?_⟩
  intro single
  obtain ⟨row, isRow⟩ : ∃ row, rows = [row] := List.length_eq_one_iff.mp single
  obtain ⟨old, isOld, isHistory⟩ :=
    fromFound row (isRow ▸ List.mem_singleton_self row)
  obtain ⟨isJob, isCurrent⟩ := isLive old isOld
  have writer : ∀ lock ∈ writerLock cfg.dialect,
      lock ∈ (state.extend (rows.map .insertHistory)
        ((backend cfg).sys.acquired
          { result := rows, writes := rows.map .insertHistory,
            locks := writerLock cfg.dialect })).held :=
    fun lock member =>
      List.mem_append_right _ (List.mem_append_left _ member)
  refine ⟨row, by rw [isHistory]; exact isJob, ?_, ?_⟩
  · refine here.extend ?_ movable.fits ?_ ?_ ?_ ?_
    · refine here.lawful.extend (history_additions here movable ?_ ?_ ?_ ?_)
        ?_ ?_ ?_
      · intro _
        cases isDialect : cfg.dialect with
        | postgresql =>
            have owned := owns_of_moveLock isDialect held
            rw [isDialect] at owned
            exact List.mem_append_left _ owned
        | sqlite =>
            have owned := owns_of_writer (.live fence.jobId) isDialect writer
            rw [isDialect] at owned
            exact owned
      · intro other isOther
        obtain ⟨origin, isOrigin, rfl⟩ := fromFound other isOther
        refine ⟨(isLive origin isOrigin).1, rfl, ?_⟩
        intro another isAnother
        rw [isRow, List.mem_singleton] at isOther isAnother
        rw [isOther, isAnother]
      · intro other isOther
        obtain ⟨origin, isOrigin, rfl⟩ := fromFound other isOther
        obtain ⟨isOriginJob, isLiveRow⟩ := isLive origin isOrigin
        have sameNewest : base.newestOpening origin.id =
            current.newestOpening origin.id :=
          newest_of_basis here movable.fits (isOriginJob ▸ held) good guarded
            env
        refine ⟨origin, isLiveRow, ?_,
          admits_status (List.mem_filter.mp isOrigin).2⟩
        rw [historyRow_congr sameNewest]
        exact movedRow_historyRow now movable.terminal
          (isOriginJob ▸ movable.finishes current state here.recorded)
      · intro other isOther
        obtain ⟨origin, isOrigin, rfl⟩ := fromFound other isOther
        have isOriginJob := (isLive origin isOrigin).1
        have seen := (List.mem_filter.mp isOrigin).1
        have stage : txn.stage = .clean ∨ txn.stage = .owing origin.id := by
          rw [isOriginJob]
          exact movable.stage
        obtain ⟨other, isView⟩ : ∃ other, base = after state.pending other := by
          rw [isBase]
          cases cfg.dialect with
          | postgresql => exact ⟨snapshot, rfl⟩
          | sqlite => exact ⟨current, rfl⟩
        rw [isView] at seen
        intro moved member
        exact not_moved here movable.fits stage seen moved member
      · exact fun job settled => settled.half movable.stage
      · intro job isMoving
        rcases movable.stage with clean | owing
        · cases clean.symm.trans isMoving
        · cases owing.symm.trans isMoving
      · intro job isFiled
        rcases movable.stage with clean | owing
        · cases clean.symm.trans isFiled
        · cases owing.symm.trans isFiled
    · intro write member
      obtain ⟨_, _, rfl⟩ := List.mem_map.mp member
      rfl
    · have nothing : (rows.map Write.insertHistory).filter creation = [] := by
        rw [List.filter_eq_nil_iff]
        intro write member
        obtain ⟨_, _, rfl⟩ := List.mem_map.mp member
        simp [creation]
      exact (congrArg (txn.made ++ ·) nothing).trans (List.append_nil _)
    · intro write member
      rw [Standalone.moving, List.mem_singleton] at member
      refine Or.inr (List.mem_map.mpr ⟨row, ?_, member.symm⟩)
      rw [isRow]
      exact List.mem_singleton_self row
    · exact fun lock member => Or.inl member
  · rcases movable.closes with judged | ⟨idle, isPlain⟩
    · refine Or.inl fun sweeps => ?_
      obtain ⟨attempt, marked⟩ := judged sweeps
      exact ⟨attempt, here.recorded.marked _ marked⟩
    · refine Or.inr (idle_of_basis here isPlain held
        (fun lock member => List.mem_append_left _ member) writer good
        guarded env ?_)
      rw [← isJob]
      exact admits_idle (List.mem_filter.mp isOld).2 idle

theorem deletion_additions {db : Db} {state : Loc} {rows : List Job}
    {stage : Stage} {locks : List Lock} {inserted : Job}
    (here : At cfg call record txn db state)
    (half : .insertHistory inserted ∈ state.pending)
    (isJob : inserted.id = fence.jobId)
    (same : ∀ row ∈ rows, row.id = fence.jobId) :
    Additions cfg.dialect call stage db state
      (rows.map fun row => .deleteLive row.id) locks := by
  have never : ∀ write, (∀ job, write ≠ .deleteLive job) →
      write ∉ rows.map fun row => Write.deleteLive row.id := by
    intro write different member
    obtain ⟨row, _, rfl⟩ := List.mem_map.mp member
    exact different row.id rfl
  apply rewriting_additions here.lawful
  case rewrite =>
    intro write member
    obtain ⟨row, _, rfl⟩ := List.mem_map.mp member
    rfl
  case deleted =>
    intro job member
    obtain ⟨row, isRow, isDelete⟩ := List.mem_map.mp member
    cases isDelete
    exact ⟨inserted, half, isJob.trans (same row isRow).symm⟩
  case judged =>
    exact fun _ _ member => (never _ (fun _ => by simp) member).elim
  case movedOnce =>
    exact fun _ _ member => (never _ (fun _ => by simp) member).elim
  all_goals exact fun _ member => (never _ (fun _ => by simp) member).elim

/-- The move is complete in this transaction. -/
def moved (job : JobId) : Txn :=
  { kind := settling, sure := [.deleteLive job] }

def Deleted (cfg : Config) (call : Call) (record : Record)
    (fence : MoveFence) (count : Nat) (db : Db) (state : Loc) : Prop :=
  Recorded call record db state ∧
    (count = 1 → At cfg call record (moved fence.jobId) db state ∧
      MayClose cfg call fence.jobId db state)

theorem deleted_stable (count : Nat) :
    (backend cfg).Stable (Deleted cfg call record fence count) :=
  stable_and recorded_stable
    (stable_when (stable_and at_stable (mayClose_stable _)))

/-- The delete ends what the insert has begun. -/
theorem deleteLive_spec {fails : Db → Loc → Prop} {row : Job}
    (stableFails : (backend cfg).Stable fails)
    (isJob : row.id = fence.jobId) (made : txn.made = []) :
    (backend cfg).Spec call
      (fun db state =>
        At cfg call record (moving fence.jobId txn row) db state ∧
          MayClose cfg call fence.jobId db state)
      (deleteLive cfg fence) (Deleted cfg call record fence) fails := by
  refine .bind stableFails
    (.exec (stable_and at_stable (mayClose_stable _))
      (fun rows => deleted_stable rows.length) ?_)
    fun rows => .pure (deleted_stable rows.length)
      fun _ _ _ _ holds => holds
  intro snapshot current state others effect _ _ _ _ _ holds ran
  cases ran
  obtain ⟨here, mayClose⟩ := holds
  set rows := targets Db.live fence.admits
    (basis cfg.dialect ((backend cfg).sys.view snapshot state)
      ((backend cfg).sys.view current state))
    ((backend cfg).sys.view current state) with isRows
  refine ⟨by simp [backend], here.recorded.still rfl rfl, ?_⟩
  intro single
  obtain ⟨gone, isGone⟩ : ∃ gone, rows = [gone] :=
    List.length_eq_one_iff.mp single
  have same : ∀ row ∈ rows, row.id = fence.jobId :=
    fun row member => admits_id (mem_targets_iff.mp member).2.1
  have half : .insertHistory row ∈ state.pending :=
    here.sure _ (List.mem_singleton_self _)
  have deletes : .deleteLive fence.jobId ∈
      rows.map fun row => Write.deleteLive row.id := by
    refine List.mem_map.mpr ⟨gone, isGone ▸ List.mem_singleton_self gone, ?_⟩
    rw [same gone (isGone ▸ List.mem_singleton_self gone)]
  refine ⟨?_, mayClose_grows _ _ _ _ _ mayClose⟩
  refine here.extend ?_ (fun _ isKind => isKind) ?_ ?_ ?_ ?_
  · refine here.lawful.extend (deletion_additions here half isJob same)
      ?_ ?_ ?_
    · intro job settled
      cases settled with
      | moving isMoving =>
          cases isMoving
          exact .moves (List.mem_append_right _ deletes)
      | owing isOwing => cases isOwing
      | filed isFiled _ _ => cases isFiled
      | moves deleted => exact .moves (List.mem_append_left _ deleted)
      | leaves kept member isKept notQueued =>
          exact .leaves kept (List.mem_append_left _ member) isKept notQueued
      | gone absent => exact .gone absent
      | foreign target completes different =>
          exact .foreign target completes different
    · intro job isMoving
      cases isMoving
      exact Or.inl deletes
    · intro job isFiled
      cases isFiled
  · intro write member
    obtain ⟨_, _, rfl⟩ := List.mem_map.mp member
    rfl
  · have nothing : (rows.map fun row => Write.deleteLive row.id).filter
        creation = [] := by
      rw [List.filter_eq_nil_iff]
      intro write member
      obtain ⟨_, _, rfl⟩ := List.mem_map.mp member
      simp [creation]
    exact (congrArg (txn.made ++ ·) nothing).trans
      ((List.append_nil _).trans made)
  · intro write member
    rw [moved, List.mem_singleton] at member
    exact Or.inr (member ▸ deletes)
  · intro lock member
    cases member

/-- A transaction that will be given up may do anything. -/
theorem given_up {fails : Db → Loc → Prop} {β : Type} {statement : Stmt β}
    (atOnce : ∀ snapshot current others effect,
      statement snapshot current others = some effect → effect.atOnce = []) :
    (backend cfg).Spec call (Recorded call record)
      (exec statement : Sql β) (fun _ => Recorded call record) fails := by
  refine .exec recorded_stable (fun _ => recorded_stable) ?_
  intro snapshot current state others effect _ _ _ _ _ holds ran
  rw [atOnce _ _ _ _ ran]
  exact ⟨by simp [backend], holds.still rfl rfl⟩

theorem stragglers_spec {fails : Db → Loc → Prop}
    (stableFails : (backend cfg).Stable fails) :
    (backend cfg).Spec call
      (fun db state => At cfg call record (moved fence.jobId) db state ∧
        MayClose cfg call fence.jobId db state)
      (closeStragglersStmt cfg fence.jobId status now)
      (fun _ => At cfg call record { kind := settling }) fails := by
  refine (closeWhere_spec .clean (mayClose_stable _)
    (mayClose_grows _) stableFails
    (fun _ => rfl) (fun _ => rfl) (Or.inl rfl) ?_).strengthen ?_
    fun _ _ _ holds => holds
  · intro db state attempt inv here mayClose isAdmitted member isOpen
    have isJob : attempt.jobId = fence.jobId := by simpa using isAdmitted
    rw [isJob]
    refine ⟨.moves (here.sure _ (List.mem_singleton_self _)), ?_⟩
    intro sweeps
    rcases mayClose with judged | idle
    · exact judged sweeps
    · exact (hasOpenAttempt_eq_false.mp idle.2 attempt member isOpen
        isJob).elim
  · rintro count db state _ ⟨closed, _, here, _⟩
    exact here.mono (fun _ isKind => isKind) (by simp [moved]) rfl (by simp)
      (by simp)

/-- `_finish_in` moves the row of the job and leaves the transaction clean, or
it finds no row and does nothing. -/
theorem finishIn_spec_of_lock {pre skipped : Db → Loc → Prop}
    (stable : (backend cfg).Stable pre)
    (stableSkipped : (backend cfg).Stable skipped)
    (movable : Movable call record fence status values txn)
    (lock : (backend cfg).Spec call pre (lockForMove cfg fence)
      (fun rows db state => (rows = [] → skipped db state) ∧
        (rows ≠ [] → At cfg call record
          { txn with locks := txn.locks ++ moveLock cfg fence.jobId }
          db state)) (Recorded call record)) :
    (backend cfg).Spec call pre (finishIn cfg fence status values)
      (fun moved => if moved then At cfg call record { kind := settling }
        else skipped) (Recorded call record) := by
  unfold finishIn
  refine inside (clock_spec stable) fun now => inside lock fun locked => ?_
  split
  · rename_i none
    refine .weaken (.pure stableSkipped fun _ _ _ _ holds => ?_)
      fun db state _ holds => holds.1 none
    simpa using holds
  · rename_i some
    have withLock : Movable call record fence status values
        { txn with locks := txn.locks ++ moveLock cfg fence.jobId } :=
      ⟨movable.fits, movable.stage, movable.made, movable.terminal,
        movable.finishes, movable.succeeds, movable.closes⟩
    refine .weaken (inside (insertHistory_spec withLock fun lock member =>
      List.mem_append_right _ member) fun inserted => ?_)
      fun db state _ holds => holds.2 some
    by_cases single : inserted.length = 1
    · refine .weaken (.exists_ fun row => .fact fun isJob => ?_)
        fun db state _ holds => holds.2 single
      refine inside (deleteLive_spec recorded_stable isJob movable.made)
        fun count => ?_
      by_cases gone : count = 1
      · rw [if_pos (by simp [single, gone])]
        refine .weaken (inside
          (clock_spec (stable_and at_stable (mayClose_stable _)))
          fun now => inside (stragglers_spec recorded_stable) fun _ =>
            .pure at_stable fun _ _ _ _ holds => by simpa using holds)
          fun db state _ holds => holds.2 gone
      · rw [if_neg (by simp [gone])]
        exact .raise (deleted_stable count) fun _ _ _ holds => holds.1
    · have deletes : (backend cfg).Spec call (Recorded call record)
          (deleteLive cfg fence) (fun _ => Recorded call record)
          (Recorded call record) := by
        refine inside (given_up ?_) fun rows =>
          .pure recorded_stable fun _ _ _ _ holds => holds
        intro _ _ _ _ ran
        cases ran
        rfl
      refine .weaken (inside deletes fun count => ?_)
        fun db state _ holds => holds.1
      rw [if_neg (by simp [single])]
      exact .raise recorded_stable fun _ _ _ holds => holds

theorem finishIn_spec (movable : Movable call record fence status values txn) :
    (backend cfg).Spec call (At cfg call record txn)
      (finishIn cfg fence status values)
      (fun moved => if moved then At cfg call record { kind := settling }
        else At cfg call record txn) (Recorded call record) :=
  finishIn_spec_of_lock at_stable at_stable movable lockForMove_spec

end Move

end Sqlery.Standalone
