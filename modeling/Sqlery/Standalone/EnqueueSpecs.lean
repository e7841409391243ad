import Sqlery.Standalone.ReleaseSpecs

/-!
# Specifications of the creation of jobs

A new job draws its id, gets its ready entry and is inserted, all in one
transaction.  That nobody else knows the id is kept along until then.
-/

namespace Sqlery.Standalone

open ReadCommitted
open Script

/-! ## Replacing named jobs -/

section Replace

variable {cfg : Config} {call : Call} {record : Record}

def discarding : Write → Bool
  | .discardLive _ => true
  | write => plain write

theorem discarding_of_plain {write : Write} (isPlain : plain write = true) :
    discarding write = true := by
  cases write <;> first | rfl | exact isPlain

abbrev discardTxn : Txn := { kind := discarding }

theorem discard_additions {txn : Txn} {db : Db} {state : Loc}
    {rows : List Job} {locks : List Lock}
    (here : At cfg call record txn db state) (creates : call.creates = true)
    (live : ∀ row ∈ rows, db.live.get row.id ≠ none) :
    Additions cfg.dialect call txn.stage db state
      (rows.map fun row => .discardLive row.id) locks := by
  apply rewriting_additions here.lawful
  case rewrite =>
    intro write member
    obtain ⟨row, _, rfl⟩ := List.mem_map.mp member
    rfl
  case discarded =>
    intro job member
    obtain ⟨row, isRow, same⟩ := List.mem_map.mp member
    cases same
    exact ⟨creates, live row isRow⟩
  all_goals simp

theorem deleteJob_spec (job : Job) (creates : call.creates = true)
    {fails : Db → Loc → Prop} (stableFails : (backend cfg).Stable fails) :
    (backend cfg).Spec call (At cfg call record discardTxn)
      (deleteJob cfg job) (fun _ => At cfg call record discardTxn)
      fails := by
  refine .bind stableFails ?_ fun _ =>
    .pure at_stable fun _ _ _ _ holds => holds
  refine .exec at_stable (fun _ => at_stable) ?_
  intro snapshot current state others effect _ _ _ _ _ here ran
  cases ran
  have unfit : ∀ write, discarding write = false →
      write ∉ state.pending := by
    intro write notKind member
    have isKind : discarding write = true := here.only write member
    rw [isKind] at notKind
    cases notKind
  have live : ∀ row ∈ targets Db.live (fun _ => sameRow job)
      (basis cfg.dialect ((backend cfg).sys.view snapshot state)
        ((backend cfg).sys.view current state))
      ((backend cfg).sys.view current state),
      current.live.get row.id ≠ none := by
    intro row isTarget
    have found := live_of_view (fun new => unfit (.insertLive new) rfl)
      (fun new => unfit (.setLive new) rfl) (mem_targets_iff.mp isTarget).1
    rw [found]
    exact Option.some_ne_none row
  refine ⟨by simp [backend], ?_⟩
  refine here.extend ?_ (fun _ isKind => isKind) ?_ ?_
    (fun _ member => Or.inl member) fun _ member => Or.inl member
  · apply here.lawful.extendSame (discard_additions here creates live)
    intro other isFiled
    cases isFiled
  · intro write member
    obtain ⟨row, _, rfl⟩ := List.mem_map.mp member
    rfl
  · simp [List.filter_map, Function.comp_def, creation]

theorem Outer.replaceNamed (name : String) (creates : call.creates = true) :
    Outer cfg call (replaceNamed cfg name) := by
  intro record
  apply session_spec
  apply inside ((Inner.read _).trans record)
  intro conflicting
  apply inside ((Inner.whenever (Inner.dropEntries _)).trans record)
  intro _
  have loop : (backend cfg).Spec call (At cfg call record discardTxn)
      (Script.each (deleteJob cfg) conflicting)
      (fun _ => At cfg call record discardTxn) (Recorded call record) :=
    .each at_stable recorded_stable fun job _ =>
      deleteJob_spec job creates recorded_stable
  refine .weaken (inside loop fun _ => ?_) fun _ _ _ holds =>
    At.mono holds (fun _ => discarding_of_plain) rfl rfl
      (fun _ member => member) fun _ member => member
  apply inside (commit_spec rfl rfl)
  intro _
  exact .pure at_stable fun _ _ _ _ holds => holds.recorded

theorem Outer.replaceConflicting (spec : JobSpec)
    (creates : call.creates = true) :
    Outer cfg call (replaceConflicting cfg spec) := by
  unfold Standalone.replaceConflicting
  cases spec.jobName with
  | none => exact Outer.pure ()
  | some name =>
      dsimp only
      split
      · exact Outer.pure ()
      · apply Outer.bind (Outer.replaceNamed name creates)
        intro replaced
        apply Outer.each
        intro job
        exact Outer.releaseDependentsQuietly job none

end Replace

/-! ## Inserting a new job -/

section Insert

variable {cfg : Config} {call : Call} {record : Record}

theorem fresh_kept (job : JobId) : (backend cfg).Kept call (Fresh job) where
  stable := fresh_stable job
  note := fun _ _ _ holds => holds
  extend := fun _ _ _ _ holds => ⟨List.mem_append_left _ holds.1, holds.2⟩
  instant := fun db _ _ counters holds =>
    ⟨holds.1, holds.2.sameTables (sameTables_after counters db)⟩

theorem within_writeReady (job : Job) :
    Within (writeReady cfg [job] true) := by
  apply Within.bind (Within.pure [])
  intro running
  dsimp only
  split
  · exact Within.pure ()
  · apply Within.bind
    · unfold writerSlot
      split
      · exact Within.read _
      · exact Within.pure 0
    · intro slot
      exact Within.exec _

def setsReady : Write → Bool
  | .setReady _ => true
  | _ => false

theorem ensureEntry_spec (job : Job) :
    (backend cfg).Spec call
      (fun db state => Between cfg call record db state ∧
        Fresh job.id db state)
      (ensureEntry cfg job) (fun _ => NewJob cfg call record job.id)
      (Recorded call record) := by
  apply inside (Setting.Spec.keep (fresh_kept job.id) (within_writeReady job)
    (writeReady_new job (fun _ isPlain => isPlain) (Or.inl rfl)))
  intro _
  apply inside (newJob_spec (makes_dml Db.ready _
    fun _ => show setsReady _ = true from rfl) ?_ ?_)
  · intro _
    exact .pure (newJob_stable _) fun _ _ _ _ holds => holds
  · intro write isKind
    cases write <;> first | rfl | cases isKind
  · intro write isKind drops
    cases drops <;> cases isKind

/-- The transaction has inserted the job and filed it. -/
abbrev insertedTxn (job : Job) : Txn :=
  { kind := creating, stage := .filed job.id, made := [.insertLive job] }

theorem flushNew_spec (spec : JobSpec) (createdAt : Time)
    (may : MayCreate call record spec) :
    (backend cfg).Spec call (Between cfg call record)
      (flushNew cfg spec createdAt)
      (fun job => At cfg call record (insertedTxn job))
      (Recorded call record) := by
  apply inside (generateJobId_spec rfl)
  intro id
  apply inside (ensureEntry_spec { toJobSpec := spec, id, createdAt })
  intro _
  apply inside (insertLive_spec _ rfl may)
  intro _
  exact .pure at_stable fun _ _ _ _ holds => holds

theorem commit_created {made : List Write} {stage : Stage}
    (complete : stage.complete = true) {fails : Db → Loc → Prop} :
    (backend cfg).Spec call
      (At cfg call record { kind := creating, stage, made })
      (commit : Sql Unit) (fun _ => Loose cfg call record) fails := by
  have nothing : ∀ parent ∈ ([] : List JobId),
      parent ∈ record.ahead ∧ made = [] := by
    intro parent member
    cases member
  have spec : (backend cfg).Spec call
      (At cfg call record { kind := creating, stage, made })
      (commit : Sql Unit) (fun _ => Between cfg call
        { record with wrote := record.wrote ++ made, ahead := [] }) fails :=
    commit_made [] complete nothing
  exact spec.strengthen (fun _ _ _ _ holds => ⟨_, _, holds⟩)
    fun _ _ _ holds => holds

/-- What runs between transactions runs whatever was started before. -/
theorem Trans.loose {β : Type} {script : Sql β}
    (trans : Trans cfg call script) :
    (backend cfg).Spec call (Loose cfg call record) script
      (fun _ => Loose cfg call record) (Recalled call record) := by
  refine .exists_ fun wrote => .exists_ fun ahead => ?_
  exact (trans { record with wrote, ahead }).strengthen
    (fun _ _ _ _ holds => ⟨wrote, ahead, holds⟩)
    fun _ _ _ holds => ⟨wrote, ahead, holds⟩

theorem Outer.loose {β : Type} {script : Sql β}
    (outer : Outer cfg call script) :
    (backend cfg).Spec call (Loose cfg call record) script
      (fun _ => Loose cfg call record) (Loose cfg call record) := by
  refine .exists_ fun wrote => .exists_ fun ahead => ?_
  exact (outer { record with wrote, ahead }).strengthen
    (fun _ _ _ _ holds => ⟨wrote, ahead, holds⟩)
    fun _ _ _ holds => ⟨wrote, ahead, holds⟩

theorem Trans.refresh (job : Job) : Trans cfg call (refresh job) := by
  apply Trans.bind (Inner.read _).trans
  intro found
  cases found with
  | none => exact (Inner.raise _).trans
  | some row => exact Trans.pure row

theorem insertJob_spec (spec : JobSpec) (createdAt : Time)
    (may : MayCreate call record spec) :
    (backend cfg).Spec call (Between cfg call record)
      (insertJob cfg spec createdAt) (fun _ => Loose cfg call record)
      (Loose cfg call record) := by
  apply session_loose
  apply Setting.Spec.bind recalled_stable
    (recalling (flushNew_spec spec createdAt may))
  intro job
  apply Setting.Spec.bind recalled_stable (commit_created rfl)
  intro _
  apply Setting.Spec.bind recalled_stable (Trans.refresh job).loose
  intro stored
  exact .pure loose_stable fun _ _ _ _ holds => holds

theorem stageJob_spec (spec : JobSpec) (createdAt : Time)
    (may : MayCreate call record spec) :
    (backend cfg).Spec call (Between cfg call record)
      (stageJob cfg spec createdAt) (fun _ => Loose cfg call record)
      (Loose cfg call record) := by
  apply session_loose
  have drawn : (backend cfg).Spec call (Between cfg call record)
      generateJobId (fun _ => Between cfg call record)
      (Recalled call record) :=
    (generateJobId_spec rfl).strengthen (fun _ _ _ _ holds => holds.1)
      fun _ _ _ holds => holds
  apply Setting.Spec.bind recalled_stable drawn
  intro id
  apply Setting.Spec.bind recalled_stable (insertStaged_spec may)
  intro _
  apply Setting.Spec.bind recalled_stable (commit_created rfl)
  intro _
  apply Setting.Spec.bind recalled_stable (Inner.read _).trans.loose
  intro found
  cases found with
  | none => exact (Inner.raise _).trans.loose
  | some stored => exact .pure loose_stable fun _ _ _ _ holds => holds

theorem createJob_spec (spec : JobSpec)
    (may : MayCreate call record spec) :
    (backend cfg).Spec call (Between cfg call record) (createJob cfg spec)
      (fun _ => Loose cfg call record) (Loose cfg call record) := by
  have replaced : (backend cfg).Spec call (Between cfg call record)
      (replaceConflicting cfg spec) (fun _ => Between cfg call record)
      (Loose cfg call record) :=
    (Outer.replaceConflicting spec may.creates record).strengthen
      (fun _ _ _ _ holds => holds) fun _ _ _ holds => At.loose holds
  apply Setting.Spec.bind loose_stable replaced
  intro _
  apply Setting.Spec.bind loose_stable (clock_spec at_stable)
  intro now
  apply Setting.Spec.bind loose_stable (clock_spec at_stable)
  intro createdAt
  split
  · exact stageJob_spec spec createdAt may
  · exact insertJob_spec spec createdAt may

end Insert

/-! ## Scheduled tasks -/

section Tasks

variable {cfg : Config} {call : Call} {record : Record}

def setsTask : Write → Bool
  | .setTask _ => true
  | _ => false

theorem makes_setTask (admits : ScheduledTask → Bool) (next : Time) :
    Makes setsTask (writerLock cfg.dialect) (dml Db.tasks cfg
      (fun _ => admits)
      fun task => .setTask { task with nextRunAt := some next }) :=
  makes_dml Db.tasks _ fun _ => rfl

theorem plain_of_setsTask {write : Write} (isKind : setsTask write = true) :
    plain write = true := by
  cases write <;> first | rfl | cases isKind

theorem Inner.setNextRun (admits : ScheduledTask → Bool) (next : Time) :
    Inner cfg call (setNextRun cfg admits next) := by
  have plainly : Makes plain (writerLock cfg.dialect) (dml Db.tasks cfg
      (fun _ => admits)
      fun task => .setTask { task with nextRunAt := some next }) :=
    makes_dml Db.tasks _ fun _ => rfl
  apply Inner.bind (Inner.exec plainly)
  intro rows
  exact Inner.pure _

theorem Inner.winTask (taskId : Nat) (observed next : Time) :
    Inner cfg call (winTask cfg taskId observed next) := by
  unfold Standalone.winTask
  cases cfg.dialect with
  | postgresql =>
      apply Inner.bind (Inner.locking (makes_select Db.tasks _ _))
      intro locked
      cases locked.head? with
      | none => exact Inner.pure false
      | some task => exact Inner.pure _
  | sqlite =>
      apply Inner.bind (Inner.setNextRun _ next)
      intro updated
      exact Inner.pure _

theorem flushTask_spec (taskId : Nat) (next : Time) (job : JobId)
    {fails : Db → Loc → Prop} (stableFails : (backend cfg).Stable fails) :
    (backend cfg).Spec call (NewJob cfg call record job)
      (flushTask cfg taskId next) (fun _ => NewJob cfg call record job)
      fails := by
  have skip : (backend cfg).Spec call (NewJob cfg call record job)
      (pure () : Sql Unit) (fun _ => NewJob cfg call record job) fails :=
    .pure (newJob_stable job) fun _ _ _ _ holds => holds
  have sets : (backend cfg).Spec call (NewJob cfg call record job)
      (setNextRun cfg (fun task => task.id = taskId) next)
      (fun _ => NewJob cfg call record job) fails := by
    apply Setting.Spec.bind stableFails (newJob_spec
      (makes_setTask _ next) (fun _ => plain_of_setsTask) ?_)
    · intro rows
      exact .pure (newJob_stable job) fun _ _ _ _ holds => holds
    · intro write isKind drops
      cases drops <;> cases isKind
  unfold flushTask
  cases isDialect : cfg.dialect with
  | postgresql => exact .bind stableFails sets fun _ => skip
  | sqlite => exact skip

theorem advanceScheduledTaskIfDue_spec (taskId : Nat) (observed next : Time)
    (spec : JobSpec) (may : MayCreate call record spec) :
    (backend cfg).Spec call (Between cfg call record)
      (advanceScheduledTaskIfDue cfg taskId observed next spec)
      (fun _ => Loose cfg call record) (Loose cfg call record) := by
  apply session_loose
  apply Setting.Spec.bind recalled_stable
    (recalling ((Inner.winTask taskId observed next).trans record))
  intro won
  split
  · apply Setting.Spec.bind recalled_stable (clock_spec at_stable)
    intro createdAt
    apply Setting.Spec.bind recalled_stable (generateJobId_spec rfl)
    intro id
    apply Setting.Spec.bind recalled_stable (recalling
      (ensureEntry_spec { toJobSpec := spec, id, createdAt }))
    intro _
    apply Setting.Spec.bind recalled_stable
      (flushTask_spec taskId next id recalled_stable)
    intro _
    apply Setting.Spec.bind recalled_stable
      (insertLive_spec { toJobSpec := spec, id, createdAt } rfl may)
    intro _
    apply Setting.Spec.bind recalled_stable (commit_created rfl)
    intro _
    apply Setting.Spec.bind recalled_stable (Trans.refresh _).loose
    intro stored
    exact .pure loose_stable fun _ _ _ _ holds => holds
  · exact .pure at_stable fun _ _ _ _ holds => At.loose holds

end Tasks

end Sqlery.Standalone
