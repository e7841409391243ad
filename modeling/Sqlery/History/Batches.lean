import Sqlery.History.Backfill

/-!
# Loops of batches

What a loop of batches keeps and reaches, whatever its two statements are: an
invariant of the statements holds after every crash and restart, and a loop
whose batches make something smaller returns.
-/

namespace Sqlery.History

open ReadCommitted

variable {Rest : Type} {autocommit : Bool} {sql : Statements Rest}

/-- What the two statements of a batch keep (`good`), what the insert prepares
for the delete (`ready`) and what a batch that moved nothing shows (`done`). -/
structure Batches (sql : Statements Rest) (good : Db Rest → Prop)
    (ready : Nat → Nat → Db Rest → Prop) (done : Db Rest → Prop) : Prop where
  insert : ∀ {batch db}, 0 < batch → good db →
    good (sql.insert batch db).1 ∧
      ready batch (sql.insert batch db).2 (sql.insert batch db).1
  delete : ∀ {batch inserted db}, 0 < batch → good db →
    ready batch inserted db →
      good (sql.delete batch db).1 ∧
        (inserted = 0 → (sql.delete batch db).2 = 0 →
          done (sql.delete batch db).1)

/-- What the stage of a run says about its data. -/
def AtStage (ready : Nat → Nat → Db Rest → Prop) (done : Db Rest → Prop)
    (run : Run Rest) : Prop :=
  match run.stage with
  | .insert => True
  | .delete inserted => ready run.batch inserted run.db
  | .commit inserted removed => inserted = 0 → removed = 0 → done run.db
  | .returned => done run.db

structure Underway (good : Db Rest → Prop)
    (ready : Nat → Nat → Db Rest → Prop) (done : Db Rest → Prop)
    (run : Run Rest) : Prop where
  positive : 0 < run.batch
  current : good run.db
  committed : good run.committed
  stage : AtStage ready done run

section

variable {good : Db Rest → Prop} {ready : Nat → Nat → Db Rest → Prop}
  {done : Db Rest → Prop}

theorem Underway.start {batch : Nat} {db : Db Rest} (positive : 0 < batch)
    (holds : good db) : Underway good ready done (.start batch db) where
  positive := positive
  current := holds
  committed := holds
  stage := trivial

theorem Underway.advance (batches : Batches sql good ready done)
    {run : Run Rest} (underway : Underway good ready done run) :
    Underway good ready done (advance autocommit sql run) := by
  obtain ⟨positive, holds, committed, stage⟩ := underway
  cases at_ : run.stage with
  | insert =>
      obtain ⟨kept, prepared⟩ := batches.insert positive holds
      simp only [History.advance, at_]
      constructor
      · exact positive
      · exact kept
      · cases autocommit
        · exact committed
        · exact kept
      · exact prepared
  | delete inserted =>
      simp only [AtStage, at_] at stage
      obtain ⟨kept, finished⟩ := batches.delete positive holds stage
      simp only [History.advance, at_]
      constructor
      · exact positive
      · exact kept
      · cases autocommit
        · exact committed
        · exact kept
      · exact finished
  | commit inserted removed =>
      simp only [AtStage, at_] at stage
      simp only [History.advance, at_]
      constructor
      · exact positive
      · exact holds
      · exact holds
      · by_cases nothing : inserted ≤ 0 ∧ removed ≤ 0
        · have finished := stage (Nat.le_zero.mp nothing.1)
            (Nat.le_zero.mp nothing.2)
          simpa only [AtStage, if_pos nothing] using finished
        · simp only [AtStage, if_neg nothing]
  | returned =>
      simp only [History.advance, at_]
      exact ⟨positive, holds, committed, stage⟩

/-- The invariant holds after any statements, crashes and restarts. -/
theorem Underway.runs (batches : Batches sql good ready done)
    {first last : Run Rest} (ran : Runs autocommit sql first last)
    (underway : Underway good ready done first) :
    Underway good ready done last := by
  induction ran with
  | refl => exact underway
  | tail _ step induction =>
      cases step with
      | advance => exact induction.advance batches
      | crash batch positive =>
          exact .start positive induction.committed

theorem Underway.finished {run : Run Rest}
    (underway : Underway good ready done run)
    (returned : run.stage.hasReturned = true) : done run.db := by
  have stage := underway.stage
  cases at_ : run.stage with
  | returned => simpa [AtStage, at_] using stage
  | _ => simp [at_, Stage.hasReturned] at returned

end

theorem runs_iterate (autocommit : Bool) (sql : Statements Rest)
    (run : Run Rest) (statements : Nat) :
    Runs autocommit sql run ((advance autocommit sql)^[statements] run) := by
  induction statements with
  | zero => exact .refl
  | succ statements induction =>
      rw [Function.iterate_succ_apply']
      exact induction.tail (.advance _)

/-! ## Termination -/

theorem Returns.of_advance {run : Run Rest}
    (later : Returns autocommit sql (advance autocommit sql run)) :
    Returns autocommit sql run := by
  obtain ⟨statements, returned⟩ := later
  exact ⟨statements + 1, returned⟩

/-- A batch either moves nothing or leaves less to move. -/
def Shrinks (sql : Statements Rest) (size : Db Rest → Nat) : Prop :=
  ∀ {batch} db, 0 < batch →
    ((sql.insert batch db).2 = 0 ∧
        (sql.delete batch (sql.insert batch db).1).2 = 0) ∨
      size (sql.delete batch (sql.insert batch db).1).1 < size db

theorem returns_from_insert {size : Db Rest → Nat}
    (shrinks : Shrinks sql size) (bound : Nat) :
    ∀ run : Run Rest, run.stage = .insert → 0 < run.batch →
      size run.db ≤ bound → Returns autocommit sql run := by
  induction bound with
  | zero =>
      intro run at_ positive small
      apply Returns.of_advance
      apply Returns.of_advance
      apply Returns.of_advance
      rcases shrinks run.db positive with nothing | smaller
      · exact ⟨0, by simp [advance, at_, nothing, Stage.hasReturned]⟩
      · omega
  | succ bound induction =>
      intro run at_ positive small
      apply Returns.of_advance
      apply Returns.of_advance
      apply Returns.of_advance
      rcases shrinks run.db positive with nothing | smaller
      · exact ⟨0, by simp [advance, at_, nothing, Stage.hasReturned]⟩
      · by_cases nothing : (sql.insert run.batch run.db).2 = 0 ∧
            (sql.delete run.batch (sql.insert run.batch run.db).1).2 = 0
        · exact ⟨0, by simp [advance, at_, nothing, Stage.hasReturned]⟩
        · apply induction
          · simp [advance, at_, nothing]
          · simpa [advance, at_] using positive
          · have less : size (sql.delete run.batch
                (sql.insert run.batch run.db).1).1 ≤ bound := by omega
            simpa [advance, at_] using less

/-- Every run returns once it is left alone. -/
theorem returns_of_shrinks {size : Db Rest → Nat}
    (shrinks : Shrinks sql size) {run : Run Rest} (positive : 0 < run.batch) :
    Returns autocommit sql run := by
  have inserts : ∀ next : Run Rest, next.stage = .insert → 0 < next.batch →
      Returns autocommit sql next := fun next at_ batched =>
    returns_from_insert shrinks (size next.db) next at_ batched le_rfl
  have commits : ∀ next : Run Rest, ∀ inserted removed,
      next.stage = .commit inserted removed → 0 < next.batch →
        Returns autocommit sql next := by
    intro next inserted removed at_ batched
    by_cases nothing : inserted ≤ 0 ∧ removed ≤ 0
    · exact ⟨1, by simp [advance, at_, nothing, Stage.hasReturned]⟩
    · apply Returns.of_advance
      apply inserts
      · simp only [advance, at_, if_neg nothing]
      · simpa [advance, at_] using batched
  cases at_ : run.stage with
  | insert => exact inserts run at_ positive
  | delete inserted =>
      apply Returns.of_advance
      apply commits _ inserted (sql.delete run.batch run.db).2
      · simp [advance, at_]
      · simpa [advance, at_] using positive
  | commit inserted removed => exact commits run inserted removed at_ positive
  | returned => exact ⟨0, by simp [at_, Stage.hasReturned]⟩

end Sqlery.History
