import Sqlery.Standalone.AsyncWorker

/-!
# Running jobs and their workers

What the zombie sweep reads: `running_with_attempts_stmt`.
-/

namespace Sqlery.Standalone

open ReadCommitted
open Script

/-- `running_with_attempts_stmt`: the open attempts of queued rows, oldest
first. -/
def runningWithAttempts (queues : List String) (db : Db) :
    List (Job × Attempt) :=
  (byId (db.attempts.rows.filter Attempt.isOpen)).filterMap fun attempt =>
    ((db.live.get attempt.jobId).filter fun job =>
      job.status = .queued && inQueues queues job.queueName).map
        fun job => (job, attempt)

theorem mem_runningWithAttempts {queues : List String} {db : Db} {job : Job}
    {attempt : Attempt} :
    (job, attempt) ∈ runningWithAttempts queues db ↔
      attempt ∈ db.attempts.rows ∧ attempt.runs job.id = true ∧
        job ∈ db.live.rows ∧ job.status = .queued ∧
          inQueues queues job.queueName = true := by
  simp only [runningWithAttempts, List.mem_filterMap, byId,
    List.mem_insertionSort, List.mem_filter, Option.map_eq_some_iff,
    Option.filter_eq_some_iff, Bool.and_eq_true, decide_eq_true_eq,
    Prod.mk.injEq, Attempt.runs]
  constructor
  · rintro ⟨other, ⟨stored, isOpen⟩, row, ⟨found, queued, within⟩, rfl, rfl⟩
    exact ⟨stored, ⟨(Table.key_of_get found).symm, isOpen⟩,
      Table.mem_of_get found, queued, within⟩
  · rintro ⟨stored, ⟨sameJob, isOpen⟩, isLive, queued, within⟩
    refine ⟨attempt, ⟨stored, isOpen⟩, job, ⟨?_, queued, within⟩, rfl, rfl⟩
    rw [sameJob]
    exact Table.get_of_mem isLive

end Sqlery.Standalone
