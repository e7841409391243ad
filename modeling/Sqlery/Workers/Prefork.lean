import Sqlery.Network.Frames
import Sqlery.Runs.Machine
import Sqlery.Workers.Launcher

/-!
# The prefork child

A worker hands each job it has claimed to a long-lived child through one pipe,
and the child reports it through another.  Bytes move through both in pieces,
and the child may die between any two of them.
-/

namespace Sqlery.Workers.Prefork

open Network Runs

/-! ## Jobs and reports -/

/-- A claimed job.  Each claim opens an attempt of its own, which the job
carries. -/
structure Job where
  id : Nat
  attempt : Nat
  deriving DecidableEq

structure UnpersistedOutcome where
  jobId : Nat
  success : Bool
  text : String
  deriving DecidableEq

/-- The frame `(exit code, recycle, unpersisted, recorded)`. -/
structure Report where
  exitCode : Nat
  recycle : Bool
  unpersisted : Option UnpersistedOutcome
  recorded : Option (Bool × String)
  deriving DecidableEq

/-- The row of a job, as it is read back. -/
inductive Row where
  | missing
  | unfinished
  | success (output : String)
  /-- Its status is `failed` or `archived`. -/
  | failed (error : String)
  deriving DecidableEq

/-- What `_await_child` returns, and whether it has marked the job as
crashed. -/
structure Result where
  success : Bool
  text : String
  marked : Bool
  deriving DecidableEq

/-- The job is read back: no report says how it ended. -/
def readBack (status : Nat) : Row → Result
  | .success output => ⟨true, output, false⟩
  | .failed error => ⟨false, error, false⟩
  | _ =>
      if status = 0 then ⟨true, "", false⟩
      else ⟨false, s!"Child exited with status {status}", true⟩

/-- The end of `_await_child`. -/
def conclude (report : Option Report) (status : Nat) (row : Row) : Result :=
  match report.bind (·.unpersisted), report.bind (·.recorded) with
  | none, some (success, text) => ⟨success, text, false⟩
  | _, _ => readBack status row

/-- The exit code of `_poll_forked_child`. -/
def exitStatus : WaitStatus → Nat
  | .exited code => code
  | _ => 1

/-! ## The two processes -/

/-- Where `_pool_child_main` stands. -/
inductive ChildPhase where
  | reading (got : List UInt8)
  | running (job : Job)
  | reporting (pending : List UInt8) (recycle : Bool)
  /-- It has ended, which `waitpid` may not tell at once. -/
  | exited (status : WaitStatus) (reapable : Bool)

/-- `_PoolChild`, its process and its two pipes. -/
structure Child where
  number : Nat
  phase : ChildPhase
  jobPipe : List UInt8
  resultPipe : List UInt8
  recycling : Bool
  reaped : Bool

def Child.start (number : Nat) : Child :=
  ⟨number, .reading [], [], [], false, false⟩

def Child.hasExited (child : Child) : Bool :=
  match child.phase with
  | .exited _ _ => true
  | _ => false

/-- `_pool_child_alive`. -/
def Child.isAlive (child : Child) : Bool :=
  match child.phase with
  | .exited _ reapable => !child.reaped && !reapable
  | _ => !child.reaped

/-- Where the parent stands in `_prefork_execute`. -/
inductive ParentPhase where
  | idle
  | sending (job : Job) (pending : List UInt8) (again : Bool)
  /-- At the top of the loop of `_await_child`. -/
  | waiting (job : Job)
  /-- In `read_frame`, since the result pipe was readable. -/
  | reading (job : Job) (got : List UInt8)
  /-- Before `waitpid`, since there was no report. -/
  | probing (job : Job)
  | settling (job : Job) (report : Option Report) (status : Nat)

/-- A job begun by a child. -/
structure Execution where
  attempt : Nat
  child : Nat
  deriving DecidableEq

/-- A report written by a child for a job. -/
structure Written where
  attempt : Nat
  child : Nat
  report : Report
  deriving DecidableEq

/-- A call of `_prefork_execute` that returned what `_await_child` made of the
end of a child or of a report. -/
structure Conclusion where
  attempt : Nat
  report : Option Report
  status : Nat
  row : Row
  result : Result
  deriving DecidableEq

structure State where
  parent : ParentPhase
  pool : Option Child
  rows : Nat → Row
  /-- The attempts and the children so far. -/
  attempts : Nat
  children : Nat
  executions : List Execution
  reports : List Written
  conclusions : List Conclusion

variable (jobs : Pickle Job) (reports : Pickle Report)

/-! ## The parent -/

/-- `_ensure_pool_child`. -/
def State.ensure (state : State) : State :=
  match state.pool with
  | some child =>
      if child.isAlive then state
      else
        { state with
          pool := some (.start state.children)
          children := state.children + 1 }
  | none =>
      { state with
        pool := some (.start state.children)
        children := state.children + 1 }

/-- `_prefork_execute` of a job just claimed.  A job that cannot be sent runs in
a fork of its own. -/
def State.hand (state : State) (id : Nat) : Option State :=
  match state.parent with
  | .idle =>
      let job : Job := ⟨id, state.attempts⟩
      let next := { state with attempts := state.attempts + 1 }
      match jobs.encodeFrame job with
      | some bytes =>
          some { next.ensure with parent := .sending job bytes false }
      | none =>
          some { next with
            children := state.children + 1
            executions := state.executions ++
              [⟨job.attempt, state.children⟩] }
  | _ => none

/-- `write_all` of the job writes a piece, or meets a broken pipe: then the job
is sent once more, to a fresh child. -/
def State.send (state : State) (count : Nat) : Option State :=
  match state.parent, state.pool with
  | .sending job pending again, some child =>
      if child.hasExited then
        if again then some { state with parent := .idle }
        else
          match jobs.encodeFrame job with
          | some bytes =>
              some { State.ensure { state with pool := none } with
                parent := .sending job bytes true }
          | none => none
      else if 0 < count then
        let rest := pending.drop count
        some { state with
          pool := some { child with
            jobPipe := child.jobPipe ++ pending.take count }
          parent :=
            if rest.isEmpty then .waiting job else .sending job rest again }
      else none
  | _, _ => none

/-- `_poll_pool_child` looks whether the result pipe is readable: it holds
bytes, or it has ended. -/
def State.poll (state : State) : Option State :=
  match state.parent, state.pool with
  | .waiting job, some child =>
      if !child.resultPipe.isEmpty || child.hasExited then
        some { state with parent := .reading job [] }
      else some { state with parent := .probing job }
  | _, _ => none

/-- `read_frame` reads a piece, or finds that the pipe has ended. -/
def State.read (state : State) (count : Nat) : Option State :=
  match state.parent, state.pool with
  | .reading job got, some child =>
      if child.resultPipe.isEmpty then
        if child.hasExited then some { state with parent := .probing job }
        else none
      else if 0 < count && count ≤ wanted got then
        let taken := got ++ child.resultPipe.take count
        let left := { child with resultPipe := child.resultPipe.drop count }
        if wanted taken = 0 then
          match reports.decodeFrame taken with
          | some report =>
              some { state with
                pool := some { left with recycling := report.recycle }
                parent := .settling job (some report) report.exitCode }
          | none => none
        else
          some { state with pool := some left, parent := .reading job taken }
      else none
  | _, _ => none

/-- `_poll_forked_child`. -/
def State.probe (state : State) : Option State :=
  match state.parent, state.pool with
  | .probing job, some child =>
      if child.reaped then
        some { state with parent := .settling job none 1 }
      else
        match child.phase with
        | .exited status true =>
            some { state with
              pool := some { child with reaped := true }
              parent := .settling job none (exitStatus status) }
        | _ => some { state with parent := .waiting job }
  | _, _ => none

/-- The safety net or a revoke kills the child and reaps it. -/
def State.kill (state : State) : Option State :=
  match state.parent with
  | .waiting _ => some { state with parent := .idle, pool := none }
  | _ => none

/-- The `finally` of `_prefork_execute`. -/
def State.finish (state : State) (child : Child) : State :=
  { state with
    parent := .idle
    pool := if child.recycling || !child.isAlive then none else some child }

/-- `_await_child` returns, or raises once the job is over. -/
def State.conclude (state : State) (raises : Bool) : Option State :=
  match state.parent, state.pool with
  | .settling job report status, some child =>
      if raises then some (state.finish child)
      else
        let row := state.rows job.id
        some { state.finish child with
          conclusions := state.conclusions ++
            [⟨job.attempt, report, status, row,
              Prefork.conclude report status row⟩] }
  | _, _ => none

/-! ## The child -/

/-- `read_frame` of a job reads a piece.  A job read in full is run. -/
def State.fetch (state : State) (count : Nat) : Option State :=
  match state.pool with
  | some child =>
      match child.phase with
      | .reading got =>
          if !child.jobPipe.isEmpty && 0 < count && count ≤ wanted got then
            let taken := got ++ child.jobPipe.take count
            let left := { child with jobPipe := child.jobPipe.drop count }
            if wanted taken = 0 then
              match jobs.decodeFrame taken with
              | some job =>
                  some { state with
                    pool := some { left with phase := .running job }
                    executions := state.executions ++
                      [⟨job.attempt, child.number⟩] }
              | none => none
            else
              some { state with
                pool := some { left with phase := .reading taken } }
          else none
      | _ => none
  | none => none

/-- The job is over, and its report is encoded. -/
def State.report (state : State) (report : Report) : Option State :=
  match state.pool with
  | some child =>
      match child.phase with
      | .running job =>
          match reports.encodeFrame report with
          | some bytes =>
              some { state with
                pool := some { child with
                  phase := .reporting bytes report.recycle }
                reports := state.reports ++
                  [⟨job.attempt, child.number, report⟩] }
          | none => none
      | _ => none
  | none => none

/-- `write_all` of the report writes a piece.  After the last the child reads
its next job, or leaves. -/
def State.write (state : State) (count : Nat) : Option State :=
  match state.pool with
  | some child =>
      match child.phase with
      | .reporting pending recycle =>
          if 0 < count then
            let rest := pending.drop count
            some { state with
              pool := some { child with
                resultPipe := child.resultPipe ++ pending.take count
                phase :=
                  if rest.isEmpty then
                    if recycle then .exited (.exited 0) false else .reading []
                  else .reporting rest recycle } }
          else none
      | _ => none
  | none => none

/-- The child ends, at any point of its loop. -/
def Child.die (child : Child) (status : WaitStatus) : Child :=
  match child.phase with
  | .exited _ _ => child
  | _ => { child with phase := .exited status false }

/-- `waitpid` can tell that the child has ended. -/
def Child.settle (child : Child) : Child :=
  match child.phase with
  | .exited status _ => { child with phase := .exited status true }
  | _ => child

/-! ## Runs -/

inductive Action where
  | hand (id : Nat)
  | send (count : Nat)
  | poll
  | read (count : Nat)
  | probe
  | kill
  | conclude (raises : Bool)
  | fetch (count : Nat)
  | report (report : Report)
  | write (count : Nat)
  | die (status : WaitStatus)
  | settle
  /-- The child, the parent or anyone else writes the row of a job. -/
  | row (id : Nat) (row : Row)

def act : Machine State Action := fun state action =>
  match action with
  | .hand id => state.hand jobs id
  | .send count => state.send jobs count
  | .poll => state.poll
  | .read count => state.read reports count
  | .probe => state.probe
  | .kill => state.kill
  | .conclude raises => state.conclude raises
  | .fetch count => state.fetch jobs count
  | .report report => state.report reports report
  | .write count => state.write count
  | .die status => some { state with pool := state.pool.map (·.die status) }
  | .settle => some { state with pool := state.pool.map (·.settle) }
  | .row id row =>
      some { state with rows := Function.update state.rows id row }

def initial : State where
  parent := .idle
  pool := none
  rows := fun _ => .missing
  attempts := 0
  children := 0
  executions := []
  reports := []
  conclusions := []

end Sqlery.Workers.Prefork
