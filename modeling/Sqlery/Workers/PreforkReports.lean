import Mathlib.Data.List.Nodup
import Sqlery.Workers.Prefork

/-!
# Reports of the prefork child

The bytes between parent and child are at any time those of one job or of one
report, so that a report is always that of the job the parent waits for.
-/

namespace Sqlery.Workers.Prefork

open Network Runs

variable {jobs : Pickle Job} {reports : Pickle Report}

/-! ## The bytes in flight -/

/-- A child that has nothing to do, and nothing unread. -/
def Resting (child : Child) : Prop :=
  child.resultPipe = [] ∧
    match child.phase with
    | .reading got => got = [] ∧ child.jobPipe = []
    | .exited _ _ => True
    | _ => False

/-- A child that is being sent a job, of which more is to come. -/
def Receiving (child : Child) (bytes pending : List UInt8) : Prop :=
  child.resultPipe = [] ∧
    match child.phase with
    | .reading got => got ++ child.jobPipe ++ pending = bytes
    | .exited _ _ => True
    | _ => False

/-- The attempt of a job is one of those made, and no child has begun it. -/
def Fresh (state : State) (job : Job) : Prop :=
  job.attempt < state.attempts ∧
    job.attempt ∉ state.executions.map (·.attempt)

/-- The bytes of a report a child has written for a job. -/
def ReportBytes (reports : Pickle Report) (state : State) (job : Job)
    (bytes : List UInt8) : Prop :=
  ∃ written ∈ state.reports, written.attempt = job.attempt ∧
    reports.encodeFrame written.report = some bytes

/-- A job that has not been read in full. -/
def Unread (jobs : Pickle Job) (state : State) (job : Job) (child : Child)
    (got : List UInt8) : Prop :=
  jobs.encodeFrame job = some (got ++ child.jobPipe) ∧ child.jobPipe ≠ [] ∧
    Fresh state job

/-- A child that has been sent a job, of whose report the parent has read some
bytes. -/
def Working (jobs : Pickle Job) (reports : Pickle Report) (state : State)
    (child : Child) (job : Job) (read : List UInt8) : Prop :=
  match child.phase with
  | .reading got =>
      (Unread jobs state job child got ∧ read ++ child.resultPipe = []) ∨
      ((got = [] ∧ child.jobPipe = []) ∧
        ReportBytes reports state job (read ++ child.resultPipe))
  | .running running => running = job ∧ child.jobPipe = [] ∧
      read ++ child.resultPipe = [] ∧
      ⟨job.attempt, child.number⟩ ∈ state.executions ∧
      job.attempt ∉ state.reports.map (·.attempt)
  | .reporting pending _ => child.jobPipe = [] ∧ pending ≠ [] ∧
      ReportBytes reports state job (read ++ child.resultPipe ++ pending)
  | .exited _ _ => read ++ child.resultPipe = [] ∨
      ∃ bytes, ReportBytes reports state job bytes ∧
        read ++ child.resultPipe <+: bytes

/-- A report that is used was written for the job it is used for. -/
def OwnReport (written : List Written) (attempt : Nat) (report : Option Report)
    (status : Nat) : Prop :=
  ∀ known, report = some known →
    (∃ entry ∈ written, entry.attempt = attempt ∧ entry.report = known) ∧
      status = known.exitCode

/-- What the parent's place says of the child. -/
def Holds (jobs : Pickle Job) (reports : Pickle Report) (state : State)
    (child : Child) : Prop :=
  match state.parent with
  | .idle => Resting child
  | .sending job pending _ => pending ≠ [] ∧ Fresh state job ∧
      ∃ bytes, jobs.encodeFrame job = some bytes ∧
        Receiving child bytes pending
  | .waiting job => Working jobs reports state child job []
  | .probing job => Working jobs reports state child job []
  | .reading job got => Working jobs reports state child job got
  | .settling job report status =>
      (child.reaped = true ∨ Resting child) ∧
        OwnReport state.reports job.attempt report status

/-- Each job is begun by at most one child, each report was written by the
child that began its job, and the report that a call used is that of its own
job. -/
structure Logged (executions : List Execution) (written : List Written)
    (conclusions : List Conclusion) : Prop where
  once : (executions.map (·.attempt)).Nodup
  single : (written.map (·.attempt)).Nodup
  begun : ∀ entry ∈ written, ⟨entry.attempt, entry.child⟩ ∈ executions
  own : ∀ conclusion ∈ conclusions,
    OwnReport written conclusion.attempt conclusion.report conclusion.status
  result : ∀ conclusion ∈ conclusions, conclusion.result =
    conclude conclusion.report conclusion.status conclusion.row

structure Sound (jobs : Pickle Job) (reports : Pickle Report) (state : State) :
    Prop where
  child : ∀ child, state.pool = some child →
    Holds jobs reports state child ∧
      (child.reaped = true → child.hasExited = true)
  below : ∀ execution ∈ state.executions, execution.attempt < state.attempts
  logged : Logged state.executions state.reports state.conclusions

theorem sound_of_child {state : State} {child : Child}
    (pool : state.pool = some child) (holds : Holds jobs reports state child)
    (reaped : child.reaped = true → child.hasExited = true)
    (below : ∀ execution ∈ state.executions,
      execution.attempt < state.attempts)
    (logged : Logged state.executions state.reports state.conclusions) :
    Sound jobs reports state where
  child := by
    intro other found
    cases pool.symm.trans found
    exact ⟨holds, reaped⟩
  below := below
  logged := logged

theorem sound_of_none {state : State} (gone : state.pool = none)
    (below : ∀ execution ∈ state.executions,
      execution.attempt < state.attempts)
    (logged : Logged state.executions state.reports state.conclusions) :
    Sound jobs reports state where
  child := by
    intro child found
    cases gone.symm.trans found
  below := below
  logged := logged

theorem sound_initial : Sound jobs reports initial := by
  refine sound_of_none rfl ?_ ⟨List.nodup_nil, List.nodup_nil, ?_, ?_, ?_⟩
  · intro execution member
    cases member
  · intro entry member
    cases member
  · intro conclusion member
    cases member
  · intro conclusion member
    cases member

variable {state : State}

theorem Sound.fresh (sound : Sound jobs reports state) (id : Nat) :
    Fresh { state with attempts := state.attempts + 1 }
      ⟨id, state.attempts⟩ := by
  refine ⟨Nat.lt_succ_self _, ?_⟩
  intro member
  obtain ⟨execution, known, same⟩ := List.mem_map.mp member
  have earlier := sound.below execution known
  simp only at same
  omega

/-- Taking a piece of a pipe moves the line between what was read and what was
not. -/
theorem take_append_drop (got pipe : List UInt8) (count : Nat) :
    got ++ pipe.take count ++ pipe.drop count = got ++ pipe := by
  rw [List.append_assoc, List.take_append_drop]

theorem phase_of_hasExited {child : Child} (exited : child.hasExited = true) :
    ∃ status reapable, child.phase = .exited status reapable := by
  unfold Child.hasExited at exited
  cases phase : child.phase with
  | exited status reapable => exact ⟨status, reapable, rfl⟩
  | reading got => simp [phase] at exited
  | running job => simp [phase] at exited
  | reporting pending recycle => simp [phase] at exited

/-! ## Steps of the parent -/

theorem resting_start (number : Nat) : Resting (.start number) :=
  ⟨rfl, rfl, rfl⟩

theorem Resting.receives {child : Child} (resting : Resting child)
    (bytes : List UInt8) : Receiving child bytes bytes := by
  obtain ⟨nothing, rests⟩ := resting
  refine ⟨nothing, ?_⟩
  cases phase : child.phase with
  | reading got =>
      simp only [phase] at rests
      simp [rests.1, rests.2]
  | running job => simp [phase] at rests
  | reporting pending recycle => simp [phase] at rests
  | exited status reapable => trivial

/-- The child that a job is sent to. -/
theorem ensure_eq (resting : ∀ child, state.pool = some child →
      Resting child ∧ (child.reaped = true → child.hasExited = true)) :
    ∃ child children,
      state.ensure = { state with pool := some child, children := children } ∧
        Resting child ∧ (child.reaped = true → child.hasExited = true) := by
  have started : ∃ child children,
      { state with
        pool := some (.start state.children)
        children := state.children + 1 } =
        { state with pool := some child, children := children } ∧
        Resting child ∧ (child.reaped = true → child.hasExited = true) := by
    refine ⟨.start state.children, state.children + 1, rfl,
      resting_start _, ?_⟩
    intro wrong
    cases wrong
  unfold State.ensure
  cases found : state.pool with
  | none => exact started
  | some child =>
      cases alive : child.isAlive with
      | false => simpa only [alive, Bool.false_eq_true, if_false] using started
      | true =>
          refine ⟨child, state.children, ?_, resting child found⟩
          simp [alive, ← found]

/-- A job is sent to a child that rests. -/
theorem sound_sending {child : Child} {job : Job} {bytes : List UInt8}
    {again : Bool} {children : Nat}
    (encoded : jobs.encodeFrame job = some bytes) (fresh : Fresh state job)
    (resting : Resting child)
    (reaped : child.reaped = true → child.hasExited = true)
    (below : ∀ execution ∈ state.executions,
      execution.attempt < state.attempts)
    (logged : Logged state.executions state.reports state.conclusions) :
    Sound jobs reports { state with
      parent := .sending job bytes again
      pool := some child
      children := children } := by
  refine sound_of_child rfl ?_ reaped below logged
  refine ⟨?_, fresh, bytes, encoded, resting.receives bytes⟩
  intro empty
  exact jobs.encodeFrame_ne_nil (empty ▸ encoded)

theorem sound_hand {next : State} {id : Nat}
    (sound : Sound jobs reports state)
    (taken : state.hand jobs id = some next) : Sound jobs reports next := by
  unfold State.hand at taken
  cases parent : state.parent with
  | idle =>
      simp only [parent] at taken
      have resting : ∀ child, state.pool = some child → Resting child ∧
          (child.reaped = true → child.hasExited = true) := by
        intro child found
        obtain ⟨holds, reaped⟩ := sound.child child found
        simp only [Holds, parent] at holds
        exact ⟨holds, reaped⟩
      have below : ∀ execution ∈ state.executions,
          execution.attempt < state.attempts + 1 := by
        intro execution member
        exact Nat.lt_succ_of_lt (sound.below execution member)
      have fresh := sound.fresh id
      cases encoded : jobs.encodeFrame ⟨id, state.attempts⟩ with
      | some bytes =>
          simp only [encoded, Option.some.injEq] at taken
          subst taken
          obtain ⟨child, children, same, rests, reaped⟩ :=
            @ensure_eq { state with
              parent := .idle
              attempts := state.attempts + 1 } resting
          rw [same]
          exact @sound_sending _ _ { state with
            parent := .idle
            attempts := state.attempts + 1 } _ _ _ _ _ encoded fresh rests
            reaped below sound.logged
      | none =>
          simp only [encoded, Option.some.injEq] at taken
          subst taken
          obtain ⟨once, single, begun, own, result⟩ := sound.logged
          refine ⟨?_, ?_, ?_, single, ?_, own, result⟩
          · intro child found
            exact resting child found
          · intro execution member
            rcases List.mem_append.mp member with old | new
            · exact below execution old
            · cases List.mem_singleton.mp new
              exact Nat.lt_succ_self _
          · rw [List.map_append]
            exact once.append (List.nodup_singleton _)
              (List.disjoint_singleton.mpr fresh.2)
          · intro entry member
            exact List.mem_append_left _ (begun entry member)
  | _ => simp [parent] at taken

theorem sound_send {next : State} {count : Nat}
    (sound : Sound jobs reports state)
    (taken : state.send jobs count = some next) :
    Sound jobs reports next := by
  unfold State.send at taken
  cases parent : state.parent with
  | sending job pending again =>
      cases pool : state.pool with
      | none => simp [parent, pool] at taken
      | some child =>
          obtain ⟨holds, reaped⟩ := sound.child child pool
          simp only [Holds, parent] at holds
          obtain ⟨more, fresh, bytes, encoded, nothing, receives⟩ := holds
          simp only [parent, pool] at taken
          cases exited : child.hasExited with
          | true =>
              rw [if_pos exited] at taken
              split at taken
              · -- the second pipe is broken too, and the call raises
                cases taken
                refine sound_of_child rfl ⟨nothing, ?_⟩ reaped sound.below
                  sound.logged
                obtain ⟨status, reapable, phase⟩ := phase_of_hasExited exited
                simp [phase]
              · simp only [encoded, Option.some.injEq] at taken
                subst taken
                refine sound_sending encoded fresh (resting_start _) ?_
                  sound.below sound.logged
                intro wrong
                cases wrong
          | false =>
              rw [if_neg (by simp [exited])] at taken
              split at taken
              case isFalse => cases taken
              case isTrue =>
                cases taken
                cases phase : child.phase with
                | running running => simp [phase] at receives
                | reporting left recycle => simp [phase] at receives
                | exited status reapable =>
                    simp [Child.hasExited, phase] at exited
                | reading got =>
                    simp only [phase] at receives
                    refine sound_of_child rfl ?_ ?_ sound.below sound.logged
                    · by_cases last : pending.drop count = []
                      · have whole : pending.take count = pending := by
                          have split := List.take_append_drop count pending
                          rwa [last, List.append_nil] at split
                        simp only [Holds, last, List.isEmpty_nil, if_true,
                          Working]
                        refine .inl ⟨⟨?_, ?_, fresh⟩, nothing⟩
                        · rw [whole, encoded, ← receives, List.append_assoc]
                        · rw [whole]
                          simp [more]
                      · have going : (pending.drop count).isEmpty = false := by
                          simpa [List.isEmpty_eq_false_iff] using last
                        simp only [Holds, going, Bool.false_eq_true, if_false]
                        refine ⟨last, fresh, bytes, encoded, nothing, ?_⟩
                        show got ++ (child.jobPipe ++ pending.take count) ++
                          pending.drop count = bytes
                        rw [← receives, ← List.append_assoc, take_append_drop]
                    · intro wrong
                      have ended := reaped wrong
                      rw [exited] at ended
                      cases ended
  | _ => simp [parent] at taken

theorem sound_poll {next : State} (sound : Sound jobs reports state)
    (taken : state.poll = some next) : Sound jobs reports next := by
  unfold State.poll at taken
  cases parent : state.parent with
  | waiting job =>
      cases pool : state.pool with
      | none => simp [parent, pool] at taken
      | some child =>
          simp only [parent, pool] at taken
          obtain ⟨holds, reaped⟩ := sound.child child pool
          simp only [Holds, parent] at holds
          split at taken
          · cases taken
            exact sound_of_child rfl holds reaped sound.below sound.logged
          · cases taken
            exact sound_of_child rfl holds reaped sound.below sound.logged
  | _ => simp [parent] at taken

/-- What the parent can read while it waits belongs to the report of its
job. -/
theorem Working.readable {child : Child} {job : Job} {read : List UInt8}
    (working : Working jobs reports state child job read)
    (unread : child.resultPipe ≠ []) :
    ∃ bytes, ReportBytes reports state job bytes ∧
      read ++ child.resultPipe <+: bytes := by
  have something : read ++ child.resultPipe ≠ [] := by
    intro empty
    exact unread (List.append_eq_nil_iff.mp empty).2
  unfold Working at working
  cases phase : child.phase with
  | reading got =>
      simp only [phase] at working
      rcases working with ⟨-, nothing⟩ | ⟨-, written⟩
      · exact absurd nothing something
      · exact ⟨_, written, List.prefix_rfl⟩
  | running running =>
      simp only [phase] at working
      exact absurd working.2.2.1 something
  | reporting pending recycle =>
      simp only [phase] at working
      exact ⟨_, working.2.2, List.prefix_append _ _⟩
  | exited status reapable =>
      simp only [phase] at working
      rcases working with nothing | known
      · exact absurd nothing something
      · exact known

/-- A piece moves from the pipe to what has been read. -/
theorem Working.reads {child : Child} {job : Job} {read : List UInt8}
    (working : Working jobs reports state child job read) (count : Nat) :
    Working jobs reports state
      { child with resultPipe := child.resultPipe.drop count } job
      (read ++ child.resultPipe.take count) := by
  unfold Working at working ⊢
  cases phase : child.phase with
  | reading got =>
      simp only [phase] at working
      simp only [take_append_drop]
      exact working
  | running running =>
      simp only [phase] at working
      simp only [take_append_drop]
      exact working
  | reporting pending recycle =>
      simp only [phase] at working
      simp only [take_append_drop]
      exact working
  | exited status reapable =>
      simp only [phase] at working
      simp only [take_append_drop]
      exact working

/-- Once its report has been read in full, a child has nothing to do. -/
theorem Working.rests {child : Child} {job : Job} {read bytes : List UInt8}
    (working : Working jobs reports state child job read)
    (single : (state.reports.map (·.attempt)).Nodup)
    (written : ReportBytes reports state job bytes) (whole : read = bytes) :
    Resting child := by
  subst whole
  obtain ⟨entry, known, same, encoded⟩ := written
  have unique : ∀ other, ReportBytes reports state job other →
      other = read := by
    intro other found
    obtain ⟨twin, member, also, decoded⟩ := found
    have equal := List.inj_on_of_nodup_map single member known
      (also.trans same.symm)
    rw [equal, encoded] at decoded
    exact (Option.some.inj decoded).symm
  have something : read ≠ [] := by
    intro empty
    exact reports.encodeFrame_ne_nil (empty ▸ encoded)
  have left : ∀ rest, read ++ rest = read → rest = [] := by
    intro rest equal
    simpa using equal
  unfold Working at working
  unfold Resting
  cases phase : child.phase with
  | reading got =>
      simp only [phase] at working
      rcases working with ⟨-, nothing⟩ | ⟨idle, found⟩
      · exact absurd (List.append_eq_nil_iff.mp nothing).1 something
      · exact ⟨left _ (unique _ found), idle⟩
  | running running =>
      simp only [phase] at working
      exact absurd (List.append_eq_nil_iff.mp working.2.2.1).1 something
  | reporting pending recycle =>
      simp only [phase] at working
      have equal := unique _ working.2.2
      rw [List.append_assoc] at equal
      exact absurd (List.append_eq_nil_iff.mp (left _ equal)).2 working.2.1
  | exited status reapable =>
      simp only [phase] at working
      refine ⟨?_, trivial⟩
      rcases working with nothing | ⟨other, found, within⟩
      · exact (List.append_eq_nil_iff.mp nothing).2
      · rw [unique other found] at within
        have longer := within.length_le
        rw [List.length_append] at longer
        exact List.length_eq_zero_iff.mp (by omega)

theorem sound_read {next : State} {count : Nat}
    (sound : Sound jobs reports state)
    (taken : state.read reports count = some next) :
    Sound jobs reports next := by
  unfold State.read at taken
  cases parent : state.parent with
  | reading job got =>
      cases pool : state.pool with
      | none => simp [parent, pool] at taken
      | some child =>
          obtain ⟨holds, reaped⟩ := sound.child child pool
          simp only [Holds, parent] at holds
          simp only [parent, pool] at taken
          split at taken
          · -- the pipe holds nothing, so it has ended
            rename_i empty
            split at taken
            case isFalse => cases taken
            case isTrue exited =>
              cases taken
              refine sound_of_child rfl ?_ reaped sound.below sound.logged
              obtain ⟨status, reapable, phase⟩ := phase_of_hasExited exited
              have nothing := List.isEmpty_iff.mp empty
              simp only [Holds, Working, phase]
              exact .inl (by simp [nothing])
          · rename_i unread
            split at taken
            case isFalse => cases taken
            case isTrue =>
              have something : child.resultPipe ≠ [] := by
                intro empty
                exact unread (List.isEmpty_iff.mpr empty)
              have moved := holds.reads count
              obtain ⟨bytes, written, within⟩ := holds.readable something
              have part : got ++ child.resultPipe.take count <+: bytes := by
                refine List.IsPrefix.trans ?_ within
                rw [← take_append_drop got child.resultPipe count]
                exact List.prefix_append _ _
              obtain ⟨entry, known, same, encoded⟩ := written
              split at taken
              · rename_i complete
                have whole := (reports.wanted_eq_zero_iff encoded part).mp
                  complete
                rw [whole, reports.decodeFrame_encodeFrame encoded] at taken
                cases taken
                refine sound_of_child rfl ⟨.inr ?_, ?_⟩ reaped sound.below
                  sound.logged
                · exact moved.rests sound.logged.single
                    ⟨entry, known, same, encoded⟩ whole
                · intro report equal
                  cases equal
                  exact ⟨⟨entry, known, same, rfl⟩, rfl⟩
              · cases taken
                exact sound_of_child rfl moved reaped sound.below sound.logged
  | _ => simp [parent] at taken

theorem sound_probe {next : State} (sound : Sound jobs reports state)
    (taken : state.probe = some next) : Sound jobs reports next := by
  have noReport : ∀ attempt status,
      OwnReport state.reports attempt none status := by
    intro attempt status known wrong
    cases wrong
  unfold State.probe at taken
  cases parent : state.parent with
  | probing job =>
      cases pool : state.pool with
      | none => simp [parent, pool] at taken
      | some child =>
          obtain ⟨holds, reaped⟩ := sound.child child pool
          simp only [Holds, parent] at holds
          simp only [parent, pool] at taken
          split at taken
          · rename_i already
            cases taken
            exact sound_of_child rfl ⟨.inl already, noReport _ _⟩ reaped
              sound.below sound.logged
          · split at taken
            · rename_i status phase
              cases taken
              refine sound_of_child rfl ⟨.inl rfl, noReport _ _⟩ ?_
                sound.below sound.logged
              intro _
              simp [Child.hasExited, phase]
            · cases taken
              exact sound_of_child rfl holds reaped sound.below sound.logged
  | _ => simp [parent] at taken

theorem sound_kill {next : State} (sound : Sound jobs reports state)
    (taken : state.kill = some next) : Sound jobs reports next := by
  unfold State.kill at taken
  cases parent : state.parent with
  | waiting job =>
      simp only [parent, Option.some.injEq] at taken
      subst taken
      exact sound_of_none rfl sound.below sound.logged
  | _ => simp [parent] at taken

/-- A child that is kept has no report to be read. -/
theorem sound_finish {child : Child} {conclusions : List Conclusion}
    (rests : child.reaped = true ∨ Resting child)
    (reaped : child.reaped = true → child.hasExited = true)
    (below : ∀ execution ∈ state.executions,
      execution.attempt < state.attempts)
    (logged : Logged state.executions state.reports conclusions) :
    Sound jobs reports
      { state.finish child with conclusions := conclusions } := by
  cases leaves : (child.recycling || !child.isAlive) with
  | true =>
      refine sound_of_none ?_ below logged
      simp [State.finish, leaves]
  | false =>
      have pool : (state.finish child).pool = some child := by
        simp [State.finish, leaves]
      refine sound_of_child pool ?_ reaped below logged
      simp only [Bool.or_eq_false_iff, Bool.not_eq_false'] at leaves
      rcases rests with gone | rests
      · have dead : child.isAlive = false := by
          unfold Child.isAlive
          split
          · simp [gone]
          · simp [gone]
        rw [leaves.2] at dead
        cases dead
      · exact rests

theorem sound_conclude {next : State} {raises : Bool}
    (sound : Sound jobs reports state)
    (taken : state.conclude raises = some next) :
    Sound jobs reports next := by
  unfold State.conclude at taken
  cases parent : state.parent with
  | settling job report status =>
      cases pool : state.pool with
      | none => simp [parent, pool] at taken
      | some child =>
          obtain ⟨holds, reaped⟩ := sound.child child pool
          simp only [Holds, parent] at holds
          obtain ⟨rests, own⟩ := holds
          simp only [parent, pool] at taken
          split at taken
          · cases taken
            exact sound_finish rests reaped sound.below sound.logged
          · cases taken
            refine sound_finish rests reaped sound.below ?_
            obtain ⟨once, single, begun, used, result⟩ := sound.logged
            refine ⟨once, single, begun, ?_, ?_⟩
            · intro conclusion member
              rcases List.mem_append.mp member with old | new
              · exact used conclusion old
              · cases List.mem_singleton.mp new
                exact own
            · intro conclusion member
              rcases List.mem_append.mp member with old | new
              · exact result conclusion old
              · cases List.mem_singleton.mp new
                rfl
  | _ => simp [parent] at taken

/-! ## Steps of the child -/

/-- A step of the child that leaves the parent and the attempts alone. -/
theorem Sound.child_step {child later : Child} {executions : List Execution}
    {written : List Written} (sound : Sound jobs reports state)
    (pool : state.pool = some child)
    (resting : Resting child → Resting later)
    (receiving : ∀ job bytes pending, pending ≠ [] → Fresh state job →
      jobs.encodeFrame job = some bytes → Receiving child bytes pending →
      Receiving later bytes pending ∧
        job.attempt ∉ executions.map (·.attempt))
    (working : ∀ job read, Working jobs reports state child job read →
      Working jobs reports
        { state with executions := executions, reports := written }
        later job read)
    (reaped : later.reaped = true →
      child.reaped = true ∧ later.hasExited = true)
    (grows : state.reports ⊆ written)
    (below : ∀ execution ∈ executions, execution.attempt < state.attempts)
    (logged : Logged executions written state.conclusions)
    (settled : child.reaped = true → later.reaped = true) :
    Sound jobs reports { state with
      pool := some later
      executions := executions
      reports := written } := by
  refine sound_of_child rfl ?_ (fun dead => (reaped dead).2) below logged
  obtain ⟨holds, -⟩ := sound.child child pool
  unfold Holds at holds ⊢
  cases parent : state.parent with
  | idle =>
      simp only [parent] at holds
      exact resting holds
  | sending job pending again =>
      simp only [parent] at holds
      obtain ⟨more, fresh, bytes, encoded, receives⟩ := holds
      obtain ⟨still, unbegun⟩ :=
        receiving job bytes pending more fresh encoded receives
      exact ⟨more, ⟨fresh.1, unbegun⟩, bytes, encoded, still⟩
  | waiting job =>
      simp only [parent] at holds
      exact working job [] holds
  | probing job =>
      simp only [parent] at holds
      exact working job [] holds
  | reading job got =>
      simp only [parent] at holds
      exact working job got holds
  | settling job report status =>
      simp only [parent] at holds
      obtain ⟨rests, own⟩ := holds
      refine ⟨?_, ?_⟩
      · rcases rests with gone | rests
        · exact .inl (settled gone)
        · exact .inr (resting rests)
      · intro known equal
        obtain ⟨⟨entry, member, same⟩, code⟩ := own known equal
        exact ⟨⟨entry, grows member, same⟩, code⟩

/-- The child has ended, or ends now. -/
theorem Working.ends {child : Child} {job : Job} {read : List UInt8}
    (working : Working jobs reports state child job read)
    (status : WaitStatus) (reapable : Bool) :
    Working jobs reports state
      { child with phase := .exited status reapable } job read := by
  show read ++ child.resultPipe = [] ∨
    ∃ bytes, ReportBytes reports state job bytes ∧
      read ++ child.resultPipe <+: bytes
  by_cases unread : child.resultPipe = []
  · unfold Working at working
    cases phase : child.phase with
    | reading got =>
        simp only [phase] at working
        rcases working with ⟨-, nothing⟩ | ⟨-, written⟩
        · exact .inl nothing
        · exact .inr ⟨_, written, List.prefix_rfl⟩
    | running running =>
        simp only [phase] at working
        exact .inl working.2.2.1
    | reporting pending recycle =>
        simp only [phase] at working
        exact .inr ⟨_, working.2.2, List.prefix_append _ _⟩
    | exited before _ =>
        simp only [phase] at working
        exact working
  · exact .inr (working.readable unread)

theorem sound_ends {child : Child} (sound : Sound jobs reports state)
    (pool : state.pool = some child) (status : WaitStatus) (reapable : Bool) :
    Sound jobs reports { state with
      pool := some { child with phase := .exited status reapable } } := by
  refine sound.child_step pool ?_ ?_ ?_ ?_ (List.Subset.refl _) sound.below
    sound.logged id
  · intro resting
    exact ⟨resting.1, trivial⟩
  · intro job bytes pending _ fresh _ receives
    exact ⟨⟨receives.1, trivial⟩, fresh.2⟩
  · intro job read working
    exact working.ends status reapable
  · intro dead
    exact ⟨dead, rfl⟩

theorem sound_die (sound : Sound jobs reports state) (status : WaitStatus) :
    Sound jobs reports
      { state with pool := state.pool.map (·.die status) } := by
  cases pool : state.pool with
  | none => exact sound_of_none rfl sound.below sound.logged
  | some child =>
      have ended := sound_ends sound pool status false
      have same : child.die status = child ∨
          child.die status = { child with phase := .exited status false } := by
        unfold Child.die
        split
        · exact .inl rfl
        · exact .inr rfl
      rw [Option.map_some]
      rcases same with same | same
      · rw [same, ← pool]
        exact sound
      · rw [same]
        exact ended

theorem sound_settle (sound : Sound jobs reports state) :
    Sound jobs reports { state with pool := state.pool.map (·.settle) } := by
  cases pool : state.pool with
  | none => exact sound_of_none rfl sound.below sound.logged
  | some child =>
      rw [Option.map_some]
      cases phase : child.phase with
      | exited status reapable =>
          have ended := sound_ends sound pool status true
          simpa only [Child.settle, phase] using ended
      | reading got =>
          simp only [Child.settle, phase, ← pool]
          exact sound
      | running job =>
          simp only [Child.settle, phase, ← pool]
          exact sound
      | reporting pending recycle =>
          simp only [Child.settle, phase, ← pool]
          exact sound

/-! ### A piece of a job -/

section

variable {child : Child} {got : List UInt8}

theorem not_resting_of_unread (phase : child.phase = .reading got)
    (unread : child.jobPipe ≠ []) : ¬ Resting child := by
  intro resting
  simp only [Resting, phase] at resting
  exact unread resting.2.2

theorem Sound.not_reaped (sound : Sound jobs reports state)
    (pool : state.pool = some child) (phase : child.phase = .reading got) :
    child.reaped = false := by
  cases dead : child.reaped with
  | false => rfl
  | true =>
      have ended := (sound.child child pool).2 dead
      simp [Child.hasExited, phase] at ended

/-- A job of which more is to come is not complete. -/
theorem not_complete_of_receiving (phase : child.phase = .reading got)
    {job : Job} {bytes pending : List UInt8} (more : pending ≠ [])
    (encoded : jobs.encodeFrame job = some bytes)
    (receives : Receiving child bytes pending) (count : Nat) :
    wanted (got ++ child.jobPipe.take count) ≠ 0 := by
  intro complete
  simp only [Receiving, phase] at receives
  have line := take_append_drop got child.jobPipe count
  have part : got ++ child.jobPipe.take count <+: bytes := by
    rw [← receives.2, ← line, List.append_assoc]
    exact List.prefix_append _ _
  have whole := (jobs.wanted_eq_zero_iff encoded part).mp complete
  have length := congrArg List.length
    ((whole.trans receives.2.symm).trans (congrArg (· ++ pending) line.symm))
  simp only [List.length_append] at length
  exact more (List.length_eq_zero_iff.mp (by omega))

/-- A job that is complete was not read before. -/
theorem Sound.unread (sound : Sound jobs reports state)
    (pool : state.pool = some child) (phase : child.phase = .reading got)
    (unread : child.jobPipe ≠ []) {count : Nat}
    (complete : wanted (got ++ child.jobPipe.take count) = 0) :
    ∃ job, Fresh state job ∧
      jobs.encodeFrame job = some (got ++ child.jobPipe) := by
  have busy := not_resting_of_unread phase unread
  have alive := sound.not_reaped pool phase
  have awaited : ∀ job read, Working jobs reports state child job read →
      ∃ job, Fresh state job ∧
        jobs.encodeFrame job = some (got ++ child.jobPipe) := by
    intro job read working
    simp only [Working, phase] at working
    rcases working with ⟨⟨encoded, -, fresh⟩, -⟩ | ⟨idle, -⟩
    · exact ⟨job, fresh, encoded⟩
    · exact absurd idle.2 unread
  obtain ⟨holds, -⟩ := sound.child child pool
  unfold Holds at holds
  cases parent : state.parent with
  | idle =>
      simp only [parent] at holds
      exact absurd holds busy
  | sending job pending again =>
      simp only [parent] at holds
      obtain ⟨more, -, bytes, encoded, receives⟩ := holds
      exact absurd complete
        (not_complete_of_receiving phase more encoded receives count)
  | waiting job =>
      simp only [parent] at holds
      exact awaited job [] holds
  | probing job =>
      simp only [parent] at holds
      exact awaited job [] holds
  | reading job read =>
      simp only [parent] at holds
      exact awaited job read holds
  | settling job report status =>
      simp only [parent, alive, Bool.false_eq_true, false_or] at holds
      exact absurd holds.1 busy

/-- The job has been read in full, and the child begins it. -/
theorem sound_begin (sound : Sound jobs reports state)
    (pool : state.pool = some child) (phase : child.phase = .reading got)
    (unread : child.jobPipe ≠ []) {count : Nat} {job : Job}
    (fresh : Fresh state job)
    (encoded : jobs.encodeFrame job = some (got ++ child.jobPipe))
    (complete : wanted (got ++ child.jobPipe.take count) = 0) :
    Sound jobs reports { state with
      pool := some { child with
        jobPipe := child.jobPipe.drop count
        phase := .running job }
      executions := state.executions ++ [⟨job.attempt, child.number⟩] } := by
  have alive := sound.not_reaped pool phase
  have line := take_append_drop got child.jobPipe count
  have part : got ++ child.jobPipe.take count <+: got ++ child.jobPipe := by
    rw [← line]
    exact List.prefix_append _ _
  have whole := (jobs.wanted_eq_zero_iff encoded part).mp complete
  have empty : child.jobPipe.drop count = [] := by
    have length := congrArg List.length (whole.trans line.symm)
    simp only [List.length_append] at length
    exact List.length_eq_zero_iff.mp (by omega)
  obtain ⟨once, single, begun, own, result⟩ := sound.logged
  refine sound.child_step pool ?_ ?_ ?_ ?_ (List.Subset.refl _) ?_
    ⟨?_, single, ?_, own, result⟩ id
  · intro resting
    exact absurd resting (not_resting_of_unread phase unread)
  · intro other bytes pending more _ known receives
    exact absurd complete
      (not_complete_of_receiving phase more known receives count)
  · intro other read working
    simp only [Working, phase] at working
    rcases working with ⟨⟨known, -, -⟩, nothing⟩ | ⟨idle, -⟩
    · have same : other = job := by
        have first := jobs.decodeFrame_encodeFrame known
        have second := jobs.decodeFrame_encodeFrame encoded
        exact Option.some.inj (first.symm.trans second)
      subst same
      refine ⟨rfl, empty, nothing, ?_, ?_⟩
      · exact List.mem_append_right _ List.mem_cons_self
      · intro member
        obtain ⟨entry, written, equal⟩ := List.mem_map.mp member
        exact fresh.2 (List.mem_map.mpr ⟨_, begun entry written, equal⟩)
    · exact absurd idle.2 unread
  · intro dead
    rw [show child.reaped = true from dead] at alive
    cases alive
  · intro execution member
    rcases List.mem_append.mp member with old | new
    · exact sound.below execution old
    · cases List.mem_singleton.mp new
      exact fresh.1
  · rw [List.map_append]
    exact once.append (List.nodup_singleton _)
      (List.disjoint_singleton.mpr fresh.2)
  · intro entry member
    exact List.mem_append_left _ (begun entry member)

/-- More of the job is to come. -/
theorem sound_piece (sound : Sound jobs reports state)
    (pool : state.pool = some child) (phase : child.phase = .reading got)
    (unread : child.jobPipe ≠ []) {count : Nat}
    (incomplete : wanted (got ++ child.jobPipe.take count) ≠ 0) :
    Sound jobs reports { state with
      pool := some { child with
        jobPipe := child.jobPipe.drop count
        phase := .reading (got ++ child.jobPipe.take count) } } := by
  have alive := sound.not_reaped pool phase
  have line := take_append_drop got child.jobPipe count
  refine sound.child_step pool ?_ ?_ ?_ ?_ (List.Subset.refl _) sound.below
    sound.logged id
  · intro resting
    exact absurd resting (not_resting_of_unread phase unread)
  · intro job bytes pending _ fresh _ receives
    simp only [Receiving, phase] at receives
    refine ⟨⟨receives.1, ?_⟩, fresh.2⟩
    show got ++ child.jobPipe.take count ++ child.jobPipe.drop count ++
      pending = bytes
    rw [line]
    exact receives.2
  · intro job read working
    simp only [Working, phase] at working
    rcases working with ⟨⟨encoded, -, fresh⟩, nothing⟩ | ⟨idle, -⟩
    · refine .inl ⟨⟨?_, ?_, fresh⟩, nothing⟩
      · show jobs.encodeFrame job =
          some (got ++ child.jobPipe.take count ++ child.jobPipe.drop count)
        rw [line]
        exact encoded
      · intro empty
        have left : child.jobPipe.drop count = [] := empty
        rw [left, List.append_nil] at line
        have part : got ++ child.jobPipe.take count <+:
            got ++ child.jobPipe := line ▸ List.prefix_rfl
        exact incomplete ((jobs.wanted_eq_zero_iff encoded part).mpr line)
    · exact absurd idle.2 unread
  · intro dead
    rw [show child.reaped = true from dead] at alive
    cases alive

end

theorem sound_fetch {next : State} {count : Nat}
    (sound : Sound jobs reports state)
    (taken : state.fetch jobs count = some next) :
    Sound jobs reports next := by
  unfold State.fetch at taken
  cases pool : state.pool with
  | none => simp [pool] at taken
  | some child =>
      cases phase : child.phase with
      | running job => simp [pool, phase] at taken
      | reporting pending recycle => simp [pool, phase] at taken
      | exited status reapable => simp [pool, phase] at taken
      | reading got =>
          simp only [pool, phase] at taken
          split at taken
          case isFalse => cases taken
          case isTrue guard =>
            have unread : child.jobPipe ≠ [] := by
              intro empty
              simp [empty] at guard
            split at taken
            · rename_i complete
              obtain ⟨job, fresh, encoded⟩ :=
                sound.unread pool phase unread complete
              have line := take_append_drop got child.jobPipe count
              have part : got ++ child.jobPipe.take count <+:
                  got ++ child.jobPipe := by
                rw [← line]
                exact List.prefix_append _ _
              have whole := (jobs.wanted_eq_zero_iff encoded part).mp complete
              rw [whole, jobs.decodeFrame_encodeFrame encoded] at taken
              cases taken
              exact sound_begin sound pool phase unread fresh encoded complete
            · rename_i incomplete
              cases taken
              exact sound_piece sound pool phase unread incomplete

/-! ### A report -/

section

variable {child : Child}

/-- A child that runs a job, or reports it, is awaited by the parent. -/
theorem Sound.awaited (sound : Sound jobs reports state)
    (pool : state.pool = some child) (alive : child.hasExited = false)
    (busy : ¬ Resting child)
    (sent : ∀ bytes pending, ¬ Receiving child bytes pending) :
    child.reaped = false ∧
      ∃ job read, Working jobs reports state child job read := by
  obtain ⟨holds, reaped⟩ := sound.child child pool
  have unreaped : child.reaped = false := by
    cases dead : child.reaped with
    | false => rfl
    | true =>
        have ended := reaped dead
        rw [alive] at ended
        cases ended
  refine ⟨unreaped, ?_⟩
  unfold Holds at holds
  cases parent : state.parent with
  | idle =>
      simp only [parent] at holds
      exact absurd holds busy
  | sending job pending again =>
      simp only [parent] at holds
      obtain ⟨-, -, bytes, -, receives⟩ := holds
      exact absurd receives (sent bytes pending)
  | waiting job =>
      simp only [parent] at holds
      exact ⟨job, [], holds⟩
  | probing job =>
      simp only [parent] at holds
      exact ⟨job, [], holds⟩
  | reading job read =>
      simp only [parent] at holds
      exact ⟨job, read, holds⟩
  | settling job report status =>
      simp only [parent, unreaped, Bool.false_eq_true, false_or] at holds
      exact absurd holds.1 busy

theorem sound_reporting {job : Job} {report : Report} {bytes : List UInt8}
    (sound : Sound jobs reports state) (pool : state.pool = some child)
    (phase : child.phase = .running job)
    (encoded : reports.encodeFrame report = some bytes) :
    Sound jobs reports { state with
      pool := some { child with phase := .reporting bytes report.recycle }
      reports := state.reports ++ [⟨job.attempt, child.number, report⟩] } := by
  have grows : state.reports ⊆
      state.reports ++ [⟨job.attempt, child.number, report⟩] :=
    List.subset_append_left _ _
  obtain ⟨unreaped, current, before, works⟩ := sound.awaited pool
    (by simp [Child.hasExited, phase]) (by simp [Resting, phase])
    (by simp [Receiving, phase])
  simp only [Working, phase] at works
  obtain ⟨same, -, -, execution, unwritten⟩ := works
  subst same
  obtain ⟨once, single, begun, own, result⟩ := sound.logged
  refine sound.child_step pool ?_ ?_ ?_ ?_ grows sound.below
    ⟨once, ?_, ?_, ?_, result⟩ id
  · intro resting
    simp [Resting, phase] at resting
  · intro other sent pending _ _ _ receives
    simp [Receiving, phase] at receives
  · intro other read working
    simp only [Working, phase] at working
    obtain ⟨same, empty, nothing, -, -⟩ := working
    subst same
    refine ⟨empty, ?_, ⟨job.attempt, child.number, report⟩, ?_, rfl, ?_⟩
    · intro empty
      exact reports.encodeFrame_ne_nil (empty ▸ encoded)
    · exact List.mem_append_right _ List.mem_cons_self
    · show reports.encodeFrame report =
        some (read ++ child.resultPipe ++ bytes)
      rw [nothing, List.nil_append, encoded]
  · intro dead
    rw [show child.reaped = true from dead] at unreaped
    cases unreaped
  · rw [List.map_append]
    exact single.append (List.nodup_singleton _)
      (List.disjoint_singleton.mpr unwritten)
  · intro entry member
    rcases List.mem_append.mp member with old | new
    · exact begun entry old
    · cases List.mem_singleton.mp new
      exact execution
  · intro conclusion member known equal
    obtain ⟨⟨entry, written, same⟩, code⟩ := own conclusion member known equal
    exact ⟨⟨entry, grows written, same⟩, code⟩

theorem sound_report {next : State} {report : Report}
    (sound : Sound jobs reports state)
    (taken : state.report reports report = some next) :
    Sound jobs reports next := by
  unfold State.report at taken
  cases pool : state.pool with
  | none => simp [pool] at taken
  | some child =>
      cases phase : child.phase with
      | reading got => simp [pool, phase] at taken
      | reporting pending recycle => simp [pool, phase] at taken
      | exited status reapable => simp [pool, phase] at taken
      | running job =>
          cases encoded : reports.encodeFrame report with
          | none => simp [pool, phase, encoded] at taken
          | some bytes =>
              simp only [pool, phase, encoded, Option.some.injEq] at taken
              subst taken
              exact sound_reporting sound pool phase encoded

/-- A piece of a report moves to the pipe.  After the last of them the child
has nothing to do, or has ended. -/
theorem sound_written {pending : List UInt8} {recycle : Bool} {count : Nat}
    {later : ChildPhase} (sound : Sound jobs reports state)
    (pool : state.pool = some child)
    (phase : child.phase = .reporting pending recycle)
    (moves : later = .reporting (pending.drop count) recycle ∧
        pending.drop count ≠ [] ∨
      (later = .reading [] ∨ later = .exited (.exited 0) false) ∧
        pending.drop count = []) :
    Sound jobs reports { state with
      pool := some { child with
        resultPipe := child.resultPipe ++ pending.take count
        phase := later } } := by
  obtain ⟨unreaped, -⟩ := sound.awaited pool
    (by simp [Child.hasExited, phase]) (by simp [Resting, phase])
    (by simp [Receiving, phase])
  refine sound.child_step pool ?_ ?_ ?_ ?_ (List.Subset.refl _) sound.below
    sound.logged id
  · intro resting
    simp [Resting, phase] at resting
  · intro other sent left _ _ _ receives
    simp [Receiving, phase] at receives
  · intro job read working
    simp only [Working, phase] at working
    obtain ⟨empty, -, written⟩ := working
    have line : read ++ (child.resultPipe ++ pending.take count) ++
        pending.drop count = read ++ child.resultPipe ++ pending := by
      rw [← List.append_assoc, take_append_drop]
    rw [← line] at written
    rcases moves with ⟨rfl, more⟩ | ⟨rfl | rfl, last⟩
    · exact ⟨empty, more, written⟩
    · rw [last, List.append_nil] at written
      exact .inr ⟨⟨rfl, empty⟩, written⟩
    · rw [last, List.append_nil] at written
      exact .inr ⟨_, written, List.prefix_rfl⟩
  · intro dead
    rw [show child.reaped = true from dead] at unreaped
    cases unreaped

theorem sound_write {next : State} {count : Nat}
    (sound : Sound jobs reports state)
    (taken : state.write count = some next) : Sound jobs reports next := by
  unfold State.write at taken
  cases pool : state.pool with
  | none => simp [pool] at taken
  | some child =>
      cases phase : child.phase with
      | reading got => simp [pool, phase] at taken
      | running job => simp [pool, phase] at taken
      | exited status reapable => simp [pool, phase] at taken
      | reporting pending recycle =>
          simp only [pool, phase] at taken
          split at taken
          case isFalse => cases taken
          case isTrue =>
            cases taken
            apply sound_written sound pool phase
            by_cases last : pending.drop count = []
            · refine .inr ⟨?_, last⟩
              cases recycle with
              | true => exact .inr (by simp [last])
              | false => exact .inl (by simp [last])
            · exact .inl ⟨by simp [last], last⟩

end

/-! ## Runs -/

theorem sound_row (sound : Sound jobs reports state) (rows : Nat → Row) :
    Sound jobs reports { state with rows := rows } where
  child := sound.child
  below := sound.below
  logged := sound.logged

theorem sound_step {next : State} {action : Action}
    (sound : Sound jobs reports state)
    (taken : act jobs reports state action = some next) :
    Sound jobs reports next := by
  cases action with
  | hand id => exact sound_hand sound taken
  | send count => exact sound_send sound taken
  | poll => exact sound_poll sound taken
  | read count => exact sound_read sound taken
  | probe => exact sound_probe sound taken
  | kill => exact sound_kill sound taken
  | conclude raises => exact sound_conclude sound taken
  | fetch count => exact sound_fetch sound taken
  | report report => exact sound_report sound taken
  | write count => exact sound_write sound taken
  | die status =>
      cases taken
      exact sound_die sound status
  | settle =>
      cases taken
      exact sound_settle sound
  | row id row =>
      cases taken
      exact sound_row sound _

theorem sound_of_reaches
    (reached : Reaches (act jobs reports) anyAction initial state) :
    Sound jobs reports state :=
  reached.invariant sound_initial
    (fun _ _ _ sound _ taken => sound_step sound taken)

/-- The report a call uses was written for its job, by the child that began
it, and no other child has begun it.  A job without a report is settled by its
row, by the exit status of its child, or as crashed. -/
structure Paired (state : State) : Prop where
  own : ∀ conclusion ∈ state.conclusions, ∀ report,
    conclusion.report = some report →
      ∃ child, ⟨conclusion.attempt, child, report⟩ ∈ state.reports ∧
        ⟨conclusion.attempt, child⟩ ∈ state.executions
  single : (state.reports.map (·.attempt)).Nodup
  once : (state.executions.map (·.attempt)).Nodup
  unreported : ∀ conclusion ∈ state.conclusions, conclusion.report = none →
    conclusion.result = readBack conclusion.status conclusion.row

theorem Logged.paired
    (logged : Logged state.executions state.reports state.conclusions) :
    Paired state where
  own := by
    intro conclusion member report used
    obtain ⟨⟨entry, written, same, own⟩, -⟩ :=
      logged.own conclusion member report used
    have begun := logged.begun entry written
    rw [same] at begun
    rw [← same, ← own]
    exact ⟨entry.child, written, same ▸ begun⟩
  single := logged.single
  once := logged.once
  unreported := by
    intro conclusion member missing
    rw [logged.result conclusion member, missing]
    rfl

theorem prefork_pairs (jobs : Pickle Job) (reports : Pickle Report)
    {state : State}
    (reached : Reaches (act jobs reports) anyAction initial state) :
    Paired state :=
  (sound_of_reaches reached).logged.paired

/-! ## Two runs -/

/-- A pickle of one object alone. -/
def pickleOne {Object : Type} [DecidableEq Object] (only : Object) :
    Pickle Object where
  dumps object := if object = only then some [7] else none
  loads payload := if payload = [7] then some only else none
  loads_dumps := by
    intro object payload dumped
    split at dumped
    · rename_i same
      cases dumped
      simp [same]
    · cases dumped

def oneJob : Pickle Job := pickleOne ⟨5, 0⟩

def oneReport : Pickle Report :=
  pickleOne ⟨0, false, none, some (true, "42")⟩

/-- A job goes through both pipes in two pieces. -/
def reportedRun : List Action :=
  [.hand 5, .send 3, .fetch 2, .send 2, .fetch 2, .fetch 1,
    .report ⟨0, false, none, some (true, "42")⟩, .write 2, .poll, .read 2,
    .write 3, .read 2, .read 1, .conclude false]

theorem prefork_pairs_reportedRun : ∃ state,
    runWhile (act oneJob oneReport) (fun _ _ => true) initial reportedRun =
      some state ∧
      state.conclusions = [⟨0, some ⟨0, false, none, some (true, "42")⟩, 0,
        .missing, ⟨true, "42", false⟩⟩] ∧ Paired state := by
  refine ⟨_, rfl, rfl, ?_⟩
  exact prefork_pairs oneJob oneReport
    (reaches_of_runWhile (fun _ _ _ => trivial)
      (show runWhile (act oneJob oneReport) (fun _ _ => true) initial
        reportedRun = some _ from rfl))

/-- A job whose child has ended without a report is marked as crashed. -/
def Crashes (state : State) : Prop :=
  ∀ conclusion ∈ state.conclusions,
    (∀ written ∈ state.reports, written.attempt ≠ conclusion.attempt) →
      conclusion.result.marked = true

/-- The child is killed after it has recorded the outcome, before it reports
it. -/
def recordedRun : List Action :=
  [.hand 5, .send 5, .fetch 4, .fetch 1, .row 5 (.success "42"),
    .die (.signaled 9), .settle, .poll, .read 1, .probe, .conclude false]

theorem recorded_not_crashed :
    ¬ ∀ state, Reaches (act oneJob oneReport) anyAction initial state →
      Crashes state := by
  intro always
  have ran : ∃ state,
      runWhile (act oneJob oneReport) (fun _ _ => true) initial recordedRun =
        some state ∧ state.reports = [] ∧
      state.conclusions =
        [⟨0, none, 1, .success "42", ⟨true, "42", false⟩⟩] :=
    ⟨_, rfl, rfl, rfl⟩
  obtain ⟨state, ran, unreported, concluded⟩ := ran
  have crashes := always state (reaches_of_runWhile (fun _ _ _ => trivial) ran)
  have marked := crashes _ (concluded ▸ List.mem_cons_self) (by
    intro written member
    rw [unreported] at member
    cases member)
  cases marked

end Sqlery.Workers.Prefork
