import Sqlery.Standalone.SoleSession

/-!
# The walk over the dependents

`release_dependents` with nobody beside it, as a walk: it re-judges the jobs
that wait on the one it comes to, and goes on with those it fails.  Every round
takes work off, or ends a live job for the work it adds, so the walk is over
after finitely many rounds whatever jobs wait on each other.
-/

namespace Sqlery.Standalone

open ReadCommitted
open Script

section Dependents

variable {cfg : Config} {db : Db}

/-- What `ancestorIds` reads. -/
def Db.ancestorIds (db : Db) :
    Nat → List JobId → Option JobId → List JobId
  | 0, ids, _ => ids
  | hops + 1, ids, parent =>
      match parent with
      | none => ids
      | some job =>
          if job = 0 || job ∈ ids then ids
          else db.ancestorIds hops (ids ++ [job])
            ((db.anywhere job).bind (·.parentJobId))

theorem sole_ancestorIds (hops : Nat) (ids : List JobId)
    (parent : Option JobId) :
    Sole cfg (ancestorIds hops ids parent) db db
      (db.ancestorIds hops ids parent) db db := by
  induction hops generalizing ids parent with
  | zero => exact .pure _
  | succ hops ih =>
      cases parent with
      | none => exact .pure _
      | some job =>
          simp only [ancestorIds, Db.ancestorIds]
          split
          · exact .pure _
          · exact .bind (.read _) (ih _ _)

/-- The jobs that wait on one of these. -/
def Db.dependents (db : Db) (ids : List JobId) : List (JobId × Time) :=
  ((db.blocked.rows.filter fun row => row.dependencyId ∈ ids).map
    fun row => (row.jobId, row.createdAt)).eraseDups

theorem sole_dependentsOf (job : JobId) (parent : Option JobId) :
    Sole cfg (dependentsOf job parent) db db
      (db.dependents (db.ancestorIds maxChainHops [job] parent)) db db :=
  .session (.bind (sole_ancestorIds _ _ _) (.read _))

end Dependents

/-! ## The walk -/

/-- A blocked job is re-judged on these data. -/
structure Judgement where
  db : Db
  job : JobId
  outcome : Recheck

/-- The jobs that came out so, in order. -/
def jobsOf (outcome : Recheck) (log : List Judgement) : List JobId :=
  (log.filter fun entry => entry.outcome = outcome).map (·.job)

/-- The work that the failed jobs add. -/
def failedWork (log : List Judgement) : Work :=
  (jobsOf .failed log).map fun job => (job, none)

/-- The dependents are re-judged one after the other. -/
inductive Judges : Db → List (JobId × Time) → List Judgement → Db → Prop where
  | nil {db : Db} : Judges db [] [] db
  | cons {db middle last : Db} {id : JobId} {createdAt : Time}
      {outcome : Recheck} {rest : List (JobId × Time)}
      {log : List Judgement} : Rechecked db id createdAt outcome middle →
      Judges middle rest log last →
      Judges db ((id, createdAt) :: rest) (⟨db, id, outcome⟩ :: log) last

/-- The walk from these data, with this work, past the jobs seen. -/
inductive Walks :
    Db → Work → List JobId → List Judgement → Db → Prop where
  | done {db : Db} {seen : List JobId} : Walks db [] seen [] db
  | skipped {db last : Db} {work : Work} {seen : List JobId} {id : JobId}
      {parent : Option JobId} {log : List Judgement} :
      work.getLast? = some (id, parent) → id ∈ seen →
      Walks db work.dropLast seen log last → Walks db work seen log last
  | looked {db middle last : Db} {work : Work} {seen : List JobId}
      {id : JobId} {parent : Option JobId} {first later : List Judgement} :
      work.getLast? = some (id, parent) → id ∉ seen →
      Judges db (db.dependents (db.ancestorIds maxChainHops [id] parent))
        first middle →
      Walks middle (work.dropLast ++ failedWork first) (id :: seen) later
        last →
      Walks db work seen (first ++ later) last

section Log

variable {outcome : Recheck} {first later : List Judgement}

@[simp] theorem jobsOf_append : jobsOf outcome (first ++ later) =
    jobsOf outcome first ++ jobsOf outcome later := by
  simp only [jobsOf, List.filter_append, List.map_append]

end Log

/-! ## What a walk keeps -/

/-- What holds of the data, the work, the jobs seen and the dependents left to
re-judge all through a release. -/
abbrev AllAlong := Db → Work → List JobId → List (JobId × Time) → Prop

/-- The release keeps it. -/
structure Carried (holding : AllAlong) : Prop where
  rechecked {db last : Db} {work : Work} {seen : List JobId} {id : JobId}
      {createdAt : Time} {left : List (JobId × Time)} {outcome : Recheck} :
    holding db work seen ((id, createdAt) :: left) →
    Rechecked db id createdAt outcome last →
    holding last (if outcome = .failed then work ++ [(id, none)] else work) seen
      left
  skipped {db : Db} {work : Work} {seen : List JobId} {id : JobId}
      {parent : Option JobId} : work.getLast? = some (id, parent) → id ∈ seen →
    holding db work seen [] → holding db work.dropLast seen []
  looked {db : Db} {work : Work} {seen : List JobId} {id : JobId}
      {parent : Option JobId} : work.getLast? = some (id, parent) → id ∉ seen →
    holding db work seen [] → holding db work.dropLast (id :: seen)
      (db.dependents (db.ancestorIds maxChainHops [id] parent))

theorem carried_true : Carried fun _ _ _ _ => True :=
  ⟨fun _ _ => trivial, fun _ _ _ => trivial, fun _ _ _ => trivial⟩

section Keeping

variable {db last : Db} {holding : AllAlong} {seen : List JobId} {work : Work}
variable {left : List (JobId × Time)} {log : List Judgement}

theorem Judges.carried (judges : Judges db left log last)
    (carried : Carried holding) (holds : holding db work seen left) :
    holding last (work ++ failedWork log) seen [] := by
  induction judges generalizing work with
  | nil =>
      rw [show failedWork [] = [] from rfl, List.append_nil]
      exact holds
  | cons rechecked _ ih =>
      rename_i outcome _ _ _
      have still := carried.rechecked holds rechecked
      cases outcome with
      | failed =>
          have further := ih still
          simpa [failedWork, jobsOf] using further
      | ready => exact ih still
      | blocked => exact ih still
      | gone => exact ih still

theorem Walks.carried (walks : Walks db work seen log last)
    (carried : Carried holding) (holds : holding db work seen []) :
    ∃ after_, holding last [] after_ [] := by
  induction walks with
  | done => exact ⟨_, holds⟩
  | skipped top isSeen _ ih => exact ih (carried.skipped top isSeen holds)
  | looked top notSeen judges _ ih =>
      exact ih (judges.carried carried (carried.looked top notSeen holds))

end Keeping

/-! ## The release follows it -/

section Release

variable {cfg : Config} {db : Db}

/-- The dependents that fail are so many live jobs fewer. -/
theorem settles_recheckAll (dependents : List (JobId × Time)) (released : Nat)
    (work : Work) : ∃ log last,
      Settles cfg (recheckAll cfg dependents released work) db
        (released + (jobsOf .ready log).length, work ++ failedWork log)
        (failedWork log).length last ∧
      Judges db dependents log last := by
  induction dependents generalizing released work db with
  | nil =>
      refine ⟨[], db, ?_, .nil⟩
      rw [show failedWork [] = [] from rfl, List.append_nil]
      exact ⟨.pure _, le_refl _⟩
  | cons dependent rest ih =>
      obtain ⟨job, createdAt⟩ := dependent
      obtain ⟨outcome, middle, ⟨ran, fewer⟩, rechecked⟩ :
          ∃ outcome middle, Settles cfg (recheckBlocked cfg job createdAt) db
              outcome (if outcome = .failed then 1 else 0) middle ∧
            Rechecked db job createdAt outcome middle :=
        settles_recheckBlocked job createdAt
      have goesOn : ∀ released work, ∃ log last,
          Settles cfg (recheckAll cfg rest released work) middle
            (released + (jobsOf .ready log).length, work ++ failedWork log)
            (failedWork log).length last ∧
          Judges middle rest log last := fun released work => ih released work
      cases outcome with
      | ready =>
          obtain ⟨log, last, ⟨later, less⟩, judges⟩ :=
            goesOn (released + 1) work
          refine ⟨_, last, ⟨.bind ran ?_, ?_⟩, .cons rechecked judges⟩
          · simpa [jobsOf, failedWork, Nat.add_assoc, Nat.add_comm 1]
              using later
          · simp [jobsOf, failedWork] at fewer less ⊢
            omega
      | failed =>
          obtain ⟨log, last, ⟨later, less⟩, judges⟩ :=
            goesOn released (work ++ [(job, none)])
          refine ⟨_, last, ⟨.bind ran ?_, ?_⟩, .cons rechecked judges⟩
          · simpa [jobsOf, failedWork] using later
          · simp [jobsOf, failedWork] at fewer less ⊢
            omega
      | blocked =>
          obtain ⟨log, last, ⟨later, less⟩, judges⟩ := goesOn released work
          refine ⟨_, last, ⟨.bind ran ?_, ?_⟩, .cons rechecked judges⟩
          · simpa [jobsOf, failedWork] using later
          · simp [jobsOf, failedWork] at fewer less ⊢
            omega
      | gone =>
          obtain ⟨log, last, ⟨later, less⟩, judges⟩ := goesOn released work
          refine ⟨_, last, ⟨.bind ran ?_, ?_⟩, .cons rechecked judges⟩
          · simpa [jobsOf, failedWork] using later
          · simp [jobsOf, failedWork] at fewer less ⊢
            omega

/-- Every round of the loop takes work off or ends a live job for the work it
adds. -/
theorem settles_releaseLoop (fuel : Nat) (work : Work) (seen : List JobId)
    (released : Nat) (enough : work.length + db.live.rows.length < fuel) :
    ∃ log last,
      Settles cfg (releaseLoop cfg fuel work seen released) db
        (released + (jobsOf .ready log).length) 0 last ∧
      Walks db work seen log last := by
  induction fuel generalizing work seen released db with
  | zero => cases enough
  | succ fuel ih =>
      unfold releaseLoop
      cases top : work.getLast? with
      | none =>
          rw [List.getLast?_eq_none_iff] at top
          subst top
          exact ⟨[], db, ⟨.pure _, le_refl _⟩, .done⟩
      | some found =>
          obtain ⟨current, parent⟩ := found
          have shorter : work.dropLast.length + 1 = work.length := by
            have nonempty : work ≠ [] := by
              intro isNil
              rw [isNil] at top
              cases top
            have positive := List.length_pos_iff.mpr nonempty
            rw [List.length_dropLast]
            omega
          by_cases isSeen : current ∈ seen
          · simp only [isSeen, if_true]
            have less : work.dropLast.length + db.live.rows.length < fuel := by
              omega
            obtain ⟨log, last, settles, walks⟩ :=
              ih work.dropLast seen released less
            exact ⟨log, last, settles, .skipped top isSeen walks⟩
          · simp only [isSeen, if_false]
            have looked : Sole cfg (dependentsOf current parent) db db
                (db.dependents (db.ancestorIds maxChainHops [current] parent))
                db db := sole_dependentsOf _ _
            obtain ⟨first, middle, ⟨ran, fewer⟩, judges⟩ :
                ∃ first middle,
                  Settles cfg (recheckAll cfg (db.dependents
                    (db.ancestorIds maxChainHops [current] parent)) released
                    work.dropLast) db
                    (released + (jobsOf .ready first).length,
                      work.dropLast ++ failedWork first)
                    (failedWork first).length middle ∧
                  Judges db (db.dependents
                    (db.ancestorIds maxChainHops [current] parent)) first
                    middle :=
              settles_recheckAll _ _ _
            have still : (work.dropLast ++ failedWork first).length +
                middle.live.rows.length < fuel := by
              rw [List.length_append]
              omega
            obtain ⟨later, last, ⟨goesOn, less⟩, walks⟩ :=
              ih (work.dropLast ++ failedWork first) (current :: seen)
                (released + (jobsOf .ready first).length) still
            refine ⟨first ++ later, last, ⟨.bind looked (.bind ran ?_), ?_⟩,
              .looked top isSeen judges walks⟩
            · rw [jobsOf_append, List.length_append, ← Nat.add_assoc]
              exact goesOn
            · omega

/-- A release returns, and keeps what every step of it keeps. -/
theorem settles_releaseDependents {holding : AllAlong}
    (carried : Carried holding) {job : JobId} {parent : Option JobId}
    (enough : db.live.rows.length + 1 < cfg.fuel)
    (holds : holding db [(job, parent)] [] []) : ∃ last after_,
      Settles cfg (releaseDependentsQuietly cfg job parent) db () 0 last ∧
        holding last [] after_ [] := by
  obtain ⟨log, last, ⟨ran, fewer⟩, walks⟩ : ∃ log last,
      Settles cfg (releaseLoop cfg cfg.fuel [(job, parent)] [] 0) db
        (0 + (jobsOf .ready log).length) 0 last ∧
      Walks db [(job, parent)] [] log last := by
    apply settles_releaseLoop
    rw [List.length_singleton]
    omega
  obtain ⟨after_, still⟩ := walks.carried carried holds
  exact ⟨last, after_, ⟨.quietly ran, fewer⟩, still⟩

end Release

/-! ## Following up a claim -/

section FollowUp

variable {cfg : Config} {db : Db}

theorem settles_each {γ : Type} {body : γ → Sql Unit} (bound : Nat)
    (settles : ∀ element (db : Db), db.live.rows.length ≤ bound → ∃ last,
      Settles cfg (body element) db () 0 last)
    (elements : List γ) (bounded : db.live.rows.length ≤ bound) :
    ∃ last, Settles cfg (each body elements) db () 0 last := by
  induction elements generalizing db with
  | nil => exact ⟨db, .pure _, le_refl _⟩
  | cons element rest ih =>
      obtain ⟨middle, ran, less⟩ := settles element db bounded
      obtain ⟨last, later, fewer⟩ : ∃ last,
          Settles cfg (each body rest) middle () 0 last := ih (by omega)
      exact ⟨last, .bind ran later, by omega⟩

theorem settles_followUp (trail : Trail)
    (enough : db.live.rows.length + 1 < cfg.fuel) :
    ∃ last, Settles cfg (followUp cfg trail) db () 0 last := by
  obtain ⟨middle, ran, less⟩ : ∃ middle, Settles cfg
      (each (fun job => recheckBlockedQuietly cfg job.1 job.2) trail.blocked)
      db () 0 middle := by
    refine settles_each db.live.rows.length (fun job db _ => ?_) _ (le_refl _)
    obtain ⟨outcome, last, ⟨rechecked, fewer⟩, _⟩ : ∃ outcome last,
        Settles cfg (recheckBlocked cfg job.1 job.2) db outcome
          (if outcome = .failed then 1 else 0) last ∧
        Rechecked db job.1 job.2 outcome last :=
      settles_recheckBlocked job.1 job.2
    exact ⟨last, .quietly rechecked, by omega⟩
  obtain ⟨last, later, fewer⟩ : ∃ last, Settles cfg
      (each (fun job => releaseDependentsQuietly cfg job) trail.failed)
      middle () 0 last := by
    refine settles_each db.live.rows.length (fun job db bounded => ?_) _
      (by omega)
    obtain ⟨last, _, released, _⟩ : ∃ last after_, Settles cfg
        (releaseDependentsQuietly cfg job) db () 0 last ∧ True :=
      settles_releaseDependents carried_true (by omega) trivial
    exact ⟨last, released⟩
  exact ⟨last, .bind ran later, by omega⟩

end FollowUp

end Sqlery.Standalone
