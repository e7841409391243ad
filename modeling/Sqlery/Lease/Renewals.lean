import Sqlery.Lease.Exclusion

/-!
# What a renewal writes

`renew_queue_leases` reads the clock and updates the rows of its queues that
name the daemon.  If all of them do, it commits a later expiry of each.
-/

namespace Sqlery.Lease

open ReadCommitted

/-- The `UPDATE` of `renew_queue_leases`. -/
def renewUpdate (cfg : Config) (queues : List String) (daemonId : String)
    (leaseSecs : Int) (now : Time) :
    Statement Db Write Lock (List DaemonLease) :=
  modifyRows Db.leases (writerOf cfg.dialect)
    (fun lease => lease.queueName ∈ queues && lease.daemonId = daemonId)
    fun lease => .setLease { lease with expiresAt := now + seconds leaseSecs }

/-- What is left of the renewal when it has read the clock. -/
def renewRest (cfg : Config) (queues : List String) (daemonId : String)
    (leaseSecs : Int) (now : Time) : Prog Db Write Lock Return :=
  .exec (renewUpdate cfg queues daemonId leaseSecs now) fun rows =>
    .commit (.rollback (.done (.ok (decide (0 < rows.length)))))

theorem body_renew (cfg : Config) {queues : List String} (daemonId : String)
    (leaseSecs : Int) (some_ : queues ≠ []) :
    (system cfg).body (.renew queues daemonId leaseSecs) =
      .query Db.clock (fun now => [.remark (.began now)])
        (renewRest cfg queues daemonId leaseSecs) := by
  simp only [system, scriptOf, renewQueueLeases, if_neg some_]
  rfl

/-- Every one of the queues has a row that names the daemon. -/
def Named (queues : List String) (daemonId : String) (db : Db) : Prop :=
  ∀ queue ∈ queues, ∃ row, db.leases.get queue = some row ∧
    row.daemonId = daemonId

/-- Where a renewal stands. -/
inductive Renewing (cfg : Config) (queues : List String) (daemonId : String)
    (leaseSecs : Int) (session : Session Db Write Lock Call Return) :
    Prop where
  | begins :
      session.prog = (system cfg).body (.renew queues daemonId leaseSecs) →
      session.state.pending = [] → session.snapshot = none →
      Renewing cfg queues daemonId leaseSecs session
  | updates (now : Time) :
      session.prog = renewRest cfg queues daemonId leaseSecs now →
      session.state.pending = [] →
      .remark (.began now) ∈ session.state.noted →
      (∀ snapshot, session.snapshot = some snapshot →
        Named queues daemonId snapshot) →
      Renewing cfg queues daemonId leaseSecs session
  | commits (now : Time) (result : Return) :
      session.prog = .commit (.rollback (.done result)) →
      .remark (.began now) ∈ session.state.noted →
      (∀ queue ∈ queues, ∃ lease, .setLease lease ∈ session.state.pending ∧
        lease.queueName = queue ∧ lease.daemonId = daemonId ∧
        lease.expiresAt = now + seconds leaseSecs) →
      Renewing cfg queues daemonId leaseSecs session
  | closes (result : Return) : session.prog = .rollback (.done result) →
      Renewing cfg queues daemonId leaseSecs session
  | ends : session.prog.idle = true →
      Renewing cfg queues daemonId leaseSecs session

section Renewals

variable {cfg : Config} {queues : List String} {daemonId : String}
variable {leaseSecs : Int} {n : Nat} {world next : World n}
variable {process : Fin n}

/-- A step of a process leaves the sessions of the others as they are. -/
theorem step_session_of_ne {other : Fin n}
    (taken : (system cfg).act world (.step process) = some next)
    (different : other ≠ process) :
    next.session other = world.session other := by
  simp only [System.act] at taken
  unfold System.advance at taken
  simp only at taken
  split at taken
  · cases taken
  · cases taken
  · cases taken
    exact Function.update_of_ne different _ _
  · split at taken
    · cases taken
      exact Function.update_of_ne different _ _
    · split at taken
      · cases taken
      · split at taken
        · cases taken
        · cases taken
          exact Function.update_of_ne different _ _
  · cases taken
    exact Function.update_of_ne different _ _
  · cases taken
    exact Function.update_of_ne different _ _

/-- The update finds every row that names the daemon all the time. -/
theorem renewUpdate_finds {snapshot current : Db} {others : Others Lock}
    {effect : Effect Write Lock (List DaemonLease)} {now : Time}
    (before : Named queues daemonId snapshot)
    (named : Named queues daemonId current)
    (ran : renewUpdate cfg queues daemonId leaseSecs now snapshot current
      others = some effect) :
    ∀ queue ∈ queues, ∃ lease, .setLease lease ∈ effect.writes ∧
      lease.queueName = queue ∧ lease.daemonId = daemonId ∧
      lease.expiresAt = now + seconds leaseSecs := by
  cases ran
  intro queue isQueue
  obtain ⟨row, found, own⟩ := named queue isQueue
  have isRow : row.queueName = queue := Table.key_of_get found
  refine ⟨{ row with expiresAt := now + seconds leaseSecs }, ?_, isRow, own,
    rfl⟩
  apply List.mem_map_of_mem
    (f := fun lease : DaemonLease => Write.setLease
      { lease with expiresAt := now + seconds leaseSecs })
  have source : Named queues daemonId
      (if (writerOf cfg.dialect).isSome then current else snapshot) := by
    split
    · exact named
    · exact before
  obtain ⟨old, isOld, wasOwn⟩ := source queue isQueue
  have wasRow : old.queueName = queue := Table.key_of_get isOld
  apply List.mem_filterMap.mpr
  refine ⟨old, Table.mem_of_get isOld, ?_⟩
  simp [hit, wasRow, isQueue, wasOwn, found, isRow, own]

/-- A step of a renewal whose rows name the daemon. -/
theorem Renewing.step (some_ : queues ≠ [])
    (renewing : Renewing cfg queues daemonId leaseSecs
      (world.session process))
    (named : Named queues daemonId world.db)
    (taken : (system cfg).act world (.step process) = some next) :
    Renewing cfg queues daemonId leaseSecs (next.session process) := by
  cases renewing with
  | begins isBody unwritten unread =>
      rw [body_renew cfg daemonId leaseSecs some_] at isBody
      simp only [System.act, System.advance, isBody, Option.some.injEq]
        at taken
      subst taken
      simp only [State.replace, Function.update_self]
      refine .updates _ rfl unwritten (List.mem_append_right _ ?_) ?_
      · exact List.mem_singleton_self _
      · intro snapshot isSnapshot
        rw [unread] at isSnapshot
        cases isSnapshot
  | updates now isRest unwritten began before =>
      have same : (system cfg).view world.db (world.session process).state =
          world.db := by
        simp [System.view, unwritten]
      simp only [System.act, System.advance, isRest, renewRest, same] at taken
      cases isSnapshot : (world.session process).snapshot with
      | none =>
          simp only [isSnapshot, Option.some.injEq] at taken
          subst taken
          simp only [State.replace, Function.update_self]
          refine .updates now rfl unwritten began ?_
          intro snapshot isNew
          cases isNew
          exact named
      | some snapshot =>
          simp only [isSnapshot] at taken
          split at taken
          · cases taken
          · rename_i effect ran
            split at taken
            · cases taken
            · cases taken
              simp only [State.replace, Function.update_self]
              refine .commits now _ rfl began ?_
              intro queue isQueue
              obtain ⟨lease, member, isLease⟩ := renewUpdate_finds
                (before snapshot isSnapshot) named ran queue isQueue
              exact ⟨lease, List.mem_append_right _ member, isLease⟩
  | commits now result isCommit began written =>
      simp only [System.act, System.advance, isCommit, Option.some.injEq]
        at taken
      subst taken
      simp only [State.replace, Function.update_self]
      exact .closes result rfl
  | closes result isRollback =>
      simp only [System.act, System.advance, isRollback, Option.some.injEq]
        at taken
      subst taken
      simp only [State.replace, Function.update_self]
      exact .ends rfl
  | ends isIdle =>
      cases isProg : (world.session process).prog with
      | done value =>
          simp [System.act, System.advance, isProg] at taken
      | halt => simp [System.act, System.advance, isProg] at taken
      | query read remark rest => simp [isProg, Prog.idle] at isIdle
      | exec statement rest => simp [isProg, Prog.idle] at isIdle
      | commit rest => simp [isProg, Prog.idle] at isIdle
      | rollback rest => simp [isProg, Prog.idle] at isIdle

/-- What a renewal commits. -/
theorem Renewing.written (some_ : queues ≠ [])
    (renewing : Renewing cfg queues daemonId leaseSecs
      (world.session process))
    {rest : Prog Db Write Lock Return}
    (isCommit : (world.session process).prog = .commit rest) :
    ∃ now, .remark (.began now) ∈ (world.session process).state.noted ∧
      ∀ queue ∈ queues, ∃ lease,
        .setLease lease ∈ (world.session process).state.pending ∧
        lease.queueName = queue ∧ lease.daemonId = daemonId ∧
        lease.expiresAt = now + seconds leaseSecs := by
  cases renewing with
  | begins isBody _ _ =>
      rw [body_renew cfg daemonId leaseSecs some_, isCommit] at isBody
      cases isBody
  | updates now isRest _ _ _ =>
      rw [renewRest, isCommit] at isRest
      cases isRest
  | commits now result _ began written => exact ⟨now, began, written⟩
  | closes result isRollback =>
      rw [isCommit] at isRollback
      cases isRollback
  | ends isIdle =>
      rw [isCommit] at isIdle
      cases isIdle

end Renewals

end Sqlery.Lease
