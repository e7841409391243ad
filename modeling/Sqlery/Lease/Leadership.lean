import Sqlery.Lease.Crew

/-!
# Leading the queues

A daemon that lost a queue during a pause goes on leading it.  It loses none
while it renews its leases in time.
-/

namespace Sqlery.Lease

open ReadCommitted

/-- As long as no daemon lets its leases run out until another one claims the
queue, every daemon holds the queues it leads. -/
theorem daemon_leads_held (cfg : Config) (sync : cfg.backend ≠ .async)
    {n : Nat} {settings : Fin n → Settings}
    (injective : Function.Injective fun process =>
      (settings process).daemonId) {fleet : Fleet n}
    (reached : Fleet.Reached cfg settings (Fleet.Punctual cfg settings)
      fleet) :
    fleet.Led settings := by
  have crewed := Fleet.crewed_reached sync injective reached
  have held : ∀ process queueName, fleet.Leads process queueName →
      fleet.Holds settings process queueName := by
    rintro process queueName ⟨phase, owned⟩
    exact crewed.named (by simp [Daemon.Running, phase]) owned
  constructor
  · exact held
  · intro process other queueName leads rivals
    obtain ⟨row, found, isHolder⟩ := held process queueName leads
    obtain ⟨same, isSame, isOther⟩ := held other queueName rivals
    rw [found] at isSame
    cases isSame
    exact injective (isOther.symm.trans isHolder)

namespace Fleet

variable {n : Nat}

/-- The row of a queue names no running daemon whose leases have run out, but
perhaps the one that claims the queue. -/
def inTime (settings : Fin n → Settings) (fleet : Fleet n)
    (process : Fin n) (queueName : String) : Bool :=
  match fleet.world.db.leases.get queueName with
  | some row =>
      (List.finRange n).all fun other =>
        other = process || row.daemonId ≠ (settings other).daemonId ||
          (fleet.daemon other).phase = .absent ||
          (fleet.daemon other).phase = .releasing ||
          decide (fleet.world.db.clock ≤ (fleet.daemon other).since +
            seconds (settings other).leaseSecs)
  | none => true

/-- Checks `Punctual` where claims lock their row. -/
def punctual (settings : Fin n → Settings) (fleet : Fleet n) :
    Move n → Bool
  | .step process =>
      match (fleet.daemon process).phase with
      | .claiming queueName _ =>
          match (fleet.world.session process).prog with
          | .commit _ =>
              (fleet.world.session process).state.pending = [] ||
                fleet.inTime settings process queueName
          | _ => true
      | _ => true
  | _ => true

theorem punctual_of_check {cfg : Config} {settings : Fin n → Settings}
    (locks : ¬cfg.Optimistic) (fleet : Fleet n) (move : Move n)
    (checked : fleet.punctual settings move = true) :
    Punctual cfg settings fleet move := by
  constructor
  · rintro process queueName ⟨rfl, ⟨rest, phase⟩, ⟨left, isCommit⟩, wrote⟩
      other different ⟨row, found, own⟩ ⟨launched, stays⟩
    simp only [punctual, phase, isCommit, wrote, decide_false,
      Bool.false_or, inTime, found, List.all_eq_true, List.mem_finRange,
      true_implies, Bool.or_eq_true, decide_eq_true_eq] at checked
    rcases checked other with (((same | foreign) | absent) | left) | inTime
    · exact (different same).elim
    · exact (foreign own).elim
    · exact (launched absent).elim
    · exact (stays left).elim
    · exact inTime
  · intro optimistic
    exact (locks optimistic).elim

end Fleet

/-- The steps of a daemon's call, and the daemon takes the result. -/
def finish (process : Fin 2) (steps : Nat) : List (Move 2) :=
  List.replicate steps (.step process) ++ [.proceed process]

def daemonOf (process : Fin 2) : Settings where
  queues := ["default"]
  daemonId := twoDaemons process
  nodeId := "node"
  pid := 1
  leaseSecs := 30

/-- The first daemon pauses for longer than its lease and renews it, pauses
again and stays the leader when the second one starts; it shuts down, and the
second daemon takes the queue. -/
def handingOver : List (Move 2) :=
  .launch 0 :: finish 0 7 ++ .tick 40000000 :: .cycle 0 :: finish 0 5 ++
    .tick 20000000 :: .launch 1 :: finish 1 4 ++ .shutDown 0 ::
    finish 0 4 ++ .cycle 1 :: finish 1 7

theorem daemon_leads_held_handingOver :
    ∃ fleet : Fleet 2,
      Fleet.Reached onPostgresql daemonOf
        (Fleet.Punctual onPostgresql daemonOf) fleet ∧
      fleet.Leads 1 "default" ∧ fleet.Led daemonOf := by
  have ran : (Fleet.runWhile onPostgresql daemonOf
      (Fleet.punctual daemonOf) (.initial 0) handingOver).isSome = true :=
    rfl
  have locks : ¬onPostgresql.Optimistic := by
    simp [Config.Optimistic, onPostgresql]
  have reached := Fleet.reached_of_runWhile (Fleet.punctual_of_check locks)
    (.initial 0) (Option.some_get ran).symm
  have injective : Function.Injective fun process =>
      (daemonOf process).daemonId := by
    intro first second same
    revert first second
    decide
  exact ⟨_, reached, ⟨rfl, List.mem_singleton_self _⟩,
    daemon_leads_held onPostgresql (by decide) injective reached⟩

/-- The first daemon pauses for longer than its lease, and the second one takes
the queue over.  The lease step of the first one renews no row. -/
def lostInAPause : List (Move 2) :=
  .launch 0 :: finish 0 7 ++ .tick 40000000 :: .launch 1 :: finish 1 7 ++
    .cycle 0 :: List.replicate 5 (.step 0)

/-- Right after its lease step a daemon leads a queue that it lost. -/
theorem daemon_leads_lost :
    ∃ fleet next : Fleet 2,
      Fleet.Reached onPostgresql daemonOf (fun _ _ => True) fleet ∧
      fleet.moved onPostgresql daemonOf (.proceed 0) = some next ∧
      next.Leads 0 "default" ∧ next.Leads 1 "default" ∧
      ¬next.Holds daemonOf 0 "default" := by
  have ran : (Fleet.runWhile onPostgresql daemonOf (fun _ _ => true)
      (.initial 0) lostInAPause).isSome = true := rfl
  have reached : Fleet.Reached onPostgresql daemonOf (fun _ _ => True) _ :=
    Fleet.reached_of_runWhile (fun _ _ _ => trivial) (.initial 0)
      (Option.some_get ran).symm
  refine ⟨_, _, reached, rfl, ⟨rfl, List.mem_singleton_self _⟩,
    ⟨rfl, List.mem_singleton_self _⟩, ?_⟩
  rintro ⟨row, found, isHolder⟩
  cases found
  exact absurd isHolder (by decide)

end Sqlery.Lease
