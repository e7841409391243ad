import Sqlery.Standalone.ReleaseWalk

/-!
# The claim order

With no other transaction open, `claim_job` takes the first candidate in claim
order that is eligible when its turn comes.  A job the claim itself fails on
the way, because it has expired or a dependency has failed, counts as finished
from then on.
-/

namespace Sqlery.Standalone

open ReadCommitted
open Script

/-! ## What a claim should find -/

/-- What the claim decides about a waiting job on these data. -/
def Db.decision (db : Db) (job : Job) (now : Time) : Decision :=
  if isExpired job now then .expired
  else match (db.verdict (dependencyIds job)).state with
    | .failed => .failed
    | .pending => .pending
    | .met => .ok

/-- Not expired, with its dependencies met and over no tag limit. -/
def Db.eligible (db : Db) (cfg : Config) (now : Time) (job : Job) : Bool :=
  db.decision job now = .ok && !job.tags.any (db.overTag cfg now)

/-- The data after a claim has passed the job by. -/
def Db.passBy (db : Db) (job : Job) (now : Time) : Db :=
  match db.decision job now with
  | .expired =>
      db.fail job s!"Job expired after {job.ttl.getD 0}s in queue (ttl)"
        "expired" now
  | .failed =>
      db.fail job
        (dependenciesFailed (db.verdict (dependencyIds job)).failed)
        "dependency_failed" now
  | _ => db

/-- The first job of a list that is eligible when its turn comes. -/
def firstEligible (cfg : Config) (now : Time) : Db → List Job → Option Job
  | _, [] => none
  | db, job :: rest =>
      if db.eligible cfg now job then some job
      else firstEligible cfg now (db.passBy job now) rest

/-- A waiting job of the queues that is due and has a ready entry. -/
def Db.isCandidate (db : Db) (queues : List String) (now : Time)
    (job : Job) : Bool :=
  db.waiting job && job.queueName ∈ queues &&
    job.scheduledAt.all (· ≤ now) &&
    db.ready.rows.any fun entry => entry.jobId = job.id

/-- The claim order on jobs: priority, then age, then id. -/
def claimedBefore (left right : Job) : Bool :=
  right.priority < left.priority ||
    (left.priority = right.priority &&
      (left.createdAt < right.createdAt ||
        (left.createdAt = right.createdAt && left.id ≤ right.id)))

def Db.candidates (db : Db) (queues : List String) (now : Time) : List Job :=
  (db.live.rows.filter (db.isCandidate queues now)).insertionSort
    fun left right => claimedBefore left right

/-- Every ready entry of a waiting job carries the job's own values. -/
def EntriesTrue (db : Db) : Prop :=
  ∀ entry ∈ db.ready.rows, ∀ job, db.waitingJob entry.jobId = some job →
    entry = readyValues job entry.slot

/-! ## One candidate -/

section Candidate

variable {cfg : Config} {db view : Db}

theorem waitingJob_iff {id : JobId} {job : Job} :
    view.waitingJob id = some job ↔
      view.live.get id = some job ∧ view.waiting job = true :=
  Option.filter_eq_some_iff

theorem sole_claimDecision {job : Job} {now : Time}
    (found : view.live.get job.id = some job)
    (waiting : view.waiting job = true) :
    Sole cfg (claimDecision cfg job now) db view (view.decision job now) db
      (view.passBy job now) := by
  unfold claimDecision Db.passBy Db.decision
  cases expired : isExpired job now with
  | true => exact .bind (sole_failQueued found waiting) (.pure _)
  | false =>
      by_cases none : dependencyIds job = []
      · simp only [none, if_true]
        exact .pure _
      · simp only [none, if_false]
        apply Alone.bind (sole_judge _)
        cases (view.verdict (dependencyIds job)).state with
        | met => exact .pure _
        | pending => exact .pure _
        | failed => exact .bind (sole_failQueued found waiting) (.pure _)

/-- The entry that a claim looks at. -/
def isEntry (entry other : Ready) : Bool :=
  other.slot = entry.slot && other.jobId = entry.jobId

theorem sole_deleteEntryStmt {entry : Ready}
    (stored : entry ∈ view.ready.rows) :
    Sole cfg (deleteEntryStmt cfg entry.slot entry.jobId) db view 1 db
      (view.dropReady (isEntry entry)) := by
  have only : view.ready.rows.filter (isEntry entry) = [entry] :=
    Table.filter_of_get (Table.get_of_mem stored) (by simp [isEntry])
      fun other same => by simpa [isEntry] using same
  have deleted : Sole cfg (deleteEntryStmt cfg entry.slot entry.jobId) db view
      (view.ready.rows.filter (isEntry entry)).length db
      (view.dropReady (isEntry entry)) := sole_deleteReadyWhere _
  rw [only] at deleted
  exact deleted

/-- A round deals with the job of one entry and leaves all the others. -/
structure Consumes (job : JobId) (db next : Db) : Prop where
  live : ∀ other, other ≠ job → next.live.get other = db.live.get other
  own : ∀ row, next.live.get job = some row → db.live.get job = some row
  attempts : next.attempts = db.attempts
  entries : ∀ entry : Ready, entry.jobId ≠ job →
    (entry ∈ next.ready.rows ↔ entry ∈ db.ready.rows)
  rows : next.ready.rows.Sublist db.ready.rows

theorem Consumes.refl (job : JobId) (db : Db) : Consumes job db db :=
  ⟨fun _ _ => rfl, fun _ found => found, rfl, fun _ _ => Iff.rfl,
    List.Sublist.refl _⟩

theorem Consumes.trans {job : JobId} {first second third : Db}
    (left : Consumes job first second) (right : Consumes job second third) :
    Consumes job first third where
  live other different :=
    (right.live other different).trans (left.live other different)
  own row found := left.own row (right.own row found)
  attempts := right.attempts.trans left.attempts
  entries entry different :=
    (right.entries entry different).trans (left.entries entry different)
  rows := right.rows.trans left.rows

theorem consumes_dropReady {job : JobId} {admits : Ready → Bool}
    (own : ∀ entry, admits entry = true → entry.jobId = job) :
    Consumes job db (db.dropReady admits) where
  live _ _ := rfl
  own _ found := found
  attempts := rfl
  entries := by
    intro entry different
    have kept : admits entry = false := by
      cases admitted : admits entry with
      | false => rfl
      | true => exact (different (own entry admitted)).elim
    simp [Db.dropReady, Table.retain, kept]
  rows := List.filter_sublist

theorem job_of_ofJobs {job : JobId} {entry : Ready}
    (admitted : ofJobs [job] entry = true) : entry.jobId = job := by
  simp only [ofJobs, List.mem_singleton, Bool.and_eq_true, decide_eq_true_eq]
    at admitted
  exact admitted.2

theorem job_of_isEntry {entry other : Ready}
    (same : isEntry entry other = true) : other.jobId = entry.jobId := by
  simp only [isEntry, Bool.and_eq_true, decide_eq_true_eq] at same
  exact same.2

theorem consumes_fail {job : Job} {error reason : String} {now : Time} :
    Consumes job.id db (db.fail job error reason now) := by
  have dropped : Consumes job.id db (db.dropReady (ofJobs [job.id])) :=
    consumes_dropReady fun entry => job_of_ofJobs
  refine ⟨?_, ?_, rfl, dropped.entries, dropped.rows⟩
  · intro other different
    exact Table.get_erase_of_ne different
  · intro row found
    have gone : (db.fail job error reason now).live.get job.id = none :=
      Table.get_erase_self _ _
    rw [gone] at found
    cases found

theorem consumes_passBy {job : Job} {now : Time} :
    Consumes job.id db (db.passBy job now) := by
  unfold Db.passBy
  split
  · exact consumes_fail
  · exact consumes_fail
  · exact .refl _ _

theorem waiting_congr {first second : Db}
    (attempts : second.attempts = first.attempts) (job : Job) :
    second.waiting job = first.waiting job := by
  simp only [Db.waiting, Db.hasOpenAttempt, attempts]

/-- What a round that passes a candidate by leaves. -/
structure Passed (job : Job) (now : Time) (db next : Db) : Prop where
  consumes : Consumes job.id db next
  same : SameJobs (db.passBy job now) next

theorem SameJobs.dropReady {first second : Db} (same : SameJobs first second)
    (admits : Ready → Bool) : SameJobs first (second.dropReady admits) :=
  ⟨same.live, same.history, same.attempts, same.clock⟩

variable {queues : List String} {now : Time} {worker : Option WorkerId}
variable {entry : Ready} {job : Job}

/-- The ways a round passes a candidate by, with what it appends to the lists
of the claim: the job fails, its entry is exchanged for blocked rows, or it
stays as it is. -/
inductive PassedOver (entry : Ready) (job : Job) (now : Time) (db : Db) :
    List (JobId × Time) → List JobId → Db → Prop where
  | failed : db.decision job now = .expired ∨ db.decision job now = .failed →
      (∃ error reason, db.passBy job now = db.fail job error reason now) →
      PassedOver entry job now db [] [entry.jobId]
        ((db.passBy job now).dropReady (ofJobs [entry.jobId]))
  | moved {blocked : Table fun row : Blocked =>
        (row.jobId, row.dependencyId)} : db.decision job now = .pending →
      (∀ row ∈ db.blocked.rows, row ∈ blocked.rows) →
      (∀ row ∈ blocked.rows, row ∈ db.blocked.rows ∨
        row ∈ blockedRows job db.clock) →
      (∀ row ∈ blockedRows job db.clock,
        (blocked.get (row.jobId, row.dependencyId)).isSome) →
      PassedOver entry job now db [(entry.jobId, entry.createdAt)] []
        { db.dropReady (isEntry entry) with blocked }
  | kept : PassedOver entry job now db [] [] db

/-- A candidate that is not eligible is passed by. -/
theorem sole_claimCandidate_again (stored : entry ∈ db.ready.rows)
    (found : db.waitingJob entry.jobId = some job)
    (rejected : db.eligible cfg now job = false) :
    ∃ blocked failed next,
      Sole cfg (claimCandidate cfg entry job worker now) db db
        (.again (some (cursorOf entry)) blocked failed) next next ∧
      Passed job now db next ∧
      PassedOver entry job now db blocked failed next := by
  obtain ⟨live, waiting⟩ := waitingJob_iff.mp found
  have isJob : job.id = entry.jobId := Table.key_of_get live
  rw [← isJob] at live
  have decided : Sole cfg (claimDecision cfg job now) db db
      (db.decision job now) db (db.passBy job now) :=
    sole_claimDecision live waiting
  have drops : ∀ other, ofJobs [entry.jobId] other = true →
      other.jobId = job.id :=
    fun other admitted => (job_of_ofJobs admitted).trans isJob.symm
  cases decision : db.decision job now with
  | expired =>
      rw [decision] at decided
      refine ⟨_, _, (db.passBy job now).dropReady (ofJobs [entry.jobId]),
        .bind decided (.bind (sole_deleteReadyWhere _)
          (.bind .commit (.pure _))), ⟨?_, (SameJobs.refl _).dropReady _⟩,
        .failed (Or.inl decision)
          ⟨_, _, by simp only [Db.passBy, decision]; rfl⟩⟩
      exact consumes_passBy.trans (consumes_dropReady drops)
  | failed =>
      rw [decision] at decided
      refine ⟨_, _, (db.passBy job now).dropReady (ofJobs [entry.jobId]),
        .bind decided (.bind (sole_deleteReadyWhere _)
          (.bind .commit (.pure _))), ⟨?_, (SameJobs.refl _).dropReady _⟩,
        .failed (Or.inr decision)
          ⟨_, _, by simp only [Db.passBy, decision]; rfl⟩⟩
      exact consumes_passBy.trans (consumes_dropReady drops)
  | pending =>
      have stays : db.passBy job now = db := by
        simp only [Db.passBy, decision]
      rw [decision, stays] at decided
      by_cases none : blockedRows job db.clock = []
      · have nothing : Sole cfg (moveToBlocked cfg entry job db.clock) db db []
            db db := by
          unfold moveToBlocked
          simp only [none, if_true]
          exact .pure []
        exact ⟨_, _, db, .bind decided (.bind (.read _) (.bind nothing
          (.bind .commit (.pure _)))),
          ⟨.refl _ _, by rw [stays]; exact .refl _⟩, .kept⟩
      · obtain ⟨blocked, inserted, kept, origin, all⟩ : ∃ blocked,
            Sole cfg (insertBlockedStmt cfg (blockedRows job db.clock)) db
                (db.dropReady (isEntry entry)) () db
                { db.dropReady (isEntry entry) with blocked } ∧
              (∀ row ∈ db.blocked.rows, row ∈ blocked.rows) ∧
              (∀ row ∈ blocked.rows, row ∈ db.blocked.rows ∨
                row ∈ blockedRows job db.clock) ∧
              ∀ row ∈ blockedRows job db.clock,
                (blocked.get (row.jobId, row.dependencyId)).isSome :=
          sole_insertBlockedStmt _
        have moved : Sole cfg (moveToBlocked cfg entry job db.clock) db db
            [(entry.jobId, entry.createdAt)] db
            { db.dropReady (isEntry entry) with blocked } := by
          unfold moveToBlocked
          simp only [none, if_false]
          exact .bind (sole_deleteEntryStmt stored) (.bind inserted (.pure _))
        have dropped : Consumes job.id db (db.dropReady (isEntry entry)) :=
          consumes_dropReady fun other same =>
            (job_of_isEntry same).trans isJob.symm
        exact ⟨_, _, _, .bind decided (.bind (.read _) (.bind moved
            (.bind .commit (.pure _)))),
          ⟨⟨dropped.live, dropped.own, dropped.attempts, dropped.entries,
            dropped.rows⟩, by rw [stays]; exact ⟨rfl, rfl, rfl, rfl⟩⟩,
          .moved decision kept origin all⟩
  | ok =>
      have stays : db.passBy job now = db := by
        simp only [Db.passBy, decision]
      have limited : job.tags.any (db.overTag cfg now) = true := by
        simpa [Db.eligible, decision] using rejected
      rw [decision, stays] at decided
      have judged : Sole cfg (tagLimited cfg job now) db db
          (job.tags.any (db.overTag cfg now)) db db := sole_tagLimited
      rw [limited] at judged
      exact ⟨_, _, db, .bind decided (.bind judged (.bind .commit (.pure _))),
        ⟨.refl _ _, by rw [stays]; exact .refl _⟩, .kept⟩

/-- An eligible candidate is claimed. -/
theorem sole_claimCandidate_stop (stored : entry ∈ db.ready.rows)
    (found : db.waitingJob entry.jobId = some job)
    (eligible : db.eligible cfg now job = true) :
    ∃ claimed next,
      Sole cfg (claimCandidate cfg entry job worker now) db db
        (.stop (some claimed)) next next ∧
      claimed.job.id = job.id ∧
      Opens job.id (db.dropReady (isEntry entry)) next := by
  obtain ⟨live, waiting⟩ := waitingJob_iff.mp found
  have isJob : job.id = entry.jobId := Table.key_of_get live
  rw [← isJob] at live
  simp only [Db.eligible, Bool.and_eq_true, decide_eq_true_eq,
    Bool.not_eq_true'] at eligible
  obtain ⟨decision, free⟩ := eligible
  have stays : db.passBy job now = db := by
    simp only [Db.passBy, decision]
  have decided : Sole cfg (claimDecision cfg job now) db db
      (db.decision job now) db (db.passBy job now) :=
    sole_claimDecision live waiting
  rw [decision, stays] at decided
  have judged : Sole cfg (tagLimited cfg job now) db db
      (job.tags.any (db.overTag cfg now)) db db := sole_tagLimited
  rw [free] at judged
  obtain ⟨handle, last, lastView, started, isHandle, opens⟩ :
      ∃ handle last lastView,
        Sole cfg (startAttempt cfg job worker now) db
          (db.dropReady (isEntry entry)) (some handle, .claimed) last
          lastView ∧ handle.jobId = job.id ∧
          Opens job.id (db.dropReady (isEntry entry)) lastView :=
    sole_startAttempt live waiting
  refine ⟨asRunning job handle, lastView, .bind decided (.bind judged ?_), rfl,
    opens⟩
  exact .bind (sole_deleteEntryStmt stored)
    (.bind started (.bind .commit (.pure _)))

end Candidate

/-! ## The judged tables decide -/

section Judged

variable {cfg : Config} {first second : Db} {now : Time} {job : Job}

theorem SameJobs.jobAll (same : SameJobs first second) :
    second.jobAll = first.jobAll := by
  have shown : second.shown = first.shown := by
    funext row
    simp only [Db.shown, Db.openAttemptOf, newestWhere, same.attempts]
  rw [Db.jobAll, Db.jobAll, shown, same.live, same.history]

theorem SameJobs.verdict (same : SameJobs first second) (deps : List JobId) :
    second.verdict deps = first.verdict deps := by
  simp only [Db.verdict, Db.latestRetry, same.jobAll]

theorem SameJobs.decision (same : SameJobs first second) :
    second.decision job now = first.decision job now := by
  rw [Db.decision, Db.decision, same.verdict]

theorem SameJobs.eligible (same : SameJobs first second) :
    second.eligible cfg now job = first.eligible cfg now job := by
  have counts : second.countTag = first.countTag := by
    funext tag statuses since
    rw [Db.countTag, Db.countTag, same.jobAll]
  have limits : second.overTag cfg now = first.overTag cfg now := by
    funext tag
    rw [Db.overTag, Db.overTag, counts]
  rw [Db.eligible, Db.eligible, same.decision, limits]

theorem SameJobs.fail (same : SameJobs first second) {error reason : String} :
    SameJobs (first.fail job error reason now)
      (second.fail job error reason now) := by
  constructor
  · exact congrArg (fun live => live.erase job.id) same.live
  · have row : historyRow second job .failed
        { error := some error
          terminationReason := some reason
          finishedAt := some now } second.clock =
      historyRow first job .failed
        { error := some error
          terminationReason := some reason
          finishedAt := some now } first.clock := by
      simp only [historyRow, newestWhere, same.attempts, same.clock]
    change second.history.insert (historyRow second job _ _ second.clock) =
      first.history.insert (historyRow first job _ _ first.clock)
    rw [row, same.history]
  · exact same.attempts
  · exact same.clock

theorem SameJobs.passBy (same : SameJobs first second) :
    SameJobs (first.passBy job now) (second.passBy job now) := by
  unfold Db.passBy
  rw [same.decision, same.verdict]
  split
  · exact same.fail
  · exact same.fail
  · exact same

theorem SameJobs.firstEligible (same : SameJobs first second)
    (jobs : List Job) :
    firstEligible cfg now second jobs = firstEligible cfg now first jobs := by
  induction jobs generalizing first second with
  | nil => rfl
  | cons job rest ih =>
      simp only [Standalone.firstEligible, same.eligible]
      split
      · rfl
      · exact ih same.passBy

end Judged

/-! ## The order -/

section Order

theorem afterCursor_iff {priority : Int} {createdAt : Time} {id : JobId}
    {entry : Ready} :
    afterCursor (some (priority, createdAt, id)) entry = true ↔
      entry.priority < priority ∨ (entry.priority = priority ∧
        (createdAt < entry.createdAt ∨
          (entry.createdAt = createdAt ∧ id < entry.jobId))) := by
  simp [afterCursor]

theorem claimsBefore_iff {left right : Ready} :
    claimsBefore left right = true ↔
      right.priority < left.priority ∨ (left.priority = right.priority ∧
        (left.createdAt < right.createdAt ∨
          (left.createdAt = right.createdAt ∧ left.jobId ≤ right.jobId))) := by
  simp [claimsBefore]

theorem not_afterCursor_self (entry : Ready) :
    afterCursor (some (cursorOf entry)) entry = false := by
  rw [Bool.eq_false_iff, ne_eq, cursorOf, afterCursor_iff]
  grind

theorem afterCursor_mono {cursor : Option Cursor} {first second : Ready}
    (left : afterCursor cursor first = true)
    (right : afterCursor (some (cursorOf first)) second = true) :
    afterCursor cursor second = true := by
  cases cursor with
  | none => rfl
  | some found =>
      obtain ⟨priority, createdAt, id⟩ := found
      rw [cursorOf, afterCursor_iff] at right
      rw [afterCursor_iff] at left ⊢
      grind

/-- An entry that does not come later has the same key or comes before. -/
theorem after_or_job_eq {left right : Ready}
    (ordered : claimsBefore left right = true) :
    afterCursor (some (cursorOf left)) right = true ∨
      left.jobId = right.jobId := by
  rw [claimsBefore_iff] at ordered
  rw [cursorOf, afterCursor_iff]
  grind

theorem not_before_of_after {left right : Ready}
    (later : afterCursor (some (cursorOf left)) right = true) :
    claimsBefore right left = false := by
  rw [cursorOf, afterCursor_iff] at later
  rw [Bool.eq_false_iff, ne_eq, claimsBefore_iff]
  grind

instance : IsTrans Ready fun left right => claimsBefore left right = true :=
  ⟨fun first second third left right => by
    rw [claimsBefore_iff] at *
    grind⟩

instance : Std.Total fun left right : Ready => claimsBefore left right = true :=
  ⟨fun left right => by
    rw [claimsBefore_iff, claimsBefore_iff]
    grind⟩

instance : IsTrans Job fun left right => claimedBefore left right = true :=
  ⟨fun first second third left right =>
    IsTrans.trans (r := fun left right => claimsBefore left right = true)
      (readyValues first 0) (readyValues second 0) (readyValues third 0) left
      right⟩

instance : Std.Total fun left right : Job => claimedBefore left right = true :=
  ⟨fun left right =>
    Std.Total.total (r := fun left right => claimsBefore left right = true)
      (readyValues left 0) (readyValues right 0)⟩

end Order

/-! ## The candidates that are left -/

section Remaining

variable {queues : List String} {now : Time} {cursor : Option Cursor}
variable {db next : Db} {entry : Ready} {job : Job} {jobs : List Job}

/-- The first job comes strictly before the second. -/
def Precedes (left right : Job) : Prop :=
  afterCursor (some (cursorOf (readyValues left 0))) (readyValues right 0) =
    true

/-- The candidates behind the cursor, in order. -/
structure Remaining (queues : List String) (now : Time)
    (cursor : Option Cursor) (db : Db) (jobs : List Job) : Prop where
  sorted : jobs.Pairwise Precedes
  members : ∀ job, job ∈ jobs ↔
    (job ∈ db.live.rows ∧ db.isCandidate queues now job = true) ∧
      afterCursor cursor (readyValues job 0) = true

theorem remaining_candidates :
    Remaining queues now none db (db.candidates queues now) where
  sorted := by
    have ordered : (db.candidates queues now).Pairwise
        fun left right => claimedBefore left right = true :=
      List.pairwise_insertionSort _ _
    have different : (db.candidates queues now).Pairwise
        fun left right => left.id ≠ right.id := by
      rw [← List.pairwise_map (f := Job.id), ← List.Nodup]
      apply ((List.perm_insertionSort _ _).map Job.id).nodup_iff.mpr
      exact db.live.nodup.sublist (List.filter_sublist.map Job.id)
    apply (ordered.and different).imp
    rintro left right ⟨before, distinct⟩
    have claims : claimsBefore (readyValues left 0) (readyValues right 0) =
        true := before
    exact (after_or_job_eq claims).resolve_right distinct
  members job := by
    rw [Db.candidates, List.mem_insertionSort, List.mem_filter]
    simp [afterCursor]

theorem isCandidate_iff : db.isCandidate queues now job = true ↔
    db.waiting job = true ∧ job.queueName ∈ queues ∧
      job.scheduledAt.all (· ≤ now) = true ∧
      ∃ entry ∈ db.ready.rows, entry.jobId = job.id := by
  simp [Db.isCandidate, and_assoc]

theorem nextEntry_some (found : db.nextEntry queues now cursor = some entry) :
    entry ∈ db.ready.rows ∧ claimable queues now cursor entry = true ∧
      ∀ other ∈ db.ready.rows, claimable queues now cursor other = true →
        claimsBefore entry other = true := by
  have sorted : (inClaimOrder (db.ready.rows.filter
      (claimable queues now cursor))).Pairwise
        fun left right => claimsBefore left right = true :=
    List.pairwise_insertionSort _ _
  have member := (mem_inClaimOrder _ _).mp (List.mem_of_mem_head? found)
  refine ⟨(List.mem_filter.mp member).1, (List.mem_filter.mp member).2, ?_⟩
  intro other stored isClaimable
  have listed := (mem_inClaimOrder _ _).mpr
    (List.mem_filter.mpr ⟨stored, isClaimable⟩)
  unfold Db.nextEntry at found
  cases listing : inClaimOrder (db.ready.rows.filter
      (claimable queues now cursor)) with
  | nil =>
      rw [listing] at found
      cases found
  | cons first rest =>
      rw [listing] at found sorted listed
      cases found
      rcases List.mem_cons.mp listed with rfl | later
      · rw [claimsBefore_iff]
        exact Or.inr ⟨rfl, Or.inr ⟨rfl, le_refl _⟩⟩
      · exact (List.pairwise_cons.mp sorted).1 other later

theorem nextEntry_none (none : db.nextEntry queues now cursor = none) :
    ∀ entry ∈ db.ready.rows, claimable queues now cursor entry = false := by
  intro entry stored
  rw [Db.nextEntry, List.head?_eq_none_iff] at none
  cases isClaimable : claimable queues now cursor entry with
  | false => rfl
  | true =>
      have listed := (mem_inClaimOrder _ _).mpr
        (List.mem_filter.mpr ⟨stored, isClaimable⟩)
      rw [none] at listed
      cases listed

/-- A candidate has an entry the claim may take, under the job's own key. -/
theorem Remaining.hasEntry (remaining : Remaining queues now cursor db jobs)
    (true_ : EntriesTrue db) (member : job ∈ jobs) :
    ∃ slot, readyValues job slot ∈ db.ready.rows ∧
      claimable queues now cursor (readyValues job slot) = true := by
  obtain ⟨⟨live, candidate⟩, later⟩ := (remaining.members job).mp member
  obtain ⟨waiting, queue, due, entry, stored, isJob⟩ :=
    isCandidate_iff.mp candidate
  have found : db.waitingJob entry.jobId = some job := by
    rw [isJob]
    exact waitingJob_iff.mpr ⟨Table.get_of_mem live, waiting⟩
  have own := true_ entry stored job found
  refine ⟨entry.slot, own ▸ stored, ?_⟩
  simp only [claimable, Bool.and_eq_true, decide_eq_true_eq]
  exact ⟨⟨queue, due⟩, later⟩

theorem Remaining.nil_of_none (remaining : Remaining queues now cursor db jobs)
    (true_ : EntriesTrue db) (none : db.nextEntry queues now cursor = none) :
    jobs = [] := by
  apply List.eq_nil_iff_forall_not_mem.mpr
  intro job member
  obtain ⟨slot, stored, isClaimable⟩ := remaining.hasEntry true_ member
  rw [nextEntry_none none _ stored] at isClaimable
  cases isClaimable

theorem claimable_after
    (isClaimable : claimable queues now cursor entry = true) :
    afterCursor cursor entry = true :=
  (Bool.and_eq_true _ _ ▸ isClaimable).2

/-- A stale entry hides no candidate. -/
theorem Remaining.stale (remaining : Remaining queues now cursor db jobs)
    (true_ : EntriesTrue db)
    (found : db.nextEntry queues now cursor = some entry)
    (gone : db.waitingJob entry.jobId = none) :
    Remaining queues now (some (cursorOf entry)) db jobs where
  sorted := remaining.sorted
  members := by
    obtain ⟨stored, isClaimable, first⟩ := nextEntry_some found
    intro job
    constructor
    · intro member
      obtain ⟨candidate, later⟩ := (remaining.members job).mp member
      obtain ⟨slot, isStored, mayClaim⟩ := remaining.hasEntry true_ member
      refine ⟨candidate, ?_⟩
      rcases after_or_job_eq (first _ isStored mayClaim) with after | same
      · exact after
      · have waits : db.waitingJob entry.jobId = some job := by
          rw [same]
          exact waitingJob_iff.mpr ⟨Table.get_of_mem candidate.1,
            (isCandidate_iff.mp candidate.2).1⟩
        rw [gone] at waits
        cases waits
    · rintro ⟨candidate, later⟩
      exact (remaining.members job).mpr ⟨candidate,
        afterCursor_mono (claimable_after isClaimable) later⟩

/-- The job of the next entry is the next candidate. -/
theorem Remaining.head (remaining : Remaining queues now cursor db jobs)
    (true_ : EntriesTrue db)
    (found : db.nextEntry queues now cursor = some entry)
    (waits : db.waitingJob entry.jobId = some job) :
    ∃ rest, jobs = job :: rest ∧
      Remaining queues now (some (cursorOf entry)) db rest := by
  obtain ⟨stored, isClaimable, first⟩ := nextEntry_some found
  have own := true_ entry stored job waits
  obtain ⟨live, waiting⟩ := waitingJob_iff.mp waits
  have isJob : job.id = entry.jobId := Table.key_of_get live
  have later := claimable_after isClaimable
  simp only [claimable, Bool.and_eq_true, decide_eq_true_eq] at isClaimable
  obtain ⟨⟨queue, due⟩, _⟩ := isClaimable
  have member : job ∈ jobs := by
    refine (remaining.members job).mpr ⟨⟨Table.mem_of_get live, ?_⟩, ?_⟩
    · rw [own] at queue due
      exact isCandidate_iff.mpr ⟨waiting, queue, due, entry, stored,
        isJob.symm⟩
    · rw [own] at later
      exact later
  cases jobs with
  | nil => cases member
  | cons head rest =>
      obtain ⟨before, sorted⟩ := List.pairwise_cons.mp remaining.sorted
      have isHead : job = head := by
        rcases List.mem_cons.mp member with same | inRest
        · exact same
        · obtain ⟨slot, isStored, mayClaim⟩ :=
            remaining.hasEntry true_ List.mem_cons_self
          have ordered := first _ isStored mayClaim
          have reversed : claimsBefore (readyValues job 0)
              (readyValues head 0) = false :=
            not_before_of_after (before job inRest)
          rw [own] at ordered
          exact absurd ordered (Bool.eq_false_iff.mp reversed)
      subst isHead
      refine ⟨rest, rfl, sorted, ?_⟩
      intro other
      constructor
      · intro inRest
        refine ⟨((remaining.members other).mp
          (List.mem_cons_of_mem _ inRest)).1, ?_⟩
        rw [own]
        exact before other inRest
      · rintro ⟨candidate, behind⟩
        have listed := (remaining.members other).mpr
          ⟨candidate, afterCursor_mono later behind⟩
        rcases List.mem_cons.mp listed with rfl | inRest
        · rw [own] at behind
          exact absurd behind (Bool.eq_false_iff.mp
            (not_afterCursor_self (readyValues other 0)))
        · exact inRest

/-- A round that deals with the entry's job leaves the candidates behind
it. -/
theorem Remaining.consumed
    (remaining : Remaining queues now (some (cursorOf entry)) db jobs)
    (consumes : Consumes entry.jobId db next)
    (own : ∀ job, db.waitingJob entry.jobId = some job →
      afterCursor (some (cursorOf entry)) (readyValues job 0) = false) :
    Remaining queues now (some (cursorOf entry)) next jobs where
  sorted := remaining.sorted
  members := by
    intro job
    rw [remaining.members]
    apply and_congr_left
    intro behind
    by_cases same : job.id = entry.jobId
    · have never : ∀ at_ : Db, (at_ = db ∨ at_ = next) →
          ¬(job ∈ at_.live.rows ∧ at_.isCandidate queues now job = true) := by
        rintro at_ isAt ⟨live, candidate⟩
        have found := Table.get_of_mem live
        have waiting := (isCandidate_iff.mp candidate).1
        rw [show Job.id job = entry.jobId from same] at found
        have before : db.live.get entry.jobId = some job ∧
            db.waiting job = true := by
          rcases isAt with rfl | rfl
          · exact ⟨found, waiting⟩
          · exact ⟨consumes.own job found,
              (waiting_congr consumes.attempts job) ▸ waiting⟩
        rw [own job (waitingJob_iff.mpr before)] at behind
        cases behind
      exact ⟨fun holds => (never db (Or.inl rfl) holds).elim,
        fun holds => (never next (Or.inr rfl) holds).elim⟩
    · have live : job ∈ next.live.rows ↔ job ∈ db.live.rows := by
        rw [Table.mem_rows_iff, Table.mem_rows_iff]
        rw [consumes.live _ same]
      have entries : (∃ other ∈ next.ready.rows, other.jobId = job.id) ↔
          ∃ other ∈ db.ready.rows, other.jobId = job.id := by
        constructor
        · rintro ⟨other, stored, isJob⟩
          exact ⟨other, (consumes.entries other (isJob ▸ same)).mp stored,
            isJob⟩
        · rintro ⟨other, stored, isJob⟩
          exact ⟨other, (consumes.entries other (isJob ▸ same)).mpr stored,
            isJob⟩
      rw [live, isCandidate_iff, isCandidate_iff, entries,
        waiting_congr consumes.attempts]

theorem EntriesTrue.consumed (true_ : EntriesTrue db)
    (consumes : Consumes entry.jobId db next) : EntriesTrue next := by
  intro other stored job waits
  obtain ⟨live, waiting⟩ := waitingJob_iff.mp waits
  have before : db.live.get other.jobId = some job := by
    by_cases same : other.jobId = entry.jobId
    · rw [same] at live ⊢
      exact consumes.own job live
    · rw [← consumes.live _ same]
      exact live
  apply true_ other (consumes.rows.subset stored) job
  exact waitingJob_iff.mpr
    ⟨before, (waiting_congr consumes.attempts job) ▸ waiting⟩

/-- The entries a claim may still take. -/
def Db.claimableLeft (db : Db) (queues : List String) (now : Time)
    (cursor : Option Cursor) : Nat :=
  (db.ready.rows.filter (claimable queues now cursor)).length

theorem claimableLeft_lt
    (found : db.nextEntry queues now cursor = some entry)
    (consumes : Consumes entry.jobId db next) :
    next.claimableLeft queues now (some (cursorOf entry)) <
      db.claimableLeft queues now cursor := by
  obtain ⟨stored, isClaimable, _⟩ := nextEntry_some found
  have narrower : ∀ other : Ready,
      claimable queues now (some (cursorOf entry)) other = true →
        claimable queues now cursor other = true := by
    intro other mayClaim
    simp only [claimable, Bool.and_eq_true] at mayClaim ⊢
    exact ⟨mayClaim.1, afterCursor_mono (claimable_after isClaimable)
      mayClaim.2⟩
  have sublist : (next.ready.rows.filter
      (claimable queues now (some (cursorOf entry)))).Sublist
        (db.ready.rows.filter (claimable queues now cursor)) :=
    (consumes.rows.filter _).trans
      (List.monotone_filter_right _ fun other => narrower other)
  apply lt_of_le_of_ne sublist.length_le
  intro same
  have member := List.mem_filter.mpr ⟨stored, isClaimable⟩
  rw [← sublist.eq_of_length same] at member
  have behind := claimable_after (List.mem_filter.mp member).2
  rw [not_afterCursor_self] at behind
  cases behind

end Remaining

end Sqlery.Standalone
