import DistributedFs.Scheduler.Runs

namespace DistributedFs.Scheduler

open Go Fsm MetadataFSM Healing Healing.Prog Placement

def ActiveFor (m : FSM) (chunkID targetNodeID id : String) : Prop :=
  ∃ job, m.repairJobRegistry.lookup id = some job ∧ job.chunkID = chunkID ∧
    job.targetNodeID = targetNodeID ∧ job.status.active = true

/-- A scheduling pass for one chunk and target is cleared from a look at the filter that did
    not find the pair until it proposes the job. -/
def passes (chunkID targetNodeID : String) : Concurrency.Protocol Bool Label Label.Result where
  allowed cleared label :=
    match label with
    | .propose (.createRepairJob req) =>
      req.chunkID = chunkID → req.targetNode = targetNodeID → cleared = true
    | _ => True
  next cleared label result later :=
    match label, result with
    | .pendingKey key, present =>
      later = if key = chunkID ++ ":" ++ targetNodeID then !present else cleared
    | .propose (.createRepairJob req), _ =>
      later = if req.chunkID = chunkID ∧ req.targetNode = targetNodeID then false else cleared
    | _, _ => later = cleared

theorem passes_free {chunkID targetNodeID : String} (label : Label) (free : Routine label) (cleared : Bool) :
    (passes chunkID targetNodeID).allowed cleared label := by
  cases label with
  | propose cmd =>
    cases cmd with
    | createRepairJob => exact free.elim
    | _ => trivial
  | _ => trivial

theorem passes_createJob {chunkID targetNodeID : String} (copied source target : String)
    (deleteSource cleared : Bool)
    (checked : copied = chunkID → target = targetNodeID → cleared = true) :
    (passes chunkID targetNodeID).Follows cleared (createJob copied source target deleteSource) := by
  refine ⟨trivial, ?_⟩
  intro jid stage same
  cases same
  refine ⟨trivial, ?_⟩
  intro createdAt stage same
  cases same
  refine ⟨checked, ?_⟩
  intro result stage _
  cases result with
  | some err => trivial
  | none => exact ⟨trivial, fun _ _ _ => trivial⟩

theorem passes_copies {chunkID targetNodeID : String} (copied source target : String) (cleared : Bool) :
    (passes chunkID targetNodeID).Follows cleared (scheduleCopy copied source target) := by
  refine ⟨trivial, ?_⟩
  intro present stage same
  cases present with
  | true => trivial
  | false =>
    apply passes_createJob
    intro here there
    subst here there
    simpa [passes] using same

theorem passes_spawn {chunkID targetNodeID : String} {parts : Components} {s later : System} {prog : Prog}
    (spawned : Spawn parts s prog later) (cleared : Bool) : (passes chunkID targetNodeID).Follows cleared prog := by
  have anywhere : ∀ (stage : Bool) label result later, True → Working label →
      (passes chunkID targetNodeID).next stage label result later → True := fun _ _ _ _ _ _ _ => trivial
  apply spawn_follows parts passes_free passes_copies cleared spawned
  · intro jobID _ _
    exact follows_executeJob passes_free anywhere jobID (fun _ _ _ _ _ => trivial) cleared trivial
  · refine Concurrency.Protocol.Follows.act trivial ?_
    intro seen stage
    exact follows_recoverJobs passes_free anywhere parts.scheduler _ (fun _ _ _ _ => trivial)
      (fun _ _ _ _ _ _ _ => trivial) stage trivial

/-- Where a job comes from that is active after an action: it was active before, unless the
    action created it; no update may wake a job up. -/
theorem JobStep.activeFor {m after : FSM} {label : Label} (step : JobStep m label after)
    (awake : ∀ req, label = .propose (.updateRepairJob req) → req.status.active = true →
      ∀ job, m.repairJobRegistry.lookup req.jobID = some job → job.status.active = true)
    {chunkID targetNodeID id : String} (active : ActiveFor after chunkID targetNodeID id) :
    ActiveFor m chunkID targetNodeID id ∨ ∃ req, label = .propose (.createRepairJob req) ∧
      req.chunkID = chunkID ∧ req.targetNode = targetNodeID ∧ req.jobID = id := by
  obtain ⟨job, found, copied, target, status⟩ := active
  rcases step.origin found with older | ⟨req, created, named, same⟩ | ⟨req, old, updates, named, present, same⟩
  · exact .inl ⟨job, older, copied, target, status⟩
  · subst same
    exact .inr ⟨req, created, copied, target, named⟩
  · subst named same
    exact .inl ⟨old, present, copied, target, awake req updates status old present⟩

/-- Every active job of the pair that a pass is about to look up has been published by a
    worker, and a job is only marked pending or in progress while it still is one of them. -/
def Published (s : System) : Label → Prop
  | .pendingKey key => ∀ id job, s.fsm.repairJobRegistry.lookup id = some job →
      job.status.active = true → job.chunkID ++ ":" ++ job.targetNodeID = key → key ∈ s.pendingJobsSet
  | .propose (.updateRepairJob req) => req.status.active = true →
      ∀ job ∈ s.fsm.repairJobRegistry.lookup req.jobID, job.status.active = true
  | _ => True

def NoOtherPass (c : Config) (i : Nat) : Label → Prop
  | .pendingKey key => ∀ chunkID targetNodeID, targetNodeID ≠ "" → key = chunkID ++ ":" ++ targetNodeID →
      ∀ j other, j ≠ i → c.procs[j]? = some other → (passes chunkID targetNodeID).Follows false other
  | _ => True

def Exclusive (c : Config) (i : Nat) (label : Label) : Prop :=
  Published c.state label ∧ NoOtherPass c i label

/-- At most one process is cleared for the pair, no job is active for it then, and at most one
    is otherwise. -/
structure OnePass (chunkID targetNodeID : String) (c : Config) (cleared : Nat → Bool) : Prop where
  follows : ∀ i prog, c.procs[i]? = some prog → (passes chunkID targetNodeID).Follows (cleared i) prog
  only : ∀ i, cleared i = true → ∀ j, j ≠ i → cleared j = false
  idle : ∀ i, cleared i = true → ∀ id, ¬ ActiveFor c.state.fsm chunkID targetNodeID id
  unique : ∀ id id', ActiveFor c.state.fsm chunkID targetNodeID id →
    ActiveFor c.state.fsm chunkID targetNodeID id' → id = id'

namespace OnePass

open Concurrency (getElem?_set_cases getElem?_spawned)

variable {chunkID targetNodeID : String} {c : Config} {cleared : Nat → Bool} {parts : Components}

theorem spawn (inv : OnePass chunkID targetNodeID c cleared) {prog : Prog}
    {later : System} (spawned : Spawn parts c.state prog later) :
    OnePass chunkID targetNodeID ⟨later, c.procs ++ [prog]⟩ cleared where
  follows i other listed := by
    rcases getElem?_spawned listed with same | listed
    · rw [same]
      exact passes_spawn spawned (cleared i)
    · exact inv.follows i other listed
  only := inv.only
  idle := spawn_fsm parts spawned ▸ inv.idle
  unique := spawn_fsm parts spawned ▸ inv.unique

variable {i : Nat} {label : Label} {next : label.Result → Prog} {result : label.Result} {later : System}

theorem frame (inv : OnePass chunkID targetNodeID c cleared) (running : c.procs[i]? = some (.act label next))
    (unmoved : (passes chunkID targetNodeID).next (cleared i) label result (cleared i))
    (quiet : ∀ id, ActiveFor later.fsm chunkID targetNodeID id → ActiveFor c.state.fsm chunkID targetNodeID id) :
    OnePass chunkID targetNodeID ⟨later, c.procs.set i (next result)⟩ cleared where
  follows j prog listed := by
    rcases getElem?_set_cases listed with ⟨rfl, rfl⟩ | ⟨_, listed⟩
    · exact (inv.follows j _ running).2 result _ unmoved
    · exact inv.follows j prog listed
  only := inv.only
  idle j isCleared id active := inv.idle j isCleared id (quiet id active)
  unique id id' first second := inv.unique id id' (quiet id first) (quiet id' second)

theorem looked (inv : OnePass chunkID targetNodeID c cleared) (named : targetNodeID ≠ "")
    {next : Bool → Prog} (running : c.procs[i]? = some (.act (.pendingKey (chunkID ++ ":" ++ targetNodeID)) next))
    (met : Exclusive c i (.pendingKey (chunkID ++ ":" ++ targetNodeID))) {present : Bool}
    (read : present = decide (chunkID ++ ":" ++ targetNodeID ∈ c.state.pendingJobsSet)) :
    OnePass chunkID targetNodeID ⟨c.state, c.procs.set i (next present)⟩
      fun j => if j = i then !present else false where
  follows j prog listed := by
    rcases getElem?_set_cases listed with ⟨rfl, rfl⟩ | ⟨differs, listed⟩
    · have rest := (inv.follows j _ running).2 present (!present) (by simp [passes])
      simpa using rest
    · simpa [differs] using met.2 chunkID targetNodeID named rfl j prog differs listed
  only j isCleared k differs := by
    split at isCleared
    · rename_i here
      subst here
      simp [differs]
    · cases isCleared
  idle j isCleared id active := by
    split at isCleared
    · obtain ⟨job, found, rfl, rfl, status⟩ := active
      have listed := met.1 id job found status rfl
      simp [read, listed] at isCleared
    · cases isCleared
  unique := inv.unique

theorem created (inv : OnePass chunkID targetNodeID c cleared) {req : CommandCreateRepairJob}
    {next : Option GoError → Prog}
    (running : c.procs[i]? = some (.act (.propose (.createRepairJob req)) next))
    (copied : req.chunkID = chunkID) (target : req.targetNode = targetNodeID) {result : Option GoError}
    (created : ∀ id, ActiveFor later.fsm chunkID targetNodeID id →
      ActiveFor c.state.fsm chunkID targetNodeID id ∨ id = req.jobID) :
    OnePass chunkID targetNodeID ⟨later, c.procs.set i (next result)⟩ fun _ => false := by
  have mine := (inv.follows i _ running).1 copied target
  -- before the proposal the pair had no active job, so afterwards it has at most the new one
  have fresh (id : String) (active : ActiveFor later.fsm chunkID targetNodeID id) : id = req.jobID := by
    rcases created id active with before | same
    · exact absurd before (inv.idle i mine id)
    · exact same
  constructor
  · intro j prog listed
    rcases getElem?_set_cases listed with ⟨rfl, rfl⟩ | ⟨differs, listed⟩
    · exact (inv.follows j _ running).2 result false (by simp [passes, copied, target])
    · have others := inv.only i mine j differs
      exact others ▸ inv.follows j prog listed
  · intro j isCleared
    cases isCleared
  · intro j isCleared
    cases isCleared
  · intro id id' first second
    exact (fresh id first).trans (fresh id' second).symm

theorem act (inv : OnePass chunkID targetNodeID c cleared) (named : targetNodeID ≠ "")
    (running : c.procs[i]? = some (.act label next)) (met : Exclusive c i label)
    (ran : Exec label c.state result later) :
    ∃ cleared, OnePass chunkID targetNodeID ⟨later, c.procs.set i (next result)⟩ cleared := by
  have awake (req : CommandUpdateRepairJob) (same : label = .propose (.updateRepairJob req)) :
      req.status.active = true → ∀ job, c.state.fsm.repairJobRegistry.lookup req.jobID = some job →
        job.status.active = true := by
    subst same
    exact met.1
  have origin {id : String} (active : ActiveFor later.fsm chunkID targetNodeID id) :=
    (exec_fsmStep ran).jobs.activeFor awake active
  have quiet (other : ∀ req, label = .propose (.createRepairJob req) →
      ¬ (req.chunkID = chunkID ∧ req.targetNode = targetNodeID)) (id : String)
      (active : ActiveFor later.fsm chunkID targetNodeID id) :
      ActiveFor c.state.fsm chunkID targetNodeID id := by
    rcases origin active with before | ⟨req, same, copied, target, _⟩
    · exact before
    · exact absurd ⟨copied, target⟩ (other req same)
  cases label with
  | pendingKey key =>
    by_cases here : key = chunkID ++ ":" ++ targetNodeID
    · subst here
      cases ran
      exact ⟨_, inv.looked named running met rfl⟩
    · refine ⟨cleared, inv.frame running (by simp [passes, here]) (quiet ?_)⟩
      intro req same
      cases same
  | propose cmd =>
    cases cmd with
    | createRepairJob req =>
      by_cases pair : req.chunkID = chunkID ∧ req.targetNode = targetNodeID
      · refine ⟨_, inv.created running pair.1 pair.2 ?_⟩
        intro id active
        rcases origin active with before | ⟨other, same, _, _, rfl⟩
        · exact .inl before
        · cases same
          exact .inr rfl
      · refine ⟨cleared, inv.frame running (if_neg pair).symm (quiet ?_)⟩
        intro other same
        cases same
        exact pair
    | _ =>
      refine ⟨cleared, inv.frame running rfl (quiet ?_)⟩
      intro req same
      cases same
  | _ =>
    refine ⟨cleared, inv.frame running rfl (quiet ?_)⟩
    intro req same
    cases same

end OnePass

/-- In a run in which passes for one pair do not overlap and every active job of a pair has
    been published when the next pass looks it up, a pair never has two active jobs. -/
theorem one_active_repair {parts : Components} {c : Config}
    (reached : Concurrency.ReachedUnder (world parts) Exclusive empty c) (chunkID targetNodeID : String)
    (named : targetNodeID ≠ "") (id id' : String) (first : ActiveFor c.state.fsm chunkID targetNodeID id)
    (second : ActiveFor c.state.fsm chunkID targetNodeID id') : id = id' := by
  have inv : ∃ cleared, OnePass chunkID targetNodeID c cleared := by
    clear first second
    induction reached with
    | start =>
      refine ⟨fun _ => false, ?_, ?_, ?_, ?_⟩
      · intro i prog listed
        cases listed
      · intro i isCleared
        cases isCleared
      · intro i isCleared
        cases isCleared
      · intro id id' active
        obtain ⟨job, found, _⟩ := active
        cases found
    | spawn _ prog later allowed ih =>
      obtain ⟨cleared, inv⟩ := ih
      exact ⟨cleared, inv.spawn allowed⟩
    | act _ i label next running met result later ran ih =>
      obtain ⟨cleared, inv⟩ := ih
      exact inv.act named running met ran
  obtain ⟨cleared, inv⟩ := inv
  exact inv.unique id id' first second

theorem exclusive_alone (s : System) (label : Label) (i : Nat) (procs : List Prog)
    (published : Published s label)
    (others : ∀ j other, j ≠ i → procs[j]? = some other → other = .done) :
    Exclusive ⟨s, procs⟩ i label := by
  refine ⟨published, ?_⟩
  cases label with
  | pendingKey key =>
    intro chunkID targetNodeID _ _ j other differs listed
    rw [others j other differs listed]
    trivial
  | _ => trivial

instance (s : System) (label : Label) : Decidable (Published s label) :=
  decidable_of_iff ((match label with
    | .pendingKey key => decide (∀ id job, s.fsm.repairJobRegistry.lookup id = some job →
      job.status.active = true → job.chunkID ++ ":" ++ job.targetNodeID = key → key ∈ s.pendingJobsSet)
    | .propose (.updateRepairJob req) => decide (req.status.active = true →
      ∀ job ∈ s.fsm.repairJobRegistry.lookup req.jobID, job.status.active = true)
    | _ => true) = true) (by unfold Published; split <;> first | exact decide_eq_true_iff | simp)

/-- The upload of `ck-1` to `n1` alone has scheduled a copy to `n2`; before a worker takes the
    job, the chunk is looked at again. -/
def scheduledTwice : System := (alone 10 (scheduleRepairForChunk twoCopies.scheduler "ck-1") uploaded.2).2

theorem duplicate_repair :
    (∃ procs, Concurrency.Reachable (world twoCopies) empty ⟨scheduledTwice, procs⟩) ∧
      ActiveFor scheduledTwice.fsm "ck-1" "n2" "job-" ∧
      ActiveFor scheduledTwice.fsm "ck-1" "n2" "job-i" ∧ "job-" ≠ "job-i" := by
  refine ⟨?_, ?_, ?_, by decide⟩
  · obtain ⟨procs, _, reached⟩ :=
      uploaded_reachable.andCall twoCopies 10 (.scheduleRepairForChunk _ "ck-1")
    exact ⟨procs, reached⟩
  · exact ⟨⟨"job-", "ck-1", "", false, "n1", "n2", .pending, 0, 3, 3⟩, by decide, by decide⟩
  · exact ⟨⟨"job-i", "ck-1", "", false, "n1", "n2", .pending, 0, 10, 10⟩, by decide, by decide⟩

def scheduledAgain : List (System × Label) × System :=
  alone 10 (scheduleRepairForChunk twoCopies.scheduler "ck-1") executed.2

theorem one_active_repair_executed :
    ActiveFor scheduledAgain.2.fsm "ck-1" "n2" "job-" ∧
      ¬ ActiveFor scheduledAgain.2.fsm "ck-1" "n2" "job-i" := by
  have taken := executed_sequential exclusive_alone (by decide) (by decide)
  obtain ⟨procs, _, reached⟩ :=
    taken.check exclusive_alone 10 (.scheduleRepairForChunk _ "ck-1") (by decide)
  have active : ActiveFor scheduledAgain.2.fsm "ck-1" "n2" "job-" :=
    ⟨⟨"job-", "ck-1", "", false, "n1", "n2", .inProgress, 0, 3, 5⟩, by decide, by decide⟩
  refine ⟨active, ?_⟩
  intro other
  exact absurd (one_active_repair reached "ck-1" "n2" (by decide) _ _ active other) (by decide)

end DistributedFs.Scheduler
