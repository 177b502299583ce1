import DistributedFs.Scheduler.Runs

namespace DistributedFs.Scheduler

open Go Fsm MetadataFSM Healing Healing.Prog
open Concurrency (ReachedUnder Reachable Protocol)

def Inactive (m : FSM) (jobID : String) : Prop :=
  ∃ job, m.repairJobRegistry.lookup jobID = some job ∧ job.status.active = false

/-- From its last stage on, a program leaves the job alone: it neither queues it nor marks it
    pending or in progress. It gets there by recording the result of the job itself, and from
    then on it reads a state machine in which the job is inactive. -/
def leaves (jobID : String) : Protocol Bool Label Label.Result where
  allowed last label :=
    match label with
    | .propose (.updateRepairJob req) => last = true → req.jobID = jobID → req.status.active = false
    | .enqueue id | .send id => last = true → id ≠ jobID
    | _ => True
  next last label result later :=
    match label, result with
    | .look, seen => (last = true → ∀ id job, seen.1.repairJobRegistry.lookup id = some job →
        job.jobID = jobID → job.status.active = false) ∧ later = last
    | .propose (.createRepairJob req), answer => (last = true → req.jobID = jobID → answer ≠ none) ∧ later = last
    | .propose (.updateRepairJob req), _ =>
      later = last ∨ later = true ∧ req.jobID = jobID ∧ req.status.active = false
    | _, _ => later = last

variable {jobID : String}

theorem leaves_free (label : Label) (free : Routine label) (last : Bool) : (leaves jobID).allowed last label := by
  cases label with
  | propose cmd =>
    cases cmd with
    | createRepairJob => exact free.elim
    | updateRepairJob req => exact fun _ _ => free.1
    | _ => trivial
  | enqueue | send => exact free.elim
  | _ => trivial

theorem leaves_createJob (chunkID source target : String) (deleteSource last : Bool) :
    (leaves jobID).Follows last (createJob chunkID source target deleteSource) := by
  refine ⟨trivial, ?_⟩
  intro jid stage same
  cases same
  refine ⟨trivial, ?_⟩
  intro createdAt stage same
  cases same
  refine ⟨trivial, ?_⟩
  intro result stage reached
  obtain ⟨exists_, rfl⟩ := reached
  cases result with
  | some err => trivial
  | none =>
    refine ⟨?_, fun _ _ _ => trivial⟩
    -- a job that is on record cannot be created again, so its id is not queued here
    intro isLast same
    exact exists_ isLast same rfl

theorem leaves_copies (chunkID source target : String) (last : Bool) :
    (leaves jobID).Follows last (scheduleCopy chunkID source target) :=
  follows_scheduleCopy (fun _ => trivial) (leaves_createJob chunkID source target false) last

theorem leaves_working (last : Bool) : ∀ stage label result later, stage = last → Working label →
    (leaves jobID).next stage label result later → later = last := by
  intro stage label result later same working reached
  subst same
  cases label with
  | look => exact reached.2
  | propose cmd =>
    cases cmd with
    | createRepairJob => exact working.elim
    | updateRepairJob req =>
      rcases reached with same | ⟨_, _, settled⟩
      · exact same
      · cases settled.symm.trans working
    | _ => exact reached
  | _ => exact reached

theorem leaves_spawn {parts : Components} {s later : System} {prog : Prog}
    (spawned : Spawn parts s prog later) (last : Bool) (unqueued : last = true → jobID ∉ s.jobs) :
    (leaves jobID).Follows last prog := by
  apply spawn_follows parts leaves_free leaves_copies last spawned
  · intro other rest queue
    refine follows_executeJob leaves_free (leaves_working last) other ?_ last rfl
    intro stage req inside same _ isLast mine
    have head : jobID ∈ s.jobs := by
      rw [queue, ← mine, same]
      exact List.mem_cons_self
    exact absurd head (unqueued (inside ▸ isLast))
  · refine ⟨trivial, ?_⟩
    intro seen stage reached
    obtain ⟨inactive, rfl⟩ := reached
    have stuck (job : RepairJob) (member : job ∈ seen.1.getJobsByStatus seen.2 .inProgress) (isLast : stage = true) :
        job.jobID ≠ jobID := by
      obtain ⟨⟨id, found⟩, status⟩ := (mem_getJobsByStatus seen.1 seen.2 _ job).mp member
      intro same
      have settled := inactive isLast id job found same
      rw [status] at settled
      cases settled
    refine follows_recoverJobs leaves_free (leaves_working stage) parts.scheduler _ ?_ ?_ stage rfl
    · intro job member other same isLast
      exact stuck job member (same ▸ isLast)
    · intro job member other req same named _ isLast mine
      exact absurd (named.symm.trans mine) (stuck job member (same ▸ isLast))

theorem leaves_first (label : Label) (result : label.Result) : (leaves jobID).next false label result false := by
  cases label with
  | look => exact ⟨fun isLast => absurd isLast Bool.false_ne_true, rfl⟩
  | propose cmd =>
    cases cmd with
    | createRepairJob => exact ⟨fun isLast => absurd isLast Bool.false_ne_true, rfl⟩
    | updateRepairJob => exact .inl rfl
    | _ => rfl
  | _ => rfl

theorem createRepairJob_refused {m : FSM} {orders : Nat → MapOrder} {req : CommandCreateRepairJob}
    (known : ∃ job, m.repairJobRegistry.lookup req.jobID = some job) :
    (m.handle orders (.createRepairJob req)).2 ≠ none := by
  obtain ⟨job, found⟩ := known
  have member : req.jobID ∈ m.repairJobRegistry := Finmap.mem_of_lookup_eq_some found
  simp [handle, handleCmdCreateRepairJob, member]

theorem leaves_last {label : Label} {s later : System} {result : label.Result}
    (ran : Exec label s result later) (inactive : Inactive s.fsm jobID)
    (keys : ∀ id job, s.fsm.repairJobRegistry.lookup id = some job → job.jobID = id) :
    (leaves jobID).next true label result true := by
  obtain ⟨stored, found, status⟩ := inactive
  have proposed (cmd : Command) (answer : Option GoError)
      (known : ∀ req, cmd = .createRepairJob req → req.jobID = jobID → answer ≠ none) :
      (leaves jobID).next true (.propose cmd) answer true := by
    cases cmd with
    | createRepairJob req => exact ⟨fun _ => known req rfl, rfl⟩
    | updateRepairJob => exact .inl rfl
    | _ => rfl
  cases ran with
  | look =>
    refine ⟨?_, rfl⟩
    intro _ id job present same
    have here : id = jobID := (keys id job present).symm.trans same
    subst here
    cases found.symm.trans present
    exact status
  | applied _ cmd orders =>
    apply proposed
    intro req same here
    subst same here
    exact createRepairJob_refused ⟨stored, found⟩
  | refused | unconfirmed =>
    apply proposed
    intro req same here refused
    cases refused
  | _ => rfl

theorem JobStep.inactive {m after : FSM} {label : Label} (step : JobStep m label after)
    (inactive : Inactive m jobID) (allowed : (leaves jobID).allowed true label) : Inactive after jobID := by
  obtain ⟨job, found, status⟩ := inactive
  rcases step.kept found with same | ⟨req, updates, named, later⟩
  · exact ⟨job, same, status⟩
  · subst updates named
    exact ⟨job.updated req, later, allowed rfl rfl⟩

theorem JobStep.recorded {m after : FSM} {label : Label} (step : JobStep m label after)
    (inactive : Inactive after jobID) (before : ¬ Inactive m jobID) :
    ∃ req, label = .propose (.updateRepairJob req) ∧ req.jobID = jobID ∧ req.status.active = false := by
  obtain ⟨job, found, status⟩ := inactive
  rcases step.origin found with older | ⟨req, _, _, same⟩ | ⟨req, old, updates, named, _, same⟩
  · exact absurd ⟨job, older, status⟩ before
  · -- a new job is pending
    subst same
    cases status
  · subst same
    exact ⟨req, updates, named, status⟩

theorem spawn_jobs {parts : Components} {s later : System} {prog : Prog} (spawned : Spawn parts s prog later)
    {id : String} (queued : id ∈ later.jobs) : id ∈ s.jobs := by
  cases spawned with
  | component call =>
    cases call with
    | executeJob jobID rest next =>
      rw [next]
      exact List.mem_cons_of_mem _ queued
    | _ => exact queued
  | newLeader => exact (List.not_mem_nil queued).elim
  | _ => exact queued

theorem exec_jobs {label : Label} {s later : System} {result : label.Result} (ran : Exec label s result later)
    {id : String} (queued : id ∈ later.jobs) : id ∈ s.jobs ∨ label = .enqueue id ∨ label = .send id := by
  cases ran with
  | enqueue _ jobID =>
    unfold System.enqueue at queued
    split at queued
    · rcases List.mem_append.mp queued with older | new
      · exact .inl older
      · exact .inr (.inl (by rw [List.mem_singleton.mp new]))
    · exact .inl queued
  | sent _ jobID =>
    rcases List.mem_append.mp queued with older | new
    · exact .inl older
    · exact .inr (.inr (by rw [List.mem_singleton.mp new]))
  | retire _ nodeID jobID =>
    unfold System.retire at queued
    split at queued <;> exact .inl queued
  | _ => exact .inl queued

/-- When the result of a job is recorded, it is not in the queue, and no other process is still
    going to queue it or to mark it pending or in progress. -/
def RecordedLast (c : Config) (i : Nat) : Label → Prop
  | .propose (.updateRepairJob req) => req.status.active = false → req.jobID ∉ c.state.jobs ∧
      ∀ j other, j ≠ i → c.procs[j]? = some other → (leaves req.jobID).Follows true other
  | _ => True

structure LeftAlone (jobID : String) (c : Config) : Prop where
  follows : ∀ (i : Nat) prog, c.procs[i]? = some prog → (leaves jobID).Follows false prog
  unqueued : Inactive c.state.fsm jobID → jobID ∉ c.state.jobs
  settled : Inactive c.state.fsm jobID →
    ∀ (i : Nat) prog, c.procs[i]? = some prog → (leaves jobID).Follows true prog

namespace LeftAlone

open Concurrency (getElem?_set_cases getElem?_spawned)

variable {parts : Components} {c : Config}

theorem spawn (inv : LeftAlone jobID c) {prog : Prog} {later : System}
    (spawned : Spawn parts c.state prog later) : LeftAlone jobID ⟨later, c.procs ++ [prog]⟩ where
  follows i other listed := by
    rcases getElem?_spawned listed with same | listed
    · rw [same]
      exact leaves_spawn spawned false fun isLast => absurd isLast Bool.false_ne_true
    · exact inv.follows i other listed
  unqueued inactive queued := inv.unqueued (spawn_fsm parts spawned ▸ inactive) (spawn_jobs spawned queued)
  settled inactive i other listed := by
    have before : Inactive c.state.fsm jobID := spawn_fsm parts spawned ▸ inactive
    rcases getElem?_spawned listed with same | listed
    · rw [same]
      exact leaves_spawn spawned true fun _ => inv.unqueued before
    · exact inv.settled before i other listed

variable {i : Nat} {label : Label} {next : label.Result → Prog} {result : label.Result} {later : System}

theorem act (inv : LeftAlone jobID c) (running : c.procs[i]? = some (.act label next))
    (met : RecordedLast c i label) (ran : Exec label c.state result later)
    (keys : ∀ id job, c.state.fsm.repairJobRegistry.lookup id = some job → job.jobID = id) :
    LeftAlone jobID ⟨later, c.procs.set i (next result)⟩ := by
  have jobs := (exec_fsmStep ran).jobs
  refine ⟨?_, ?_, ?_⟩
  · intro j prog listed
    rcases getElem?_set_cases listed with ⟨rfl, rfl⟩ | ⟨_, listed⟩
    · exact (inv.follows j _ running).2 result false (leaves_first label result)
    · exact inv.follows j prog listed
  · intro inactive queued
    by_cases before : Inactive c.state.fsm jobID
    · have allowed := (inv.settled before i _ running).1
      rcases exec_jobs ran queued with older | same | same
      · exact inv.unqueued before older
      · subst same
        exact allowed rfl rfl
      · subst same
        exact allowed rfl rfl
    · obtain ⟨req, same, mine, settled⟩ := jobs.recorded inactive before
      subst same mine
      rcases exec_jobs ran queued with older | same | same
      · exact (met settled).1 older
      · cases same
      · cases same
  · intro inactive j prog listed
    by_cases before : Inactive c.state.fsm jobID
    · rcases getElem?_set_cases listed with ⟨rfl, rfl⟩ | ⟨_, listed⟩
      · exact (inv.settled before j _ running).2 result true (leaves_last ran before keys)
      · exact inv.settled before j prog listed
    · -- the action recorded the result of the job: others leave it alone by the condition
      obtain ⟨req, same, mine, settled⟩ := jobs.recorded inactive before
      subst same mine
      rcases getElem?_set_cases listed with ⟨rfl, rfl⟩ | ⟨differs, listed⟩
      · exact (inv.follows j _ running).2 result true (.inr ⟨rfl, rfl, settled⟩)
      · exact (met settled).2 j prog differs listed

end LeftAlone

theorem leftAlone_run {parts : Components} {start c : Config}
    (reached : ReachedUnder (world parts) RecordedLast start c)
    (known : ∃ history, Reached history start.state.fsm) (inv : LeftAlone jobID start) :
    LeftAlone jobID c ∧ (Inactive start.state.fsm jobID → Inactive c.state.fsm jobID) := by
  induction reached with
  | start => exact ⟨inv, id⟩
  | spawn _ prog later allowed ih =>
    obtain ⟨inv, kept⟩ := ih
    exact ⟨inv.spawn allowed, fun inactive => spawn_fsm parts allowed ▸ kept inactive⟩
  | act before i label next running met result later ran ih =>
    obtain ⟨inv, kept⟩ := ih
    obtain ⟨history, reached⟩ := reached_fsm parts known before
    refine ⟨inv.act running met ran (reached_registryKeys reached).jobs, ?_⟩
    intro inactive
    have allowed := (inv.settled (kept inactive) i _ running).1
    exact (exec_fsmStep ran).jobs.inactive (kept inactive) allowed

theorem leftAlone_empty (jobID : String) : LeftAlone jobID empty where
  follows _ _ listed := by cases listed
  unqueued _ queued := (List.not_mem_nil queued).elim
  settled _ _ _ listed := by cases listed

/-- In a run in which the result of a job is only recorded once its worker, its recovery and
    the queue are through with it, a finished job is never pending or in progress again. -/
theorem finished_jobs_stay_finished {parts : Components} {c later : Config}
    (reached : ReachedUnder (world parts) RecordedLast empty c)
    (continued : ReachedUnder (world parts) RecordedLast c later) (jobID : String)
    (job : RepairJob) (found : c.state.fsm.repairJobRegistry.lookup jobID = some job)
    (finished : job.status = .done ∨ job.status = .failed) :
    ∃ after, later.state.fsm.repairJobRegistry.lookup jobID = some after ∧
      after.status ≠ .pending ∧ after.status ≠ .inProgress := by
  have start : ∃ history, Reached history empty.state.fsm := ⟨[], Reached.empty⟩
  have known := reached_fsm parts start reached
  have inv := (leftAlone_run reached start (leftAlone_empty jobID)).1
  have inactive : Inactive c.state.fsm jobID := by
    refine ⟨job, found, ?_⟩
    rcases finished with settled | settled <;> rw [settled] <;> rfl
  obtain ⟨after, present, status⟩ := (leftAlone_run continued known inv).2 inactive
  refine ⟨after, present, ?_, ?_⟩
  · intro pending
    rw [pending] at status
    cases status
  · intro inProgress
    rw [inProgress] at status
    cases status

/-- A worker has published the job of the upload and not yet marked it. -/
def published : Config :=
  ((⟨uploaded.2, []⟩ : Config).spawned (executeJob "job-") { uploaded.2 with jobs := [] }).turns
    (execFresh 4) [0, 0]

def delivered : Config :=
  (published.spawned (heartbeat ⟨"n1", 1000, 1⟩ 1) published.state).turns (execFresh 5) [1, 1, 1, 1, 1, 1]

def reported : Config :=
  (delivered.spawned (reportRepairResult twoCopies "n1" "job-" true) delivered.state).turns (execFresh 6)
    [2, 2, 2, 2, 2]

/-- Only now the worker's own proposal is applied. -/
def marked : Config := reported.turns (execFresh 7) [0, 0]

theorem reported_beside : Beside twoCopies reported := by
  have taken := uploaded_reachable.beside.spawn twoCopies (.component (.executeJob _ "job-" [] rfl))
  have worker := taken.turns twoCopies 4 [0, 0]
  have beat := (worker.spawn twoCopies (.heartbeat _ ⟨"n1", 1000, 1⟩ 1)).turns twoCopies 5 [1, 1, 1, 1, 1, 1]
  exact (beat.spawn twoCopies (.component (.reportRepairResult _ "n1" "job-" true))).turns twoCopies 6
    [2, 2, 2, 2, 2]

theorem finished_job_returns :
    ∃ c later : Config, Reachable (world twoCopies) empty c ∧
      Reachable (world twoCopies) c later ∧
      (∃ job, c.state.fsm.repairJobRegistry.lookup "job-" = some job ∧ job.status = .done) ∧
      ∃ job, later.state.fsm.repairJobRegistry.lookup "job-" = some job ∧ job.status = .inProgress := by
  have done : reported.state.fsm.repairJobRegistry.lookup "job-" =
      some ⟨"job-", "ck-1", "", false, "n1", "n2", .done, 0, 3, 6⟩ := by decide
  have active : marked.state.fsm.repairJobRegistry.lookup "job-" =
      some ⟨"job-", "ck-1", "", false, "n1", "n2", .inProgress, 0, 3, 7⟩ := by decide
  obtain ⟨settled, reached⟩ := reported_beside
  refine ⟨⟨reported.state, settled ++ reported.procs⟩, ⟨marked.state, settled ++ marked.procs⟩, reached, ?_, ?_, ?_⟩
  · exact ReachedUnder.start.turns_beside (execFresh_exec 7) [0, 0]
  · exact ⟨_, done, rfl⟩
  · exact ⟨_, active, rfl⟩

def NotQueued (s : System) : Label → Prop
  | .propose (.updateRepairJob req) => req.status.active = false → req.jobID ∉ s.jobs
  | _ => True

instance (s : System) (label : Label) : Decidable (NotQueued s label) :=
  decidable_of_iff ((match label with
    | .propose (.updateRepairJob req) => decide (req.status.active = false → req.jobID ∉ s.jobs)
    | _ => true) = true) (by unfold NotQueued; split <;> first | exact decide_eq_true_iff | simp)

theorem recordedLast_alone (s : System) (label : Label) (i : Nat) (procs : List Prog)
    (notQueued : NotQueued s label)
    (others : ∀ j other, j ≠ i → procs[j]? = some other → other = .done) :
    RecordedLast ⟨s, procs⟩ i label := by
  cases label with
  | propose cmd =>
    cases cmd with
    | updateRepairJob req =>
      intro settled
      refine ⟨notQueued settled, ?_⟩
      intro j other differs listed
      rw [others j other differs listed]
      trivial
    | _ => trivial
  | _ => trivial

def recoveredAfter : List (System × Label) × System :=
  alone 7 (recoverStuckJobs twoCopies.scheduler) confirmed.2

theorem finished_jobs_stay_finished_recovered :
    ∃ after, recoveredAfter.2.fsm.repairJobRegistry.lookup "job-" = some after ∧
      after.status ≠ .pending ∧ after.status ≠ .inProgress := by
  have settled : confirmed.2.fsm.repairJobRegistry.lookup "job-" =
      some ⟨"job-", "ck-1", "", false, "n1", "n2", .done, 0, 3, 6⟩ := by decide
  have unqueued : ∀ x ∈ recoveredAfter.1, NotQueued x.1 x.2 := by decide
  obtain ⟨procs, idle, reached⟩ := confirmed_sequential recordedLast_alone (by decide) (by decide) (by decide)
  have started : ReachedUnder (world twoCopies) RecordedLast ⟨confirmed.2, procs⟩ ⟨confirmed.2, procs⟩ := .start
  obtain ⟨_, _, continued⟩ := started.call (execFresh_exec 7) idle (.recoverStuckJobs _)
    fun s label member procs others => recordedLast_alone s label _ procs (unqueued (s, label) member) others
  exact finished_jobs_stay_finished reached continued "job-" _ settled (.inl rfl)

end DistributedFs.Scheduler
