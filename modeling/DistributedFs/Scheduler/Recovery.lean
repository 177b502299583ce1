import DistributedFs.Scheduler.Runs

namespace DistributedFs.Scheduler

open Go Fsm MetadataFSM Healing Healing.Prog Concurrency

def taskOf (m : FSM) (id : String) : Option (String × String × String) :=
  (m.repairJobRegistry.lookup id).map fun job => (job.chunkID, job.sourceNodeID, job.targetNodeID)

def sources (rs : RepairScheduler) (live : List NodeEntry) : List String × String :=
  (live.map NodeEntry.nodeID, (rs.sourceStrategy.selectPrimary live).nodeID)

def sourcesOf (rs : RepairScheduler) (m : FSM) (chunkID : String) : Option (List String × String) :=
  (m.getChunkLocations chunkID).toOption.map (sources rs)

/-- What others leave alone while stuck jobs are recovered. Workers take the jobs that are queued and
    mark them in progress, and heartbeats are noted on the nodes. -/
structure Settled (rs : RepairScheduler) (m later : FSM) : Prop where
  sources : ∀ chunkID, sourcesOf rs later chunkID = sourcesOf rs m chunkID
  tasks : ∀ id, taskOf later id = taskOf m id

theorem Settled.refl (rs : RepairScheduler) (m : FSM) : Settled rs m m := ⟨fun _ => rfl, fun _ => rfl⟩

theorem Settled.trans {rs : RepairScheduler} {m mid later : FSM} (first : Settled rs m mid)
    (second : Settled rs mid later) : Settled rs m later :=
  ⟨fun id => (second.sources id).trans (first.sources id), fun id => (second.tasks id).trans (first.tasks id)⟩

theorem sourcesOf_congr {rs : RepairScheduler} {m later : FSM} (nodes : later.nodeRegistry = m.nodeRegistry)
    (chunks : later.chunkRegistry = m.chunkRegistry) (chunkID : String) :
    sourcesOf rs later chunkID = sourcesOf rs m chunkID := by
  simp only [sourcesOf, getChunkLocations, getChunk, nodes, chunks]

theorem sourcesOf_cases {rs : RepairScheduler} {m later : FSM} {chunkID : String}
    (same : sourcesOf rs later chunkID = sourcesOf rs m chunkID) :
    ((∃ err, later.getChunkLocations chunkID = .error err) ∧ ∀ live, m.getChunkLocations chunkID ≠ .ok live) ∨
      ∃ now live, later.getChunkLocations chunkID = .ok now ∧ m.getChunkLocations chunkID = .ok live ∧
        sources rs now = sources rs live := by
  unfold sourcesOf at same
  cases found : later.getChunkLocations chunkID with
  | error err =>
    refine .inl ⟨⟨err, rfl⟩, ?_⟩
    intro live read
    rw [found, read] at same
    cases same
  | ok now =>
    cases read : m.getChunkLocations chunkID with
    | error err =>
      rw [found, read] at same
      cases same
    | ok live =>
      rw [found, read] at same
      exact .inr ⟨now, live, rfl, rfl, Option.some.inj same⟩

def Unhindered : (label : Label) → label.Result → Prop
  | .cancelled, ended => ended = false
  | .send _, sent => sent = true
  | _, _ => True

def recovering (rs : RepairScheduler) (stuck : List String) : Setting System Label Label.Result where
  exec label s result after := Exec label s result after ∧ Answered label result ∧ Unhindered label result
  promise label _ _ _ :=
    match label with
    | .send id => id ∈ stuck
    | _ => True
  rely s later := Settled rs s.fsm later.fsm
  refl s := .refl rs s.fsm
  trans := Settled.trans

/-- The source that a stuck job has after recovery: an update without a source keeps it. -/
def finalSource (rs : RepairScheduler) (live : List NodeEntry) (job : RepairJob) : String :=
  if live.any fun n => job.sourceNodeID = n.nodeID then job.sourceNodeID
  else if (rs.sourceStrategy.selectPrimary live).nodeID ≠ "" then
    (rs.sourceStrategy.selectPrimary live).nodeID
  else job.sourceNodeID

theorem finalSource_congr {rs : RepairScheduler} {live now : List NodeEntry}
    (same : sources rs now = sources rs live) (job : RepairJob) :
    finalSource rs now job = finalSource rs live job := by
  obtain ⟨ids, primary⟩ := Prod.mk.inj same
  have any (live : List NodeEntry) : (live.any fun n => job.sourceNodeID = n.nodeID) =
      (live.map NodeEntry.nodeID).any fun id => job.sourceNodeID = id := by
    rw [List.any_map]
    rfl
  simp only [finalSource, any, ids, primary]

structure Recovered (rs : RepairScheduler) (m : FSM) (jobs : List RepairJob) (before : FSM)
    (earlier did : List ((label : Label) × label.Result)) (later : System) : Prop where
  sources : ∀ chunkID, sourcesOf rs later.fsm chunkID = sourcesOf rs m chunkID
  log : ∀ x ∈ earlier, x ∈ did
  others : ∀ id, id ∉ jobs.map RepairJob.jobID → taskOf later.fsm id = taskOf before id
  each : ∀ job ∈ jobs, ∀ live, m.getChunkLocations job.chunkID = .ok live → live.length ≠ 0 →
    live.length < rs.replicationFactor → ⟨.send job.jobID, true⟩ ∈ did ∧
      taskOf later.fsm job.jobID = some (job.chunkID, finalSource rs live job, job.targetNodeID)

variable {rs : RepairScheduler} {m : FSM}

theorem Recovered.cons {val : RepairJob} {rest : List RepairJob} {before start : FSM}
    {earlier mid did : List ((label : Label) × label.Result)} {later : System}
    (recovered : Recovered rs m rest before mid did later) (alone : val.jobID ∉ rest.map RepairJob.jobID)
    (log : ∀ x ∈ earlier, x ∈ mid) (others : ∀ id, id ≠ val.jobID → taskOf before id = taskOf start id)
    (mine : ∀ live, m.getChunkLocations val.chunkID = .ok live → live.length ≠ 0 →
      live.length < rs.replicationFactor → ⟨.send val.jobID, true⟩ ∈ mid ∧
        taskOf before val.jobID = some (val.chunkID, finalSource rs live val, val.targetNodeID)) :
    Recovered rs m (val :: rest) start earlier did later where
  sources := recovered.sources
  log x member := recovered.log x (log x member)
  others id absent := by
    simp only [List.map_cons, List.mem_cons, not_or] at absent
    exact (recovered.others id absent.2).trans (others id absent.1)
  each job member live read some short := by
    rcases List.mem_cons.mp member with rfl | member
    · obtain ⟨sent, task⟩ := mine live read some short
      exact ⟨recovered.log _ sent, (recovered.others _ alone).trans task⟩
    · exact recovered.each job member live read some short

theorem updateRepairJob_applied {s later : System} {req : CommandUpdateRepairJob}
    (ran : Exec (.propose (.updateRepairJob req)) s none later) {job : RepairJob}
    (found : s.fsm.repairJobRegistry.lookup req.jobID = some job) :
    later.fsm = s.fsm.setJob req.jobID (job.updated req) := by
  obtain ⟨orders, -, rfl⟩ := ran.accepted rfl
  simp only [handle, handleCmdUpdateRepairJob_found found]

theorem taskOf_setJob (m : FSM) (id other : String) (job : RepairJob) :
    taskOf (m.setJob id job) other =
      if other = id then some (job.chunkID, job.sourceNodeID, job.targetNodeID) else taskOf m other := by
  simp only [taskOf, setJob, GoMap.lookup_insert]
  split <;> rfl

theorem reset_task {s later : System} {val : RepairJob} {source : String} {updatedAt : Time}
    (task : taskOf s.fsm val.jobID = some (val.chunkID, val.sourceNodeID, val.targetNodeID))
    (ran : Exec (.propose (.updateRepairJob ⟨val.jobID, .pending, source, updatedAt, 0, ""⟩)) s none later) :
    (∀ id, id ≠ val.jobID → taskOf later.fsm id = taskOf s.fsm id) ∧
      taskOf later.fsm val.jobID =
        some (val.chunkID, if source ≠ "" then source else val.sourceNodeID, val.targetNodeID) := by
  obtain ⟨job, found, same⟩ := Option.map_eq_some_iff.mp task
  rw [Prod.mk.injEq, Prod.mk.injEq] at same
  obtain ⟨chunk, old, target⟩ := same
  rw [updateRepairJob_applied ran found]
  constructor
  · intro id other
    rw [taskOf_setJob, if_neg other]
  · rw [taskOf_setJob, if_pos rfl]
    simp only [RepairJob.updated, chunk, old, target]

def AsRead (m : FSM) (jobs : List RepairJob) : Prop :=
  ∀ job ∈ jobs, taskOf m job.jobID = some (job.chunkID, job.sourceNodeID, job.targetNodeID)

def Loop (rs : RepairScheduler) (m : FSM) (stuck : List String) (jobs : List RepairJob) : Prop :=
  ∀ s did, (∀ chunkID, sourcesOf rs s.fsm chunkID = sourcesOf rs m chunkID) → AsRead s.fsm jobs →
    (recovering rs stuck).Ensures (Recovered rs m jobs s.fsm did) did (recoverJobs rs jobs) s

structure Underway (rs : RepairScheduler) (m before : FSM) (val : RepairJob)
    (earlier mid : List ((label : Label) × label.Result)) (s : System) : Prop where
  sources : ∀ chunkID, sourcesOf rs s.fsm chunkID = sourcesOf rs m chunkID
  log : ∀ x ∈ earlier, x ∈ mid
  others : ∀ id, id ≠ val.jobID → taskOf s.fsm id = taskOf before id

variable {stuck : List String} {before : FSM} {val : RepairJob} {rest : List RepairJob} {s later : System}
  {earlier mid : List ((label : Label) × label.Result)}

theorem Underway.goesOn (underway : Underway rs m before val earlier mid s)
    (settled : Settled rs s.fsm later.fsm) (did : (label : Label) × label.Result) :
    Underway rs m before val earlier (mid ++ [did]) later where
  sources id := (settled.sources id).trans (underway.sources id)
  log x member := List.mem_append_left _ (underway.log x member)
  others id other := (settled.tasks id).trans (underway.others id other)

theorem Loop.resume (loop : Loop rs m stuck rest) (alone : val.jobID ∉ rest.map RepairJob.jobID)
    (read : AsRead before rest) (underway : Underway rs m before val earlier mid s)
    (mine : ∀ live, m.getChunkLocations val.chunkID = .ok live → live.length ≠ 0 →
      live.length < rs.replicationFactor → ⟨.send val.jobID, true⟩ ∈ mid ∧
        taskOf s.fsm val.jobID = some (val.chunkID, finalSource rs live val, val.targetNodeID)) :
    (recovering rs stuck).Ensures (Recovered rs m (val :: rest) before earlier) mid (recoverJobs rs rest) s := by
  have tasks : AsRead s.fsm rest := by
    intro job member
    have other : job.jobID ≠ val.jobID := by
      intro same
      exact alone (same ▸ List.mem_map_of_mem member)
    rw [underway.others job.jobID other]
    exact read job member
  refine (loop s mid underway.sources tasks).mono ?_
  intro did last recovered
  exact recovered.cons alone underway.log underway.others mine

theorem Loop.enqueue (loop : Loop rs m stuck rest) (alone : val.jobID ∉ rest.map RepairJob.jobID)
    (read : AsRead before rest) (listed : val.jobID ∈ stuck) (underway : Underway rs m before val earlier mid s)
    (mine : ∀ live, m.getChunkLocations val.chunkID = .ok live → live.length ≠ 0 →
      live.length < rs.replicationFactor →
        taskOf s.fsm val.jobID = some (val.chunkID, finalSource rs live val, val.targetNodeID)) :
    (recovering rs stuck).Ensures (Recovered rs m (val :: rest) before earlier) mid
      (enqueueJob val.jobID (recoverJobs rs rest)) s := by
  intro met settled sent after ran
  obtain ⟨ran, _, success⟩ := ran
  cases success
  cases ran
  refine ⟨listed, ?_⟩
  have now := underway.goesOn settled ⟨.send val.jobID, true⟩
  apply loop.resume alone read (s := met.send val.jobID) ⟨now.sources, now.log, now.others⟩
  intro live locations some short
  exact ⟨by simp, (settled.tasks _).trans (mine live locations some short)⟩

theorem Loop.reset (loop : Loop rs m stuck rest) (alone : val.jobID ∉ rest.map RepairJob.jobID)
    (read : AsRead before rest) (listed : val.jobID ∈ stuck) (underway : Underway rs m before val earlier mid s)
    (task : taskOf s.fsm val.jobID = some (val.chunkID, val.sourceNodeID, val.targetNodeID))
    {now live : List NodeEntry} (locations : m.getChunkLocations val.chunkID = .ok live)
    (same : sources rs now = sources rs live)
    (gone : ¬ (now.any fun n => val.sourceNodeID = n.nodeID) = true) {next : Option GoError → Prog}
    (accepted : next none = enqueueJob val.jobID (recoverJobs rs rest)) :
    (recovering rs stuck).Ensures (Recovered rs m (val :: rest) before earlier) mid
      (clock fun updatedAt => propose (.updateRepairJob ⟨val.jobID, .pending,
        (rs.sourceStrategy.selectPrimary now).nodeID, updatedAt, 0, ""⟩) next) s := by
  intro met settled updatedAt after ran
  obtain ⟨ran, _⟩ := ran
  cases ran
  refine ⟨trivial, ?_⟩
  have timed := underway.goesOn settled ⟨.clock, updatedAt⟩
  intro met' settled' answer after ran
  obtain ⟨ran, success, _⟩ := ran
  cases success
  refine ⟨trivial, ?_⟩
  have proposed := timed.goesOn settled' ⟨.propose (.updateRepairJob ⟨val.jobID, .pending,
    (rs.sourceStrategy.selectPrimary now).nodeID, updatedAt, 0, ""⟩), none⟩
  have old : taskOf met'.fsm val.jobID = some (val.chunkID, val.sourceNodeID, val.targetNodeID) :=
    ((settled.trans settled').tasks _).trans task
  obtain ⟨others, mine⟩ := reset_task old ran
  obtain ⟨chunks, nodes⟩ := exec_jobCommand rfl ran
  rw [accepted]
  apply loop.enqueue alone read listed
  · exact ⟨fun id => (sourcesOf_congr nodes chunks id).trans (proposed.sources id), proposed.log,
      fun id other => (others id other).trans (proposed.others id other)⟩
  · intro live' locations' some short
    cases locations.symm.trans locations'
    rw [mine, ← finalSource_congr same, finalSource, if_neg gone]

theorem Loop.cons (loop : Loop rs m stuck rest) (alone : val.jobID ∉ rest.map RepairJob.jobID)
    (listed : val.jobID ∈ stuck) : Loop rs m stuck (val :: rest) := by
  intro s did same read
  have tasks : AsRead s.fsm rest := fun job member => read job (List.mem_cons_of_mem val member)
  have start : Underway rs m s.fsm val did did s := ⟨same, fun _ member => member, fun _ _ => rfl⟩
  intro met settled ended after ran
  obtain ⟨ran, _, success⟩ := ran
  cases success
  cases ran
  refine ⟨trivial, ?_⟩
  have polled := start.goesOn settled ⟨.cancelled, false⟩
  intro met' settled' seen after ran
  obtain ⟨ran, _⟩ := ran
  obtain ⟨seen, order⟩ := seen
  cases ran
  refine ⟨trivial, ?_⟩
  have looked := polled.goesOn settled' ⟨.look, (met'.fsm, order)⟩
  have task : taskOf met'.fsm val.jobID = some (val.chunkID, val.sourceNodeID, val.targetNodeID) :=
    ((settled.trans settled').tasks _).trans (read val (by simp))
  dsimp only
  rcases sourcesOf_cases (looked.sources val.chunkID) with ⟨⟨err, found⟩, unread⟩ | ⟨now, live, found, read, same⟩
  · rw [found]
    apply loop.resume alone tasks looked
    intro live read
    exact absurd read (unread live)
  · have length : now.length = live.length := by
      have ids := congrArg (fun seen => seen.1.length) same
      simpa [sources] using ids
    rw [found]
    dsimp only
    split
    · rename_i none
      apply loop.resume alone tasks looked
      intro live' read' some
      cases read.symm.trans read'
      exact absurd (length ▸ none) some
    · split
      · rename_i enough
        apply loop.resume alone tasks looked
        intro live' read' _ short
        cases read.symm.trans read'
        omega
      · split
        · rename_i alive
          apply loop.enqueue alone tasks listed looked
          intro live' read' _ _
          cases read.symm.trans read'
          rw [task, ← finalSource_congr same, finalSource, if_pos alive]
        · rename_i gone
          exact loop.reset alone tasks listed looked task read same gone rfl

theorem recoverJobs_loop (jobs : List RepairJob) (distinct : (jobs.map RepairJob.jobID).Nodup)
    (listed : ∀ job ∈ jobs, job.jobID ∈ stuck) : Loop rs m stuck jobs := by
  induction jobs with
  | nil =>
    intro s did same _ later settled
    exact ⟨fun id => (settled.sources id).trans (same id), fun _ member => member,
      fun id _ => settled.tasks id, fun _ member => (List.not_mem_nil member).elim⟩
  | cons val rest ih =>
    obtain ⟨alone, distinct⟩ := List.nodup_cons.mp distinct
    have loop := ih distinct fun job member => listed job (List.mem_cons_of_mem val member)
    exact loop.cons alone (listed val (by simp))

theorem stuckJobs_nodup {m : FSM} (keyed : ∀ id job, m.repairJobRegistry.lookup id = some job → job.jobID = id)
    (order : MapOrder) (status : RepairStatus) :
    ((m.getJobsByStatus order status).map RepairJob.jobID).Nodup :=
  (GoMap.range_ids_nodup order keyed).sublist (List.filter_sublist.map _)

structure UnderRepair (rs : RepairScheduler) (m : FSM) (id : String) (job : RepairJob)
    (live : List NodeEntry) : Prop where
  found : m.repairJobRegistry.lookup id = some job
  active : job.status.active = true
  locations : m.getChunkLocations job.chunkID = .ok live
  some : live.length ≠ 0
  short : live.length < rs.replicationFactor

/-- The job is in progress, and the location that will be its source is not its target: its
    source where that is still live, else the one that the strategy prefers. -/
def Recoverable (rs : RepairScheduler) (live : List NodeEntry) (job : RepairJob) : Prop :=
  job.status = .inProgress ∧
    ((∃ node ∈ live, job.sourceNodeID = node.nodeID) ∧ job.sourceNodeID ≠ job.targetNodeID ∨
      (∀ node ∈ live, job.sourceNodeID ≠ node.nodeID) ∧
        (rs.sourceStrategy.selectPrimary live).nodeID ∉ ["", job.targetNodeID])

theorem finalSource_iff (sound : rs.sourceStrategy.Sound) {live : List NodeEntry} (some : live.length ≠ 0)
    (job : RepairJob) :
    finalSource rs live job ∈ live.map NodeEntry.nodeID ∧ finalSource rs live job ≠ job.targetNodeID ↔
      (∃ node ∈ live, job.sourceNodeID = node.nodeID) ∧ job.sourceNodeID ≠ job.targetNodeID ∨
        (∀ node ∈ live, job.sourceNodeID ≠ node.nodeID) ∧
          (rs.sourceStrategy.selectPrimary live).nodeID ∉ ["", job.targetNodeID] := by
  have primary := sound.primary live (by simpa using some)
  have listed : (live.any fun n => job.sourceNodeID = n.nodeID) = true ↔
      ∃ node ∈ live, job.sourceNodeID = node.nodeID := by
    simp only [List.any_eq_true, decide_eq_true_eq]
  have member : job.sourceNodeID ∈ live.map NodeEntry.nodeID ↔
      ∃ node ∈ live, job.sourceNodeID = node.nodeID := by
    simp only [List.mem_map, eq_comm]
  by_cases alive : ∃ node ∈ live, job.sourceNodeID = node.nodeID
  · have not : ¬ ∀ node ∈ live, job.sourceNodeID ≠ node.nodeID := by
      simpa using alive
    simp only [finalSource, listed.mpr alive, if_true, member, alive, not, true_and, false_and, or_false]
  · have gone : ∀ node ∈ live, job.sourceNodeID ≠ node.nodeID := by
      simpa using alive
    have chosen : (rs.sourceStrategy.selectPrimary live).nodeID ∈ live.map NodeEntry.nodeID :=
      List.mem_map_of_mem primary
    have reset : finalSource rs live job =
        if (rs.sourceStrategy.selectPrimary live).nodeID ≠ "" then
          (rs.sourceStrategy.selectPrimary live).nodeID else job.sourceNodeID :=
      if_neg (listed.not.mpr alive)
    rw [or_iff_right fun held => alive held.1, and_iff_right gone, reset]
    by_cases unnamed : (rs.sourceStrategy.selectPrimary live).nodeID = ""
    · simp [unnamed, member, alive]
    · simp [unnamed, chosen]

theorem mem_stuckJobs {m : FSM} (keyed : ∀ id job, m.repairJobRegistry.lookup id = some job → job.jobID = id)
    (order : MapOrder) (job : RepairJob) : job ∈ m.getJobsByStatus order .inProgress ↔
      m.repairJobRegistry.lookup job.jobID = some job ∧ job.status = .inProgress := by
  rw [mem_getJobsByStatus]
  constructor
  · intro held
    obtain ⟨⟨id, found⟩, status⟩ := held
    rw [keyed id job found]
    exact ⟨found, status⟩
  · intro held
    exact ⟨⟨_, held.1⟩, held.2⟩

section Outcome

variable {parts : Components} {c last : Config} {i : Nat} {s : System} {order : MapOrder} {history : History}
  {events : List (Event System Label Label.Result)} (reached : Reached history s.fsm)
  (running : c.procs[i]? = some (recoverStuckJobs parts.scheduler))
  (steps : Steps (world parts) c (⟨i, s, .look, (s.fsm, order), s⟩ :: events) last)
  (ended : last.procs[i]? = some .done)
  (succeeded : ∀ e ∈ events, e.proc = i → Answered e.label e.result ∧ Unhindered e.label e.result)
  (others : ∀ e ∈ events, e.proc ≠ i → Settled parts.scheduler e.before.fsm e.after.fsm)

include reached running steps ended succeeded others

theorem recovery_outcome :
    (∀ e ∈ events, e.proc = i → ∀ id, e.label = .send id →
      ∃ job, s.fsm.repairJobRegistry.lookup id = some job ∧ job.status = .inProgress) ∧
    Recovered parts.scheduler s.fsm (s.fsm.getJobsByStatus order .inProgress) s.fsm [] (ownLog i events)
      last.state := by
  have keys := (reached_registryKeys reached).jobs
  obtain ⟨procs, resumed, rest⟩ := steps.begun running
  have read : AsRead s.fsm (s.fsm.getJobsByStatus order .inProgress) := by
    intro job member
    rw [taskOf, ((mem_stuckJobs keys order job).mp member).1]
    rfl
  have loop : Loop parts.scheduler s.fsm _ (s.fsm.getJobsByStatus order .inProgress) :=
    recoverJobs_loop _ (stuckJobs_nodup keys order _) fun _ => List.mem_map_of_mem
  have own (e : Event System Label Label.Result) (member : e ∈ events) (mine : e.proc = i) :=
    And.intro (rest.exec e member) (succeeded e member mine)
  have calm (s : System) (prog : Prog) (later : System) (allowed : Spawn parts s prog later) :
      Settled parts.scheduler s.fsm later.fsm := by
    rw [spawn_fsm parts allowed]
    exact .refl _ _
  obtain ⟨promised, program, final, ensures⟩ :=
    Setting.Ensures.steps (c := ⟨s, procs⟩) (loop s [] (fun _ => rfl) read) resumed rest own others calm
  cases ended.symm.trans final
  refine ⟨?_, ensures last.state (.refl _ _)⟩
  intro e member mine id sent
  have queued := promised e member mine
  obtain ⟨proc, before, label, result, after⟩ := e
  dsimp only at sent
  subst sent
  obtain ⟨job, listed, rfl⟩ := List.mem_map.mp queued
  exact ⟨job, (mem_stuckJobs keys order job).mp listed⟩

/-- `RecoverStuckJobs` reads the state `s` and returns, uncancelled and with all its proposals
    accepted. Then every active job of an under-replicated chunk with a live location is queued
    and has a live source that is not its target, exactly if each of them was recoverable. -/
theorem recovery_complete_iff (sound : parts.scheduler.sourceStrategy.Sound) :
    (∀ id job live, UnderRepair parts.scheduler s.fsm id job live →
      (∃ e ∈ events, e.proc = i ∧ e.label = .send id) ∧
      ∃ now locations, last.state.fsm.repairJobRegistry.lookup id = some now ∧
        last.state.fsm.getChunkLocations now.chunkID = .ok locations ∧
        now.sourceNodeID ∈ locations.map NodeEntry.nodeID ∧ now.sourceNodeID ≠ now.targetNodeID) ↔
    ∀ id job live, UnderRepair parts.scheduler s.fsm id job live → Recoverable parts.scheduler live job := by
  obtain ⟨sent, recovered⟩ := recovery_outcome reached running steps ended succeeded others
  have keys := (reached_registryKeys reached).jobs
  have settled {id : String} {job : RepairJob} {live : List NodeEntry}
      (repair : UnderRepair parts.scheduler s.fsm id job live) (stuck : job.status = .inProgress) :
      (∃ e ∈ events, e.proc = i ∧ e.label = .send id) ∧
      ∃ now locations, last.state.fsm.repairJobRegistry.lookup id = some now ∧
        last.state.fsm.getChunkLocations now.chunkID = .ok locations ∧
        locations.map NodeEntry.nodeID = live.map NodeEntry.nodeID ∧
        now.sourceNodeID = finalSource parts.scheduler live job ∧ now.targetNodeID = job.targetNodeID := by
    have same := keys id job repair.found
    subst same
    obtain ⟨queued, task⟩ := recovered.each job ((mem_stuckJobs keys order job).mpr ⟨repair.found, stuck⟩)
      live repair.locations repair.some repair.short
    obtain ⟨now, found, same⟩ := Option.map_eq_some_iff.mp task
    rw [Prod.mk.injEq, Prod.mk.injEq] at same
    obtain ⟨chunk, source, target⟩ := same
    constructor
    · obtain ⟨e, member, did⟩ := List.mem_map.mp queued
      obtain ⟨listed, mine⟩ := List.mem_filter.mp member
      exact ⟨e, listed, by simpa using mine, congrArg Sigma.fst did⟩
    · rcases sourcesOf_cases (recovered.sources job.chunkID) with ⟨_, unread⟩ | ⟨locations, _, here, read, same⟩
      · exact absurd repair.locations (unread live)
      · cases read.symm.trans repair.locations
        exact ⟨now, locations, found, chunk ▸ here, congrArg Prod.fst same, source, target⟩
  constructor
  · intro all id job live repair
    obtain ⟨⟨e, member, mine, queued⟩, now, locations, found, read, listed, apart⟩ := all id job live repair
    obtain ⟨other, stored, stuck⟩ := sent e member mine id queued
    cases repair.found.symm.trans stored
    obtain ⟨_, now', locations', found', read', same, source, target⟩ := settled repair stuck
    cases found.symm.trans found'
    cases read.symm.trans read'
    refine ⟨stuck, (finalSource_iff sound repair.some job).mp ?_⟩
    rw [← source, ← target, ← same]
    exact ⟨listed, apart⟩
  · intro all id job live repair
    obtain ⟨stuck, placed⟩ := all id job live repair
    obtain ⟨queued, now, locations, found, read, same, source, target⟩ := settled repair stuck
    refine ⟨queued, now, locations, found, read, ?_⟩
    rw [source, target, same]
    exact (finalSource_iff sound repair.some job).mpr placed

end Outcome

instance (label : Label) (result : label.Result) : Decidable (Unhindered label result) :=
  decidable_of_iff ((match label, result with
    | .cancelled, ended => !ended
    | .send _, sent => sent
    | _, _ => true) = true) (by unfold Unhindered; split <;> simp)

def sends : Label → Bool
  | .send _ => true
  | _ => false

/-- A new leader takes over while the job of the upload is still pending. -/
def takenOver : System := { uploaded.2 with pendingJobs := ∅, pendingJobsSet := ∅, jobs := [] }

def n1 : NodeEntry := ⟨"n1", "10.0.0.1:9000", .alive, 100000, 0, 0, 0, 0⟩

theorem pending_job_forgotten :
    (∃ procs, Reachable (world twoCopies) empty ⟨takenOver, procs⟩) ∧
      UnderRepair twoCopies.scheduler takenOver.fsm "job-"
        ⟨"job-", "ck-1", "", false, "n1", "n2", .pending, 0, 3, 3⟩ [n1] ∧
      ∃ events procs, Steps (world twoCopies) ⟨takenOver, [recoverStuckJobs twoCopies.scheduler]⟩ events
          ⟨(alone 50 (recoverStuckJobs twoCopies.scheduler) takenOver).2, procs⟩ ∧
        procs[0]? = some .done ∧ (∀ e ∈ events, Answered e.label e.result ∧ Unhindered e.label e.result) ∧
        ∀ e ∈ events, sends e.label = false := by
  have quiet : ∀ x ∈ (alone 50 (recoverStuckJobs twoCopies.scheduler) takenOver).1,
    (Answered x.2 (execFresh 50 x.2 x.1).1 ∧ Unhindered x.2 (execFresh 50 x.2 x.1).1) ∧ sends x.2 = false := by
    decide
  refine ⟨?_, ⟨by decide, by decide, by decide, by decide, by decide⟩, ?_⟩
  · obtain ⟨procs, _, reached⟩ := uploaded_reachable
    exact ⟨_, reached.spawn _ _ (.newLeader _)⟩
  · obtain ⟨events, procs, steps, ended, trace, own⟩ :=
      alone_steps twoCopies 50 (recoverStuckJobs twoCopies.scheduler) takenOver
    have each (e : Event System Label Label.Result) (member : e ∈ events) :=
      quiet (e.before, e.label) (trace ▸ List.mem_map_of_mem member)
    refine ⟨events, procs, steps, ended, ?_, ?_⟩
    · intro e member
      rw [(own e member).2.1]
      exact (each e member).1
    · intro e member
      exact (each e member).2

def takenOverLater : System := { executed.2 with pendingJobs := ∅, pendingJobsSet := ∅, jobs := [] }

theorem recovery_complete_iff_marked :
    ∃ events last, Steps (world twoCopies) ⟨takenOverLater, [recoverStuckJobs twoCopies.scheduler]⟩
        (⟨0, takenOverLater, .look, (takenOverLater.fsm, default), takenOverLater⟩ :: events) last ∧
      ∃ e ∈ events, e.proc = 0 ∧ e.label = .send "job-" := by
  have done : ∀ x ∈ (alone 50 (recoverJobs twoCopies.scheduler
      (takenOverLater.fsm.getJobsByStatus default .inProgress)) takenOverLater).1,
    Answered x.2 (execFresh 50 x.2 x.1).1 ∧ Unhindered x.2 (execFresh 50 x.2 x.1).1 := by decide
  have repair : UnderRepair twoCopies.scheduler takenOverLater.fsm "job-"
      ⟨"job-", "ck-1", "", false, "n1", "n2", .inProgress, 0, 3, 5⟩ [n1] :=
    ⟨by decide, by decide, by decide, by decide, by decide⟩
  have only : ∀ id job, takenOverLater.fsm.repairJobRegistry.lookup id = some job →
    job = ⟨"job-", "ck-1", "", false, "n1", "n2", .inProgress, 0, 3, 5⟩ := by decide
  obtain ⟨_, _, run⟩ := executed_reachable
  obtain ⟨history, reached⟩ : ∃ history, Reached history takenOverLater.fsm :=
    reached_fsm twoCopies ⟨[], .empty⟩ run
  have start : Steps (world twoCopies) ⟨takenOverLater, [recoverStuckJobs twoCopies.scheduler]⟩ []
      ⟨takenOverLater, [recoverStuckJobs twoCopies.scheduler]⟩ := .refl
  have first := start.act 0 .look _ rfl (takenOverLater.fsm, default) takenOverLater (.look _ default)
  obtain ⟨events, procs, steps, ended, trace, own⟩ := first.runAlone (execFresh_exec 50) (i := 0)
    (recoverJobs twoCopies.scheduler (takenOverLater.fsm.getJobsByStatus default .inProgress)) rfl
  refine ⟨events, _, steps, ?_⟩
  have succeeded : ∀ e ∈ events, e.proc = 0 → Answered e.label e.result ∧ Unhindered e.label e.result := by
    intro e member _
    rw [(own e member).2.1]
    exact done (e.before, e.label) (trace ▸ List.mem_map_of_mem member)
  have others : ∀ e ∈ events, e.proc ≠ 0 → Settled twoCopies.scheduler e.before.fsm e.after.fsm := by
    intro e member other
    exact absurd (own e member).1 other
  have complete := (recovery_complete_iff reached rfl steps ended succeeded others
    (Placement.leastLoadedStrategy_sound _)).mpr ?_
  · exact (complete _ _ _ repair).1
  · intro id job live found
    cases only id job found.found
    cases repair.locations.symm.trans found.locations
    unfold Recoverable
    decide

end DistributedFs.Scheduler
