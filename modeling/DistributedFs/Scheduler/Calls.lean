import DistributedFs.Concurrency.Judgement
import DistributedFs.Healing.LastCopy

namespace DistributedFs.Scheduler

open Go Fsm MetadataFSM Healing Healing.Prog Reconcile
open Concurrency (Judgement)

variable (parts : Components)

def answerHeartbeat (nodeID : String) : Prog :=
  act (.pendingFor nodeID) fun pjobs => look fun m _ =>
    act (.deliver nodeID (Server.buildRepairInstructions m pjobs)) fun _ => done

/-- `Heartbeat` on the leader. `count` is the number of heartbeats of the node so far. -/
def heartbeat (req : Server.HeartbeatRequest) (count : Nat) : Prog :=
  look fun m _ =>
    match m.getNode req.nodeId with
    | .error _ => done
    | .ok _ =>
      clock fun now => act (.updateLastSeen req.nodeId now) fun _ =>
        if count % 10 = 0 then
          clock fun now => propose (.updateNodeSpace
            ⟨req.nodeId, req.freeSpace.toUInt64, req.chunkCount.toInt64.toUInt64, now⟩) fun _ =>
              answerHeartbeat req.nodeId
        else answerHeartbeat req.nodeId

def reportCorruption (chunkId reporterId : String) : Prog :=
  proposeEvictChunk chunkId reporterId "corruption reported by node" fun
    | some _ => done
    | none => scheduleRepairForChunk parts.scheduler chunkId

def jobCommand : Command → Bool
  | .createRepairJob _ | .updateRepairJob _ => true
  | _ => false

/-- The calls among which the scheduler runs: every call of clients, storage nodes, watcher,
    workers and reconciler, every command that is not about repair jobs, the scheduler's own
    entry points, and a new leader that starts with empty maps and an empty queue. -/
inductive Spawn : System → Prog → System → Prop where
  | component {s later : System} {prog : Prog} (call : Healing.Spawn parts s prog later) :
    Spawn s prog later
  | command (s : System) (cmd : Command) (other : jobCommand cmd = false) :
    Spawn s (propose cmd fun _ => done) s
  | heartbeat (s : System) (req : Server.HeartbeatRequest) (count : Nat) : Spawn s (heartbeat req count) s
  | reportCorruption (s : System) (chunkId reporterId : String) :
    Spawn s (reportCorruption parts chunkId reporterId) s
  | triggerRepair (s : System) (deadNodeID : String) :
    Spawn s (triggerRepair parts.scheduler deadNodeID) s
  | scheduleRepairForChunk (s : System) (chunkID : String) :
    Spawn s (scheduleRepairForChunk parts.scheduler chunkID) s
  | onJobComplete (s : System) (nodeID jobID : String) (success : Bool) :
    Spawn s (onJobComplete parts.scheduler nodeID jobID success) s
  | recoverStuckJobs (s : System) : Spawn s (recoverStuckJobs parts.scheduler) s
  | newLeader (s : System) : Spawn s done { s with pendingJobs := ∅, pendingJobsSet := ∅, jobs := [] }

def Fileless (next : FSM → MapOrder → Prog) : Prop :=
  ∀ m files order, next { m with fileIndex := files } order = next m order

/-- The actions of the calls that need no argument of their own: of those about repair jobs, what records
    an outcome and what looks into the scheduler's maps. The death of a node is proposed by sweeps only. -/
def Plain : Label → Prop
  | .look | .enqueue _ | .send _ | .publish _ | .deliver .. => False
  | .propose (.createRepairJob _) | .propose (.deleteFile _) | .propose (.markNodeDead _) => False
  | .propose (.updateRepairJob req) => req.status.active = false ∧ req.attempts = 0 ∧ req.sourceNode = ""
  | _ => True

def Serving (m : FSM) (chunkID : String) (live : List NodeEntry) : Prop :=
  ∃ all, m.getChunkLocations chunkID = .ok all ∧ ∀ node ∈ live, node ∈ all

structure Chosen (rs : RepairScheduler) (chunkID : String) (live : List NodeEntry) (m : FSM) (node : NodeEntry) :
    Prop where
  served : live.length ≠ 0
  picked : ∃ order size deficit nodes,
    rs.targetStrategy.selectNodes (m.getLiveNodes order) chunkID size deficit live = (nodes, none) ∧ node ∈ nodes

section Traversal

variable {Γ : Type} {J : Judgement Γ Label Label.Result} {sees : Γ → FSM → Prop} {rs : RepairScheduler} {c : Γ}

structure Looks (J : Judgement Γ Label Label.Result) (sees : Γ → FSM → Prop) : Prop where
  look : ∀ {c next}, Fileless next → (∀ d m order, J.later c d → sees d m → J.holds d (next m order)) →
    J.holds c (look next)

theorem Looks.scheduleRepairJobs (looks : Looks J sees) (sequences : J.Sequences) {chunkID : String}
    {live : List NodeEntry} {deficit : Int}
    (copies : ∀ {d e m node}, J.later c d → sees d m → Chosen rs chunkID live m node → J.later d e →
      J.holds e (scheduleCopy chunkID (rs.sourceStrategy.selectPrimary live).nodeID node.nodeID))
    (removals : deficit ≤ 0 → ∀ d source, J.later c d → J.holds d (createJob chunkID source "" true)) :
    J.holds c (scheduleRepairJobs rs chunkID live deficit) := by
  unfold Scheduler.scheduleRepairJobs
  refine Judgement.ite (fun missing => ?_) (fun enough => ?_)
  · refine Judgement.ite (fun _ => J.done c) (fun served => ?_)
    refine looks.look (fun _ _ _ => rfl) fun d m order first here => ?_
    refine looks.look (fun _ _ _ => rfl) fun e later _ second _ => ?_
    cases later.getChunk chunkID with
    | error err => exact J.done e
    | ok chunk =>
      dsimp only
      split
      · exact J.done e
      · rename_i nodes picked
        refine sequences.forEach nodes fun node member u third => ?_
        exact copies first here ⟨served, order, chunk.size, deficit, nodes, picked, member⟩ (J.trans second third)
  · split
    · exact J.done c
    · exact sequences.forEach _ fun node _ d onwards => removals (by omega) d node.nodeID onwards

section Workers

variable (looks : Looks J sees) (clock : ∀ d, J.Takes d .clock)
include looks clock

theorem Looks.executeJob {jobID : String}
    (publishes : ∀ d m job, J.later c d → sees d m → m.getRepairJob jobID = .ok job →
      J.Takes d (.publish { job with jobID := jobID }))
    (marks : ∀ d req, J.later c d → req.jobID = jobID → req.status.active = true → req.attempts = 0 →
      req.sourceNode = "" → J.Takes d (.propose (.updateRepairJob req))) : J.holds c (executeJob jobID) := by
  refine looks.look (fun _ _ _ => rfl) fun d m _ first here => ?_
  cases found : m.getRepairJob jobID with
  | error err => exact J.done d
  | ok job =>
    refine publishes d m job first here found _ fun e _ second => clock e _ fun u updatedAt third => ?_
    exact (marks u _ (J.trans first (J.trans second third)) rfl rfl rfl rfl).last

theorem Looks.recoverJobs (cancelled : ∀ d, J.Takes d .cancelled) (jobs : List RepairJob)
    (sends : ∀ job ∈ jobs, ∀ d, J.later c d → J.Takes d (.send job.jobID))
    (resets : ∀ job ∈ jobs, ∀ d e m live req, J.later c d → sees d m →
      m.getChunkLocations job.chunkID = .ok live → live.length ≠ 0 → J.later d e → req.jobID = job.jobID →
      req.status.active = true → req.attempts = 0 → req.sourceNode = (rs.sourceStrategy.selectPrimary live).nodeID →
      J.Takes e (.propose (.updateRepairJob req))) : J.holds c (recoverJobs rs jobs) := by
  induction jobs generalizing c with
  | nil => exact J.done c
  | cons val rest ih =>
    have others (d : Γ) (onwards : J.later c d) : J.holds d (Scheduler.recoverJobs rs rest) :=
      ih (fun job member e more => sends job (List.mem_cons_of_mem val member) e (J.trans onwards more))
        fun job member e u m live req more =>
          resets job (List.mem_cons_of_mem val member) e u m live req (J.trans onwards more)
    have queued (d : Γ) (onwards : J.later c d) :
        J.holds d (enqueueJob val.jobID (Scheduler.recoverJobs rs rest)) := by
      refine sends val List.mem_cons_self d onwards _ fun e sent more => ?_
      cases sent with
      | true => exact others e (J.trans onwards more)
      | false => exact J.done e
    refine cancelled c _ fun d ended first => ?_
    cases ended with
    | true => exact J.done d
    | false =>
      refine looks.look (fun _ _ _ => rfl) fun e m _ second here => ?_
      have since := J.trans first second
      cases found : m.getChunkLocations val.chunkID with
      | error err => exact others e since
      | ok live =>
        refine Judgement.ite (fun _ => others e since) fun served => ?_
        refine Judgement.ite (fun _ => others e since) fun _ => ?_
        refine Judgement.ite (fun _ => queued e since) fun _ => ?_
        refine clock e _ fun u updatedAt third => ?_
        refine resets val List.mem_cons_self e u m live _ since here found served third rfl rfl rfl rfl _ ?_
        intro v answer fourth
        have reached := J.trans since (J.trans third fourth)
        cases answer with
        | some err => exact others v reached
        | none => exact queued v reached

end Workers

/-- What a property of programs needs for the calls of the cluster to have it. Repairs are only
    scheduled where replicas are missing, so that no rule speaks of jobs that remove one. -/
structure Rules (J : Judgement Γ Label Label.Result) (sees : Γ → FSM → Prop) (rs : RepairScheduler) : Prop
    extends J.Sequences, Looks J sees where
  plain : ∀ c label, Plain label → J.Takes c label
  copies : ∀ {c d e m now chunkID live node}, sees c m → Serving m chunkID live → J.later c d → sees d now →
    Chosen rs chunkID live now node → J.later d e →
    J.holds e (scheduleCopy chunkID (rs.sourceStrategy.selectPrimary live).nodeID node.nodeID)
  answers : ∀ c nodeID, J.holds c (answerHeartbeat nodeID)

namespace Rules

variable (rules : Rules J sees rs)
include rules

theorem clock {next : Time → Prog} (rest : ∀ d now, J.later c d → J.holds d (next now)) :
    J.holds c (Prog.clock next) := rules.plain c .clock trivial next rest

theorem propose {cmd : Command} {next : Option GoError → Prog} (plain : Plain (.propose cmd))
    (rest : ∀ d answer, J.later c d → J.holds d (next answer)) : J.holds c (Prog.propose cmd next) :=
  rules.plain c (.propose cmd) plain next rest

theorem evict (chunkID nodeID reason : String) {next : Option GoError → Prog}
    (rest : ∀ d answer, J.later c d → J.holds d (next answer)) :
    J.holds c (proposeEvictChunk chunkID nodeID reason next) := by
  refine rules.clock fun d evictedAt first => rules.propose trivial fun e answer second => ?_
  exact rest e answer (J.trans first second)

theorem schedule {m : FSM} {chunkID : String} {live : List NodeEntry} {deficit : Int} (here : sees c m)
    (serving : Serving m chunkID live) (missing : 0 < deficit) :
    J.holds c (scheduleRepairJobs rs chunkID live deficit) :=
  rules.toLooks.scheduleRepairJobs rules.toSequences (rules.copies here serving) fun enough => by omega

theorem scheduleRepairForChunk (chunkID : String) : J.holds c (scheduleRepairForChunk rs chunkID) := by
  refine rules.look (fun _ _ _ => rfl) fun d m _ _ here => ?_
  cases found : m.getChunkLocations chunkID with
  | error err => exact J.done d
  | ok live =>
    refine Judgement.ite (fun _ => J.done d) fun missing => ?_
    exact rules.schedule here ⟨live, found, fun _ member => member⟩ (by omega)

theorem triggerRepair (deadNodeID : String) : J.holds c (triggerRepair rs deadNodeID) := by
  refine rules.look (fun _ _ _ => rfl) fun d m order _ _ => rules.forEach _ fun chkId _ e _ => ?_
  refine rules.evict chkId deadNodeID _ fun u _ _ => rules.look (fun _ _ _ => rfl) fun v m _ _ here => ?_
  cases found : m.getChunkLocations chkId with
  | error err => exact J.done v
  | ok live =>
    refine Judgement.ite (fun _ => J.done v) fun missing => ?_
    exact rules.schedule here ⟨live, found, fun _ member => List.mem_of_mem_filter member⟩ (by omega)

theorem onJobComplete (nodeID jobID : String) (success : Bool) :
    J.holds c (onJobComplete rs nodeID jobID success) := by
  refine rules.plain c _ (by trivial) _ fun d _ _ => rules.look (fun _ _ _ => rfl) fun e m _ _ _ => ?_
  cases m.getRepairJob jobID with
  | error err => exact J.done e
  | ok job =>
    refine Judgement.ite (fun _ => Judgement.ite (fun _ => ?_) fun _ => ?_) fun _ => ?_
    · exact rules.evict _ _ _ fun u _ _ => J.done u
    · exact (rules.plain e _ (by trivial)).last
    · refine rules.look (fun _ _ _ => rfl) fun u m _ _ _ => ?_
      cases retryAfter rs job m with
      | none => exact J.done u
      | some delay => exact rules.scheduleRepairForChunk job.chunkID

theorem evictStaleReplica (nodeID nodeAddr chunkID : String) :
    J.holds c (evictStaleReplica nodeID nodeAddr chunkID) :=
  rules.evict _ _ _ fun d _ _ => (rules.plain d _ (by trivial)).last

theorem handleMissingReplica (replicationFactor : Int) (nodeID chunkID : String) :
    J.holds c (handleMissingReplica rs replicationFactor nodeID chunkID) := by
  refine rules.evict _ _ _ fun d answer _ => ?_
  cases answer with
  | some err => exact J.done d
  | none =>
    refine rules.look (fun _ _ _ => rfl) fun e m _ _ _ => ?_
    cases m.getChunkLocations chunkID with
    | error err => exact J.done e
    | ok live => exact Judgement.ite (fun _ => rules.scheduleRepairForChunk chunkID) fun _ => J.done e

theorem reconcileNode (replicationFactor : Int) (nodeID : String) (reported : List String) :
    J.holds c (reconcileNode rs replicationFactor nodeID reported) := by
  refine rules.look (fun _ _ _ => rfl) fun d m _ _ _ => ?_
  cases m.getNode nodeID with
  | error err => exact J.done d
  | ok node =>
    refine rules.look (fun _ _ _ => rfl) fun e m order _ _ => rules.andThen ?_ fun u _ => ?_
    · refine rules.forEach _ fun cid _ u _ => Judgement.ite (fun _ => J.done u) fun _ => ?_
      exact rules.look (fun _ _ _ => rfl) fun v m _ _ _ => rules.evictStaleReplica _ _ _
    · refine rules.forEach _ fun cid _ v _ => Judgement.ite (fun _ => J.done v) fun _ => ?_
      exact rules.handleMissingReplica replicationFactor nodeID cid

theorem registerNode (req : Server.RegisterNodeRequest) : J.holds c (registerNode req) := by
  refine rules.clock fun d _ _ => rules.propose trivial fun e answer _ => ?_
  cases answer with
  | some err => exact J.done e
  | none => exact (rules.plain e _ (by trivial)).last

theorem heartbeat (req : Server.HeartbeatRequest) (count : Nat) : J.holds c (heartbeat req count) := by
  refine rules.look (fun _ _ _ => rfl) fun d m _ _ _ => ?_
  cases m.getNode req.nodeId with
  | error err => exact J.done d
  | ok node =>
    refine rules.clock fun e _ _ => rules.plain e _ (by trivial) _ fun u _ _ => ?_
    refine Judgement.ite (fun _ => ?_) fun _ => rules.answers u req.nodeId
    refine rules.clock fun v _ _ => rules.propose trivial fun w _ _ => ?_
    exact rules.answers w req.nodeId

theorem nodeLoss (nodeID : String) {cmd : Command} (takes : J.Takes c (.propose cmd))
    {next : Option GoError → Prog} (refused : ∀ err, next (some err) = done)
    (accepted : next none = Scheduler.triggerRepair rs nodeID) : J.holds c (Prog.propose cmd next) := by
  refine takes next fun d answer _ => ?_
  cases answer with
  | some err =>
    rw [refused]
    exact J.done d
  | none =>
    rw [accepted]
    exact rules.triggerRepair nodeID

end Rules

end Traversal

section Calls

variable {parts} {Γ : Type} {J : Judgement Γ Label Label.Result} {sees : Γ → FSM → Prop} {c : Γ}
  (rules : Rules J sees parts.scheduler)
include rules

namespace Rules

theorem commitChunk (req : CommandCommitChunk) : J.holds c (commitChunk parts req) := by
  refine rules.propose trivial fun d answer _ => ?_
  cases answer with
  | some err => exact J.done d
  | none =>
    refine rules.look (fun _ _ _ => rfl) fun e m _ _ _ => ?_
    cases m.getChunkLocations req.chunkID with
    | error err => exact J.done e
    | ok live => exact Judgement.ite (fun _ => rules.scheduleRepairForChunk req.chunkID) fun _ => J.done e

theorem deregisterNode (nodeID : String) : J.holds c (deregisterNode parts nodeID) := by
  refine rules.look (fun _ _ _ => rfl) fun d m _ _ _ => ?_
  cases m.getNode nodeID with
  | error err => exact J.done d
  | ok node =>
    refine rules.clock fun e _ _ => ?_
    exact rules.nodeLoss nodeID (rules.plain e _ (by trivial)) (fun _ => rfl) rfl

theorem sweep (deaths : ∀ d req, J.Takes d (.propose (.markNodeDead req))) : J.holds c (sweep parts) := by
  refine rules.clock fun d now _ => rules.look (fun _ _ _ => rfl) fun e m order _ _ => ?_
  exact rules.forEach _ fun nodeID _ u _ => rules.nodeLoss nodeID (deaths u _) (fun _ => rfl) rfl

theorem reportRepairResult (nodeID jobID : String) (success : Bool) :
    J.holds c (reportRepairResult parts nodeID jobID success) := by
  refine rules.clock fun d _ _ => ?_
  refine rules.propose (by cases success <;> exact ⟨rfl, rfl, rfl⟩) fun e answer _ => ?_
  cases answer with
  | some err => exact J.done e
  | none => exact rules.onJobComplete nodeID jobID success

theorem reportCorruption (chunkId reporterId : String) :
    J.holds c (reportCorruption parts chunkId reporterId) := by
  refine rules.evict _ _ _ fun d answer _ => ?_
  cases answer with
  | some err => exact J.done d
  | none => exact rules.scheduleRepairForChunk chunkId

/-- Every call has the property if workers and the recovery of stuck jobs have it and deaths may be proposed,
    but for a lone command, which may be the deletion of a file. -/
theorem spawned {s later : System} {prog : Prog} (spawned : Spawn parts s prog later)
    (deaths : ∀ d req, J.Takes d (.propose (.markNodeDead req)))
    (executed : ∀ jobID rest, s.jobs = jobID :: rest → J.holds c (executeJob jobID))
    (recovered : J.holds c (recoverStuckJobs parts.scheduler)) :
    J.holds c prog ∨ ∃ cmd, jobCommand cmd = false ∧ later = s ∧ prog = Prog.propose cmd fun _ => done := by
  cases spawned with
  | component call =>
    cases call with
    | client cmd onFiles =>
      refine .inr ⟨cmd, ?_, rfl, rfl⟩
      cases cmd with
      | createRepairJob | updateRepairJob => cases onFiles
      | _ => rfl
    | store nodeID chunkID => exact .inl (rules.plain c _ (by trivial)).last
    | commitChunk req => exact .inl (rules.commitChunk req)
    | registerNode req => exact .inl (rules.registerNode req)
    | deregisterNode nodeID => exact .inl (rules.deregisterNode nodeID)
    | sweep => exact .inl (rules.sweep deaths)
    | executeJob jobID rest next => exact .inl (executed jobID rest next)
    | reportRepairResult nodeID jobID success => exact .inl (rules.reportRepairResult nodeID jobID success)
    | reconcile nodeID reported => exact .inl (rules.reconcileNode _ nodeID reported)
    | stopTimer | listen => exact .inl (J.done c)
  | command cmd other => exact .inr ⟨cmd, other, rfl, rfl⟩
  | heartbeat req count => exact .inl (rules.heartbeat req count)
  | reportCorruption chunkId reporterId => exact .inl (rules.reportCorruption chunkId reporterId)
  | triggerRepair deadNodeID => exact .inl (rules.triggerRepair deadNodeID)
  | scheduleRepairForChunk chunkID => exact .inl (rules.scheduleRepairForChunk chunkID)
  | onJobComplete nodeID jobID success => exact .inl (rules.onJobComplete nodeID jobID success)
  | recoverStuckJobs => exact .inl recovered
  | newLeader => exact .inl (J.done c)

end Rules

end Calls

end DistributedFs.Scheduler
