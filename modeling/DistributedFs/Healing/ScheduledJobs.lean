import DistributedFs.Healing.Shutdown
import DistributedFs.Placement.SliceStrategy

namespace DistributedFs.Healing

open Go Fsm MetadataFSM Scheduler Reconcile Placement
open Concurrency hiding Config Prog World Run

structure Issued (m : FSM) (jobs : List RepairJob) (after : FSM) : Prop where
  frame : { after with repairJobRegistry := m.repairJobRegistry } = m
  registry : ∀ id job, after.repairJobRegistry.lookup id = some job ↔
    m.repairJobRegistry.lookup id = some job ∨ job ∈ jobs ∧ job.jobID = id
  unused : ∀ job ∈ jobs, job.jobID ∉ m.repairJobRegistry
  distinct : (jobs.map RepairJob.jobID).Nodup

namespace Issued

variable {m after : FSM} {jobs : List RepairJob}

theorem nothing (m : FSM) : Issued m [] m where
  frame := rfl
  registry id job := by simp
  unused job member := (List.not_mem_nil member).elim
  distinct := List.nodup_nil

theorem nodes (issued : Issued m jobs after) : after.nodeRegistry = m.nodeRegistry := by
  have same := congrArg MetadataFSM.nodeRegistry issued.frame
  exact same

theorem chunks (issued : Issued m jobs after) : after.chunkRegistry = m.chunkRegistry := by
  have same := congrArg MetadataFSM.chunkRegistry issued.frame
  exact same

theorem found (issued : Issued m jobs after) {job : RepairJob} (member : job ∈ jobs) :
    after.repairJobRegistry.lookup job.jobID = some job :=
  (issued.registry job.jobID job).mpr (.inr ⟨member, rfl⟩)

theorem eq_nil (issued : Issued m jobs m) : jobs = [] := by
  apply List.eq_nil_iff_forall_not_mem.mpr
  intro job member
  exact issued.unused job member (Finmap.mem_of_lookup_eq_some (issued.found member))

theorem older (issued : Issued m jobs after) {id : String} (used : id ∈ m.repairJobRegistry) :
    id ∈ after.repairJobRegistry := by
  obtain ⟨job, found⟩ := Option.isSome_iff_exists.mp (Finmap.lookup_isSome.mpr used)
  exact Finmap.mem_of_lookup_eq_some ((issued.registry id job).mpr (.inl found))

theorem newer (issued : Issued m jobs after) {job : RepairJob} (member : job ∈ jobs) :
    job.jobID ∈ after.repairJobRegistry :=
  Finmap.mem_of_lookup_eq_some (issued.found member)

theorem add (issued : Issued m jobs after) {job : RepairJob} (unused : job.jobID ∉ after.repairJobRegistry) :
    Issued m (jobs ++ [job]) (after.setJob job.jobID job) where
  frame := issued.frame
  registry id other := by
    simp only [List.mem_append, List.mem_singleton]
    constructor
    · intro found
      rcases lookup_setJob found with ⟨here, same⟩ | ⟨_, before⟩
      · subst same
        exact .inr ⟨.inr rfl, here.symm⟩
      · rcases (issued.registry id other).mp before with old | ⟨member, named⟩
        · exact .inl old
        · exact .inr ⟨.inl member, named⟩
    · intro known
      have before (found : after.repairJobRegistry.lookup id = some other) :
          (after.setJob job.jobID job).repairJobRegistry.lookup id = some other := by
        have elsewhere : id ≠ job.jobID := by
          intro here
          exact unused (here ▸ Finmap.mem_of_lookup_eq_some found)
        rw [setJob, GoMap.lookup_insert, if_neg elsewhere]
        exact found
      rcases known with old | ⟨member | same, named⟩
      · exact before ((issued.registry id other).mpr (.inl old))
      · exact before ((issued.registry id other).mpr (.inr ⟨member, named⟩))
      · subst same named
        exact Finmap.lookup_insert _
  unused other member := by
    rcases List.mem_append.mp member with member | member
    · exact issued.unused other member
    · cases List.mem_singleton.mp member
      exact fun used => unused (issued.older used)
  distinct := by
    rw [List.map_append, List.map_singleton]
    apply nodup_append_singleton issued.distinct
    intro taken
    obtain ⟨old, member, named⟩ := List.mem_map.mp taken
    exact unused (named ▸ issued.newer member)

end Issued

def Ordered (m : FSM) (chunkID source : String) (targets : List String) (after : FSM) : Prop :=
  ∃ jobs, Issued m jobs after ∧ jobs.map RepairJob.targetNodeID = targets ∧
    ∀ job ∈ jobs, job.chunkID = chunkID ∧ job.sourceNodeID = source ∧ job.deleteSource = false

def unpended (s : System) (chunkID : String) (nodes : List NodeEntry) : List String :=
  (nodes.map NodeEntry.nodeID).filter fun id => chunkID ++ ":" ++ id ∉ s.pendingJobsSet

theorem unpended_all {s : System} {chunkID : String}
    (idle : ∀ id : String, chunkID ++ ":" ++ id ∉ s.pendingJobsSet) (nodes : List NodeEntry) :
    unpended s chunkID nodes = nodes.map NodeEntry.nodeID := by
  apply List.filter_eq_self.mpr
  intro id _
  exact decide_eq_true (idle id)

/-- What a pass of the scheduler over one chunk leaves: nothing new if too few targets are
    found, and else a copy to each chosen node that has none pending. -/
inductive Scheduled (rs : RepairScheduler) (chunkID : String) (size : Int) (live : List NodeEntry)
    (deficit : Int) (s after : System) : Prop where
  | short (order : MapOrder) (found : List NodeEntry) (err : GoError)
    (selected : rs.targetStrategy.selectNodes (s.fsm.getLiveNodes order) chunkID size deficit live =
      (found, some err))
    (same : after.fsm = s.fsm)
  | ordered (order : MapOrder) (chosen : List NodeEntry)
    (selected : rs.targetStrategy.selectNodes (s.fsm.getLiveNodes order) chunkID size deficit live =
      (chosen, none))
    (copies : Ordered s.fsm chunkID (rs.sourceStrategy.selectPrimary live).nodeID
      (unpended s chunkID chosen) after.fsm)

structure Settled (exec : (label : Label) → System → label.Result → System → Prop) : Prop where
  synchronous : ∀ label s result later, exec label s result later → Synchronous label s result later
  accepted : (∀ s jid later, exec .uuid s jid later → jid ∉ s.fsm.repairJobRegistry) ∨
    ∀ cmd s answer later, exec (.propose cmd) s answer later → answer = none

structure Ordering (start : System) (chunkID source : String) (targets : List String) (did : Did)
    (s : System) : Prop where
  copies : Ordered start.fsm chunkID source targets s.fsm
  pending : s.pendingJobsSet = start.pendingJobsSet
  succeeded : Succeeded did

section Pass

variable {exec : (label : Label) → System → label.Result → System → Prop} (settled : Settled exec)
  {s start later : System} {did : Did} {chunkID source : String} {targets : List String}

include settled

theorem Settled.uuid {jid : String} (ran : exec .uuid s jid later) : later = s := by
  cases settled.synchronous _ _ _ _ ran with
  | other _ ran =>
    cases ran
    rfl

theorem Settled.pendingKey {key : String} {known : Bool} (ran : exec (.pendingKey key) s known later) :
    known = decide (key ∈ s.pendingJobsSet) ∧ later = s := by
  cases settled.synchronous _ _ _ _ ran with
  | other _ ran =>
    cases ran
    exact ⟨rfl, rfl⟩

theorem Settled.enqueue {jobID : String} {result : Unit} (ran : exec (.enqueue jobID) s result later) :
    later.fsm = s.fsm ∧ later.pendingJobsSet = s.pendingJobsSet := by
  cases settled.synchronous _ _ _ _ ran with
  | other _ ran =>
    cases ran
    unfold System.enqueue
    split
    · exact ⟨rfl, rfl⟩
    · exact ⟨rfl, rfl⟩

theorem Settled.createRepairJob {req : CommandCreateRepairJob} {answer : Option GoError}
    (drawn : exec .uuid s req.jobID s) (ran : exec (.propose (.createRepairJob req)) s answer later) :
    req.jobID ∉ s.fsm.repairJobRegistry ∧ answer = none ∧
      later = { s with fsm := s.fsm.setJob req.jobID (newJob req) } := by
  obtain ⟨orders, result, stored⟩ := propose_result (settled.synchronous _ _ _ _ ran)
  have unused : req.jobID ∉ s.fsm.repairJobRegistry := by
    rcases settled.accepted with fresh | accepts
    · exact fresh s req.jobID s drawn
    · intro taken
      rw [accepts _ _ _ _ ran] at result
      simp [handle, handleCmdCreateRepairJob, taken] at result
  have applied : s.fsm.handle orders (.createRepairJob req) =
      (s.fsm.setJob req.jobID (newJob req), none) := by
    simp [handle, handleCmdCreateRepairJob, unused, upsert, setJob, newJob]
  rw [applied] at result stored
  exact ⟨unused, result, stored⟩

theorem Ordering.createJob (ordering : Ordering start chunkID source targets did s) (target : String) :
    (Setting.alone exec).Ensures (Ordering start chunkID source (targets ++ [target])) did
      (createJob chunkID source target false) s := by
  apply Setting.Ensures.of_act
  intro jid after drawn
  cases settled.uuid drawn
  apply Setting.Ensures.of_act
  intro createdAt after ran
  cases clock_result (settled.synchronous _ _ _ _ ran)
  apply Setting.Ensures.of_act
  intro answer after ran
  obtain ⟨unused, accepted, stored⟩ := settled.createRepairJob drawn ran
  subst accepted stored
  have copies : Ordered start.fsm chunkID source (targets ++ [target])
      (s.fsm.setJob jid (newJob ⟨jid, createdAt, chunkID, false, source, target⟩)) := by
    obtain ⟨jobs, issued, aimed, each⟩ := ordering.copies
    let job := newJob ⟨jid, createdAt, chunkID, false, source, target⟩
    have added : Issued start.fsm (jobs ++ [job]) (s.fsm.setJob jid job) := issued.add unused
    refine ⟨_, added, ?_, ?_⟩
    · rw [List.map_append, aimed]
      rfl
    · intro job member
      rcases List.mem_append.mp member with member | member
      · exact each job member
      · cases List.mem_singleton.mp member
        exact ⟨rfl, rfl, rfl⟩
  apply Setting.Ensures.of_act
  intro _ after ran
  obtain ⟨same, pending⟩ := settled.enqueue ran
  apply Setting.Ensures.of_done
  refine ⟨same ▸ copies, pending.trans ordering.pending, ?_⟩
  apply Succeeded.append
  · apply Succeeded.append
    · apply Succeeded.append
      · apply Succeeded.append ordering.succeeded
        trivial
      · trivial
    · rfl
  · trivial

theorem alone_orders (succeeded : Succeeded did) (chosen : List NodeEntry) :
    (Setting.alone exec).Ensures (Ordering s chunkID source (unpended s chunkID chosen)) did
      (.forEach (fun node : NodeEntry => scheduleCopy chunkID source node.nodeID) chosen) s := by
  let inv (handled : List NodeEntry) : Did → System → Prop :=
    Ordering s chunkID source (unpended s chunkID handled)
  have start : inv [] did s :=
    ⟨⟨[], .nothing s.fsm, rfl, fun _ member => (List.not_mem_nil member).elim⟩, rfl, succeeded⟩
  refine Setting.Ensures.forEach chosen [] ?_ ?_ start
  · intro handled did mid later same ordering
    cases same
    exact ordering
  · intro handled node rest _ did mid ordering
    dsimp only [inv] at ordering ⊢
    apply Setting.Ensures.of_act
    intro known after ran
    obtain ⟨answer, same⟩ := settled.pendingKey ran
    subst answer same
    have passed : Ordering s chunkID source (unpended s chunkID handled)
        (did ++ [⟨.pendingKey (chunkID ++ ":" ++ node.nodeID),
          decide (chunkID ++ ":" ++ node.nodeID ∈ after.pendingJobsSet)⟩]) after :=
      ⟨ordering.copies, ordering.pending, ordering.succeeded.append trivial⟩
    by_cases pending : chunkID ++ ":" ++ node.nodeID ∈ after.pendingJobsSet
    · have same : unpended s chunkID (handled ++ [node]) = unpended s chunkID handled := by
        rw [ordering.pending] at pending
        simp [unpended, pending]
      rw [same]
      simp only [pending, decide_true] at passed ⊢
      exact Setting.Ensures.of_done passed
    · have longer : unpended s chunkID (handled ++ [node]) = unpended s chunkID handled ++ [node.nodeID] := by
        rw [ordering.pending] at pending
        simp [unpended, pending]
      rw [longer]
      simp only [pending, decide_false] at passed ⊢
      exact passed.createJob settled node.nodeID

theorem alone_scheduleRepairJobs (rs : RepairScheduler) (succeeded : Succeeded did) {live : List NodeEntry}
    (located : live ≠ []) {deficit : Int} (missing : 0 < deficit) {chunk : ChunkRecord (List String)}
    (found : s.fsm.chunkRegistry.lookup chunkID = some chunk) :
    (Setting.alone exec).Ensures
      (fun did after => Scheduled rs chunkID chunk.size live deficit s after ∧ Succeeded did) did
      (scheduleRepairJobs rs chunkID live deficit) s := by
  have read := (getChunk_ok s.fsm).mpr found
  rw [scheduleRepairJobs, if_pos missing, if_neg (by simpa using located)]
  apply alone_look settled.synchronous
  intro order
  apply alone_look settled.synchronous
  intro order'
  simp only [read]
  have looked : Succeeded (did ++ [⟨.look, (s.fsm, order)⟩] ++ [⟨.look, (s.fsm, order')⟩]) := by
    apply Succeeded.append
    · exact succeeded.append trivial
    · trivial
  split
  · rename_i selected
    apply Setting.Ensures.of_done
    exact ⟨.short order _ _ selected rfl, looked⟩
  · rename_i chosen selected
    apply (alone_orders settled looked chosen).mono
    intro did after ordering
    exact ⟨.ordered order chosen selected ordering.copies, ordering.succeeded⟩

theorem alone_scheduleRepairForChunk (rs : RepairScheduler) {live : List NodeEntry}
    (located : s.fsm.getChunkLocations chunkID = .ok live) (served : live ≠ [])
    (missing : 0 < rs.replicationFactor - live.length) {chunk : ChunkRecord (List String)}
    (found : s.fsm.chunkRegistry.lookup chunkID = some chunk) :
    (Setting.alone exec).Ensures
      (fun did after => Scheduled rs chunkID chunk.size live (rs.replicationFactor - live.length) s after ∧
        Succeeded did) [] (scheduleRepairForChunk rs chunkID) s := by
  apply alone_look settled.synchronous
  intro order
  simp only [located]
  rw [if_neg (by omega)]
  have looked : Succeeded ([] ++ [⟨.look, (s.fsm, order)⟩]) := by
    apply Succeeded.append
    · exact fun entry member => (List.not_mem_nil member).elim
    · trivial
  exact alone_scheduleRepairJobs settled rs looked served missing found

end Pass

theorem undisturbed_run {post : System → Prop} {prog : Prog} {s : System}
    (ensures : ∀ exec, Settled exec →
      (Setting.alone exec).Ensures (fun did after => post after ∧ Succeeded did) [] prog s) :
    (∃ did after, Alone Synchronous prog s did after ∧ Succeeded did) ∧
      ∀ did after, Alone Synchronous prog s did after → Succeeded did → post after := by
  constructor
  · have settled : Settled Renewing := ⟨Renewing.synchronous, .inl fun _ _ _ ran => ran.unused⟩
    obtain ⟨did, after, ran⟩ := Alone.exists_run renewing_total prog s
    obtain ⟨_, succeeded⟩ := (ensures Renewing settled).run ran
    exact ⟨did, after, ran.mono Renewing.synchronous, succeeded⟩
  · intro did after ran succeeded
    have settled : Settled fun label s result later =>
        Synchronous label s result later ∧ Answered label result :=
      ⟨fun _ _ _ _ ran => ran.1, .inr fun _ _ _ _ ran => ran.2⟩
    exact ((ensures _ settled).run (ran.such succeeded)).1

section Targets

variable {m : FSM} (keys : ∀ id node, m.nodeRegistry.lookup id = some node → node.nodeID = id)
  (chunkID : String)

def fittingNodes (m : FSM) (chunkID : String) (size : Int) : List NodeEntry :=
  (spareNodes m chunkID).filter fun node => size ≤ node.freeSpace.toNat

include keys

theorem liveNodes_perm (order order' : MapOrder) : (m.getLiveNodes order).Perm (m.getLiveNodes order') := by
  apply (List.perm_ext_iff_of_nodup (liveNodes_nodup keys order).of_map (liveNodes_nodup keys order').of_map).mpr
  intro node
  simp only [getLiveNodes, List.mem_map, List.mem_filter, Prod.exists, GoMap.mem_range]

theorem mem_liveIDs_of_alive {order : MapOrder} {node : NodeEntry} (alive : node ∈ m.getLiveNodes order) :
    node.nodeID ∈ liveIDs m chunkID ↔ node.nodeID ∈ (replicasOf m chunkID).getD [] := by
  have status := (mem_liveNodes keys order _).mp (List.mem_map_of_mem alive)
  rw [liveIDs_eq keys, List.mem_filter, status]
  simp

variable {chunkID} in
theorem eligible_perm_fitting (order : MapOrder) {live : List NodeEntry}
    (located : live.map NodeEntry.nodeID = liveIDs m chunkID) (size : Int) :
    (eligible (m.getLiveNodes order) live size).Perm (fittingNodes m chunkID size) := by
  have same : fittingNodes m chunkID size = eligible (m.getLiveNodes default) live size := by
    unfold fittingNodes spareNodes eligible
    rw [List.filter_filter]
    apply List.filter_congr
    intro node alive
    have listed := mem_liveIDs_of_alive keys chunkID alive
    rw [← located] at listed
    have room : size ≤ node.freeSpace.toNat ↔ (0 < size → size ≤ node.freeSpace.toNat) := by omega
    simp only [Eligible, listed, ← room, Bool.and_eq_decide, decide_eq_decide, decide_eq_true_eq]
    exact and_comm
  rw [same]
  exact (liveNodes_perm keys order default).filter _

variable {chunkID} in
theorem targets_selection (sorter : Sorter NodeEntry) (order : MapOrder) (live : List NodeEntry)
    (size : Int) {deficit : Int} (missing : 0 < deficit) {picked : List NodeEntry} {err : Option GoError}
    (selected : (mostFreeSpaceStrategy sorter).selectNodes (m.getLiveNodes order) chunkID size deficit live =
      (picked, err)) :
    Selection MoreFree (m.getLiveNodes order) live size deficit picked err := by
  have selection := selectSorted_selection sorter sortByMostFreeSpace_order sortByMostFreeSpace_iff
    (liveNodes_nodup keys order) size (by omega : 0 ≤ deficit) live
  have same : selectSorted sorter sortByMostFreeSpace (m.getLiveNodes order) size deficit live =
    (picked, err) := selected
  rw [same] at selection
  exact selection

end Targets

/-- As many copies of the chunk were ordered as there are replicas missing, or as there are alive
    nodes that do not hold it, and each of them to another such node. -/
def RepairsAllItCan (replicationFactor : Int) (m : FSM) (chunkID : String) (after : FSM) : Prop :=
  ∃ jobs, Issued m jobs after ∧ (∀ job ∈ jobs, job.chunkID = chunkID ∧ job.deleteSource = false) ∧
    (jobs.length : Int) = min (replicationFactor - (liveIDs m chunkID).length) (spareNodes m chunkID).length ∧
    (jobs.map RepairJob.targetNodeID).Nodup ∧
    ∀ job ∈ jobs, job.targetNodeID ∈ (spareNodes m chunkID).map NodeEntry.nodeID

theorem liveIDs_located {m : FSM} {chunkID : String} {chunk : ChunkRecord (List String)}
    (found : m.chunkRegistry.lookup chunkID = some chunk) :
    ∃ live, m.getChunkLocations chunkID = .ok live ∧ live.map NodeEntry.nodeID = liveIDs m chunkID := by
  have read := (getChunk_ok m).mpr found
  have locations : m.getChunkLocations chunkID = .ok (liveEntries m.nodeRegistry chunk.replicas) := by
    simp only [getChunkLocations, read]
  refine ⟨_, locations, ?_⟩
  simp only [liveIDs, locations]

theorem scheduling_runs (rs : RepairScheduler) {s : System} {chunkID : String}
    {chunk : ChunkRecord (List String)} (found : s.fsm.chunkRegistry.lookup chunkID = some chunk)
    (served : liveIDs s.fsm chunkID ≠ [])
    (missing : 0 < rs.replicationFactor - (liveIDs s.fsm chunkID).length) :
    ∃ live : List NodeEntry, live.map NodeEntry.nodeID = liveIDs s.fsm chunkID ∧ live ≠ [] ∧
      (∃ did after, Alone Synchronous (scheduleRepairForChunk rs chunkID) s did after ∧ Succeeded did) ∧
      ∀ did after, Alone Synchronous (scheduleRepairForChunk rs chunkID) s did after → Succeeded did →
        Scheduled rs chunkID chunk.size live (rs.replicationFactor - (liveIDs s.fsm chunkID).length) s after := by
  obtain ⟨live, locations, located⟩ := liveIDs_located found
  have nonempty : live ≠ [] := by
    intro empty
    rw [← located, empty] at served
    exact served rfl
  have count : (liveIDs s.fsm chunkID).length = live.length := by rw [← located, List.length_map]
  rw [count] at missing ⊢
  exact ⟨live, located, nonempty, undisturbed_run fun exec settled =>
    alone_scheduleRepairForChunk settled rs locations nonempty missing found⟩

section Counts

variable {rs : RepairScheduler} {sorter : Sorter NodeEntry}
  (mostFree : rs.targetStrategy = mostFreeSpaceStrategy sorter) {s after : System}
  (keys : ∀ id node, s.fsm.nodeRegistry.lookup id = some node → node.nodeID = id) {chunkID : String}
  {size deficit : Int} {live : List NodeEntry} (located : live.map NodeEntry.nodeID = liveIDs s.fsm chunkID)
  (missing : 0 < deficit)

include mostFree keys located missing

theorem Scheduled.nothing (scheduled : Scheduled rs chunkID size live deficit s after)
    (few : (fittingNodes s.fsm chunkID size).length < deficit) : after.fsm = s.fsm := by
  cases scheduled with
  | short order found err selected same => exact same
  | ordered order chosen selected copies =>
    rw [mostFree] at selected
    have enough := (targets_selection keys sorter order live size missing selected).succeeds.mp rfl
    rw [(eligible_perm_fitting keys order located size).length_eq] at enough
    omega

theorem Scheduled.targets (scheduled : Scheduled rs chunkID size live deficit s after)
    (idle : ∀ id : String, chunkID ++ ":" ++ id ∉ s.pendingJobsSet)
    (enough : deficit ≤ (fittingNodes s.fsm chunkID size).length) :
    ∃ jobs, Issued s.fsm jobs after.fsm ∧
      (∀ job ∈ jobs, job.chunkID = chunkID ∧
        job.sourceNodeID = (rs.sourceStrategy.selectPrimary live).nodeID ∧ job.deleteSource = false) ∧
      (jobs.length : Int) = deficit ∧ (jobs.map RepairJob.targetNodeID).Nodup ∧
      ∀ job ∈ jobs, job.targetNodeID ∈ (spareNodes s.fsm chunkID).map NodeEntry.nodeID := by
  cases scheduled with
  | short order found err selected same =>
    rw [mostFree] at selected
    have selection := targets_selection keys sorter order live size missing selected
    rw [← (eligible_perm_fitting keys order located size).length_eq] at enough
    cases selection.succeeds.mpr enough
  | ordered order chosen selected copies =>
    rw [mostFree] at selected
    have selection := targets_selection keys sorter order live size missing selected
    obtain ⟨jobs, issued, aimed, each⟩ := copies
    rw [unpended_all idle] at aimed
    refine ⟨jobs, issued, each, ?_, ?_, ?_⟩
    · have count := congrArg List.length aimed
      rw [List.length_map, List.length_map] at count
      rw [count]
      exact selection.exact rfl
    · rw [aimed]
      exact selection.distinct
    · intro job member
      have chosenTarget : job.targetNodeID ∈ chosen.map NodeEntry.nodeID := by
        rw [← aimed]
        exact List.mem_map_of_mem member
      obtain ⟨node, picked, named⟩ := List.mem_map.mp chosenTarget
      obtain ⟨alive, elsewhere, room⟩ := selection.sound node picked
      have fits : node ∈ fittingNodes s.fsm chunkID size := by
        apply (eligible_perm_fitting keys order located size).mem_iff.mp
        exact List.mem_filter.mpr ⟨alive, decide_eq_true ⟨elsewhere, room⟩⟩
      rw [← named]
      exact List.mem_map_of_mem (List.mem_filter.mp fits).1

end Counts

/-- `ScheduleRepairForChunk` orders all the copies that can be made exactly if the alive nodes that
    can hold the chunk are as many as the missing replicas. -/
theorem partial_repair_iff {s : System}
    (keys : ∀ id node, s.fsm.nodeRegistry.lookup id = some node → node.nodeID = id) (rs : RepairScheduler)
    {sorter : Sorter NodeEntry} (mostFree : rs.targetStrategy = mostFreeSpaceStrategy sorter)
    {chunkID : String} {chunk : ChunkRecord (List String)}
    (found : s.fsm.chunkRegistry.lookup chunkID = some chunk) (served : liveIDs s.fsm chunkID ≠ [])
    (missing : 0 < rs.replicationFactor - (liveIDs s.fsm chunkID).length)
    (others : spareNodes s.fsm chunkID ≠ [])
    (idle : ∀ id : String, chunkID ++ ":" ++ id ∉ s.pendingJobsSet) :
    ((∃ did after, Alone Synchronous (scheduleRepairForChunk rs chunkID) s did after ∧ Succeeded did) ∧
      ∀ did after, Alone Synchronous (scheduleRepairForChunk rs chunkID) s did after → Succeeded did →
        RepairsAllItCan rs.replicationFactor s.fsm chunkID after.fsm) ↔
    rs.replicationFactor - (liveIDs s.fsm chunkID).length ≤ (fittingNodes s.fsm chunkID chunk.size).length := by
  obtain ⟨live, located, _, ⟨did, after, ran, succeeded⟩, each⟩ := scheduling_runs rs found served missing
  constructor
  · intro repairs
    by_contra few
    have same := (each did after ran succeeded).nothing mostFree keys located missing (by omega)
    obtain ⟨jobs, issued, _, total, _⟩ := repairs.2 did after ran succeeded
    rw [same] at issued
    rw [issued.eq_nil, List.length_nil] at total
    have some := List.length_pos_iff.mpr others
    omega
  · intro enough
    refine ⟨⟨did, after, ran, succeeded⟩, ?_⟩
    intro did after ran succeeded
    obtain ⟨jobs, issued, copies, total, distinct, aimed⟩ :=
      (each did after ran succeeded).targets mostFree keys located missing idle enough
    have fitting : (fittingNodes s.fsm chunkID chunk.size).length ≤ (spareNodes s.fsm chunkID).length :=
      List.length_filter_le _ _
    refine ⟨jobs, issued, ?_, by omega, distinct, aimed⟩
    intro job member
    obtain ⟨named, _, kept⟩ := copies job member
    exact ⟨named, kept⟩

theorem joinedLate_keys (id : String) (node : NodeEntry)
    (found : joinedLate.fsm.nodeRegistry.lookup id = some node) : node.nodeID = id := by
  obtain ⟨procs, _, sequential⟩ := joinedLate_reachable
  obtain ⟨history, reached⟩ := reached_fsm twoCopies ⟨[], Reached.empty⟩ sequential
  exact (reached_registryKeys reached).nodes id node found

theorem joinedLate_stored : joinedLate.fsm.chunkRegistry.lookup "ck-1" = some stored := by decide +kernel

theorem joinedLate_served : liveIDs joinedLate.fsm "ck-1" = ["n1"] := by decide +kernel

theorem joinedLate_spare : spareNodes joinedLate.fsm "ck-1" =
    [⟨"n2", "10.0.0.2:9000", .alive, 100000, 0, 4, 4, 4⟩] := by decide +kernel

theorem joinedLate_idle (id : String) : "ck-1" ++ ":" ++ id ∉ joinedLate.pendingJobsSet := by
  have none : joinedLate.pendingJobsSet = ∅ := by decide +kernel
  rw [none]
  exact Finmap.notMem_empty

theorem partial_repair_iff_joinedLate : spareNodes joinedLate.fsm "ck-1" ≠ [] ∧
    (∃ did after, Alone Synchronous (scheduleRepairForChunk twoCopies.scheduler "ck-1") joinedLate did after ∧
      Succeeded did) ∧
    ∀ did after, Alone Synchronous (scheduleRepairForChunk twoCopies.scheduler "ck-1") joinedLate did after →
      Succeeded did → RepairsAllItCan 2 joinedLate.fsm "ck-1" after.fsm := by
  have others : spareNodes joinedLate.fsm "ck-1" ≠ [] := by
    rw [joinedLate_spare]
    exact List.cons_ne_nil _ _
  have served : liveIDs joinedLate.fsm "ck-1" ≠ [] := by
    rw [joinedLate_served]
    exact List.cons_ne_nil _ _
  have missing : 0 < twoCopies.scheduler.replicationFactor - (liveIDs joinedLate.fsm "ck-1").length := by
    rw [joinedLate_served]
    decide
  refine ⟨others, (partial_repair_iff joinedLate_keys twoCopies.scheduler rfl joinedLate_stored served missing
    others joinedLate_idle).mpr ?_⟩
  rw [fittingNodes, joinedLate_spare, joinedLate_served]
  decide

/-- With three copies wanted and one other node alive, nothing is ordered at all. -/
theorem partial_repair_dropped : liveIDs joinedLate.fsm "ck-1" = ["n1"] ∧
    (spareNodes joinedLate.fsm "ck-1").map NodeEntry.nodeID = ["n2"] ∧
    joinedLate.fsm.repairJobRegistry = ∅ ∧ joinedLate.pendingJobsSet = ∅ ∧
    ∃ did after, Alone Synchronous (scheduleRepairForChunk (cluster 3).scheduler "ck-1") joinedLate did after ∧
      Succeeded did ∧ after.fsm.repairJobRegistry = ∅ ∧
      ¬RepairsAllItCan 3 joinedLate.fsm "ck-1" after.fsm := by
  have jobs : joinedLate.fsm.repairJobRegistry = ∅ := by decide +kernel
  have served : liveIDs joinedLate.fsm "ck-1" ≠ [] := by
    rw [joinedLate_served]
    exact List.cons_ne_nil _ _
  have missing : 0 < (cluster 3).scheduler.replicationFactor - (liveIDs joinedLate.fsm "ck-1").length := by
    rw [joinedLate_served]
    decide
  obtain ⟨live, located, _, ⟨did, after, ran, succeeded⟩, each⟩ :=
    scheduling_runs (cluster 3).scheduler joinedLate_stored served missing
  have same : after.fsm = joinedLate.fsm := by
    apply (each did after ran succeeded).nothing rfl joinedLate_keys located missing
    rw [joinedLate_served, fittingNodes, joinedLate_spare]
    decide
  refine ⟨joinedLate_served, by rw [joinedLate_spare]; rfl, jobs, by decide +kernel, did, after, ran, succeeded,
    by rw [same, jobs], ?_⟩
  intro repairs
  obtain ⟨ordered, issued, _, total, _⟩ := repairs
  rw [same] at issued
  rw [issued.eq_nil, joinedLate_served, joinedLate_spare] at total
  cases total

end DistributedFs.Healing
