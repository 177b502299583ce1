import DistributedFs.Healing.ScheduledJobs

namespace DistributedFs.Healing

open Go Fsm MetadataFSM Scheduler Reconcile Placement
open Concurrency hiding Config Prog World Run

def reportSuccesses (rs : RepairScheduler) (reports : List (String × String)) : Prog :=
  .forEach (fun report : String × String => onJobComplete rs report.1 report.2 true) reports

structure CopyJob (m : FSM) (chunkID : String) (job : RepairJob) : Prop where
  chunk : job.chunkID = chunkID
  copies : job.deleteSource = false
  source : job.sourceNodeID ∈ liveIDs m chunkID
  target : statusOf m job.targetNodeID = some .alive
  unlisted : ¬Lists m chunkID job.targetNodeID
  apart : job.sourceNodeID ≠ job.targetNodeID

def Restored (replicationFactor : Int) (m : FSM) (chunkID : String) : Prop :=
  (liveIDs m chunkID).length = replicationFactor ∧
    ∃ replicas, replicasOf m chunkID = some replicas ∧ replicas.Nodup

structure Confirmed (m : FSM) (chunkID : String) (chunk : ChunkRecord (List String)) (targets : List String)
    (did : Did) (s : System) : Prop where
  nodes : s.fsm.nodeRegistry = m.nodeRegistry
  jobs : s.fsm.repairJobRegistry = m.repairJobRegistry
  chunk : s.fsm.chunkRegistry.lookup chunkID = some { chunk with replicas := chunk.replicas ++ targets }
  succeeded : Succeeded did

section Reports

variable {m : FSM} {chunkID : String} {chunk : ChunkRecord (List String)} {targets : List String} {did : Did}
  {s : System}

theorem addReplica_appends {m : FSM} (orders : Nat → MapOrder) (req : CommandAddChunkReplica)
    {chunk : ChunkRecord (List String)} (found : m.chunkRegistry.lookup req.chunkID = some chunk)
    (absent : req.nodeID ∉ chunk.replicas) :
    m.handle orders (.addChunkReplica req) =
      (m.setChunk req.chunkID { chunk with replicas := chunk.replicas ++ [req.nodeID] }, none) := by
  simp only [handle, handleCmdAddChunkReplica, (getChunk_ok m).mpr found, absent, if_false]

theorem Confirmed.report (confirmed : Confirmed m chunkID chunk targets did s) (rs : RepairScheduler)
    (nodeID : String) {jobID : String} {job : RepairJob}
    (created : m.repairJobRegistry.lookup jobID = some job) (named : job.chunkID = chunkID)
    (copies : job.deleteSource = false) (absent : job.targetNodeID ∉ chunk.replicas ++ targets) :
    (Setting.alone Synchronous).Ensures (Confirmed m chunkID chunk (targets ++ [job.targetNodeID])) did
      (onJobComplete rs nodeID jobID true) s := by
  subst named
  apply Setting.Ensures.of_act
  intro _ retired ran
  have same : retired.fsm = s.fsm := by
    cases ran with
    | other _ ran =>
      cases ran
      exact retire_fsm s nodeID jobID
  apply alone_look fun _ _ _ _ ran => ran
  intro order
  have known : retired.fsm.getRepairJob jobID = .ok job := by
    rw [← confirmed.jobs, ← same] at created
    exact getRepairJob_ok created
  have stored : retired.fsm.chunkRegistry.lookup job.chunkID =
      some { chunk with replicas := chunk.replicas ++ targets } := by
    rw [same]
    exact confirmed.chunk
  simp only [known, copies, if_true, Bool.false_eq_true, if_false]
  apply Setting.Ensures.of_act
  intro answer after ran
  obtain ⟨orders, result, applied⟩ := propose_result ran
  rw [addReplica_appends orders ⟨job.chunkID, job.targetNodeID⟩ stored absent] at result applied
  subst result applied
  apply Setting.Ensures.of_done
  constructor
  · exact (congrArg MetadataFSM.nodeRegistry same).trans confirmed.nodes
  · exact (congrArg MetadataFSM.repairJobRegistry same).trans confirmed.jobs
  · simp [setChunk, List.append_assoc]
  · apply Succeeded.append
    · apply Succeeded.append
      · exact confirmed.succeeded.append trivial
      · trivial
    · rfl

theorem alone_reports (rs : RepairScheduler) (found : m.chunkRegistry.lookup chunkID = some chunk)
    (here : s.fsm = m) (targetOf : String → String) (reports : List (String × String))
    (each : ∀ report ∈ reports, ∃ job, m.repairJobRegistry.lookup report.2 = some job ∧
      job.chunkID = chunkID ∧ job.deleteSource = false ∧ job.targetNodeID = targetOf report.2)
    (distinct : (chunk.replicas ++ reports.map fun report => targetOf report.2).Nodup) :
    (Setting.alone Synchronous).Ensures
      (Confirmed m chunkID chunk (reports.map fun report => targetOf report.2)) []
      (reportSuccesses rs reports) s := by
  let inv (seen : List (String × String)) : Did → System → Prop :=
    Confirmed m chunkID chunk (seen.map fun report => targetOf report.2)
  have start : inv [] [] s := by
    refine ⟨by rw [here], by rw [here], ?_, fun _ member => (List.not_mem_nil member).elim⟩
    rw [here, found]
    simp
  refine Setting.Ensures.forEach reports [] ?_ ?_ start
  · intro seen did s later same confirmed
    cases same
    exact confirmed
  · intro before report rest whole did s confirmed
    rw [List.nil_append] at whole
    rw [whole] at each distinct
    obtain ⟨job, created, named, copies, aimed⟩ := each report (by simp)
    dsimp only [inv] at confirmed ⊢
    have absent : job.targetNodeID ∉ chunk.replicas ++ before.map fun report => targetOf report.2 := by
      rw [List.map_append, ← List.append_assoc] at distinct
      intro listed
      exact (List.nodup_append.mp distinct).2.2 _ listed _ (by rw [aimed]; simp) rfl
    have ensures := confirmed.report rs report.1 created named copies absent
    rw [aimed] at ensures
    rw [List.map_append]
    exact ensures

end Reports

theorem Confirmed.restored {m : FSM} {chunkID : String} {chunk : ChunkRecord (List String)}
    {targets : List String} {did : Did} {s : System} (confirmed : Confirmed m chunkID chunk targets did s)
    (keys : ∀ id node, m.nodeRegistry.lookup id = some node → node.nodeID = id)
    (found : m.chunkRegistry.lookup chunkID = some chunk)
    (alive : ∀ target ∈ targets, statusOf m target = some .alive)
    (distinct : (chunk.replicas ++ targets).Nodup) :
    Restored ((liveIDs m chunkID).length + targets.length) s.fsm chunkID := by
  have listed : replicasOf s.fsm chunkID = some (chunk.replicas ++ targets) := by
    simp only [replicasOf, confirmed.chunk, Option.map_some]
  have before : replicasOf m chunkID = some chunk.replicas := by
    simp only [replicasOf, found, Option.map_some]
  have same (id : String) : statusOf s.fsm id = statusOf m id := by
    simp only [statusOf, confirmed.nodes]
  have added : targets.filter (fun id => (statusOf m id).any (· ≠ .dead)) = targets := by
    apply List.filter_eq_self.mpr
    intro target member
    rw [alive target member]
    rfl
  refine ⟨?_, _, listed, distinct⟩
  rw [liveIDs_eq (confirmed.nodes ▸ keys), liveIDs_eq keys, listed, before]
  simp only [Option.getD_some, same, List.filter_append, added, List.length_append]
  omega

theorem liveIDs_issued {m after : FSM} {jobs : List RepairJob} (issued : Issued m jobs after)
    (chunkID : String) : liveIDs after chunkID = liveIDs m chunkID := by
  simp only [liveIDs, getChunkLocations, getChunk, issued.chunks, issued.nodes]

theorem issued_restores {history : History} {s after : System} (reached : Reached history s.fsm)
    {jobs : List RepairJob} (issued : Issued s.fsm jobs after.fsm) {chunkID : String}
    {chunk : ChunkRecord (List String)} (found : s.fsm.chunkRegistry.lookup chunkID = some chunk)
    (copies : ∀ job ∈ jobs, CopyJob s.fsm chunkID job) (distinct : (jobs.map RepairJob.targetNodeID).Nodup)
    (rs : RepairScheduler) {reports : List (String × String)}
    (order : (reports.map Prod.snd).Perm (jobs.map RepairJob.jobID)) {log : Did} {final : System}
    (reported : Alone Synchronous (reportSuccesses rs reports) after log final) :
    Succeeded log ∧ Restored ((liveIDs s.fsm chunkID).length + jobs.length) final.fsm chunkID := by
  let targetOf (id : String) : String :=
    ((after.fsm.repairJobRegistry.lookup id).map RepairJob.targetNodeID).getD ""
  have targetOf_job (job : RepairJob) (member : job ∈ jobs) : targetOf job.jobID = job.targetNodeID := by
    simp only [targetOf, issued.found member, Option.map_some, Option.getD_some]
  have targets : (reports.map fun report => targetOf report.2).Perm (jobs.map RepairJob.targetNodeID) := by
    have mapped := order.map targetOf
    rw [List.map_map, List.map_map] at mapped
    rw [← List.map_congr_left targetOf_job]
    exact mapped
  have known (report : String × String) (member : report ∈ reports) :
      ∃ job, after.fsm.repairJobRegistry.lookup report.2 = some job ∧ job.chunkID = chunkID ∧
        job.deleteSource = false ∧ job.targetNodeID = targetOf report.2 := by
    have created : report.2 ∈ jobs.map RepairJob.jobID := order.mem_iff.mp (List.mem_map_of_mem member)
    obtain ⟨job, listed, named⟩ := List.mem_map.mp created
    rw [← named]
    exact ⟨job, issued.found listed, (copies job listed).chunk, (copies job listed).copies,
      (targetOf_job job listed).symm⟩
  have lists : (chunk.replicas ++ reports.map fun report => targetOf report.2).Nodup := by
    apply List.nodup_append.mpr
    refine ⟨reached_replicaSets reached chunkID chunk found, targets.nodup_iff.mpr distinct, ?_⟩
    intro listed old target new same
    obtain ⟨job, member, rfl⟩ := List.mem_map.mp (targets.mem_iff.mp new)
    apply (copies job member).unlisted
    rw [lists_found found, ← same]
    exact old
  have alive (target : String) (member : target ∈ reports.map fun report => targetOf report.2) :
      statusOf after.fsm target = some .alive := by
    obtain ⟨job, listed, rfl⟩ := List.mem_map.mp (targets.mem_iff.mp member)
    rw [statusOf, issued.nodes]
    exact (copies job listed).target
  have stored : after.fsm.chunkRegistry.lookup chunkID = some chunk := by rw [issued.chunks, found]
  have confirmed := (alone_reports rs stored rfl targetOf reports known lists).run reported
  have keys := (reached_registryKeys reached).nodes
  have restored := confirmed.restored (issued.nodes ▸ keys) stored alive lists
  rw [liveIDs_issued issued, targets.length_eq, List.length_map] at restored
  exact ⟨confirmed.succeeded, restored⟩

theorem copyJob_of_spare {m : FSM} (keys : ∀ id node, m.nodeRegistry.lookup id = some node → node.nodeID = id)
    {chunkID : String} {job : RepairJob} (named : job.chunkID = chunkID) (copies : job.deleteSource = false)
    (source : job.sourceNodeID ∈ liveIDs m chunkID)
    (target : job.targetNodeID ∈ (spareNodes m chunkID).map NodeEntry.nodeID) : CopyJob m chunkID job := by
  obtain ⟨alive, unlisted⟩ := (mem_spareNodes keys chunkID _).mp target
  refine ⟨named, copies, source, alive, unlisted, ?_⟩
  intro same
  rw [liveIDs_eq keys, same] at source
  exact unlisted (List.mem_filter.mp source).1

/-- No size is ever recorded for a chunk, so that every spare node counts as one that can hold it. -/
theorem fittingNodes_reached {history : History} {m : FSM} (reached : Reached history m) {chunkID : String}
    {chunk : ChunkRecord (List String)} (found : m.chunkRegistry.lookup chunkID = some chunk) :
    fittingNodes m chunkID chunk.size = spareNodes m chunkID := by
  apply List.filter_eq_self.mpr
  intro node _
  rw [reached_chunkSizes reached chunkID chunk found]
  exact decide_eq_true (Int.natCast_nonneg _)

/-- `ScheduleRepairForChunk` orders exactly the copies that are missing, and once they are reported
    done, in any order, the chunk has exactly as many live locations as it should. -/
theorem repair_converges {history : History} {s : System} (reached : Reached history s.fsm)
    (sourceSorter targetSorter : Sorter NodeEntry) (rf : Int) (rs : RepairScheduler)
    (shipped : rs = newRepairScheduler (leastLoadedStrategy sourceSorter) (mostFreeSpaceStrategy targetSorter) rf)
    {chunkID : String} (served : 1 ≤ (liveIDs s.fsm chunkID).length)
    (missing : (liveIDs s.fsm chunkID).length < rs.replicationFactor)
    (spare : rs.replicationFactor - (liveIDs s.fsm chunkID).length ≤ (spareNodes s.fsm chunkID).length)
    (idle : ∀ id : String, chunkID ++ ":" ++ id ∉ s.pendingJobsSet) :
    (∃ did after, Alone Synchronous (scheduleRepairForChunk rs chunkID) s did after ∧ Succeeded did) ∧
    ∀ did after, Alone Synchronous (scheduleRepairForChunk rs chunkID) s did after → Succeeded did →
      ∃ jobs, Issued s.fsm jobs after.fsm ∧
        (jobs.length : Int) = rs.replicationFactor - (liveIDs s.fsm chunkID).length ∧
        (∀ job ∈ jobs, CopyJob s.fsm chunkID job) ∧
        ∀ reports : List (String × String), (reports.map Prod.snd).Perm (jobs.map RepairJob.jobID) →
          (∃ log final, Alone Synchronous (reportSuccesses rs reports) after log final) ∧
          ∀ log final, Alone Synchronous (reportSuccesses rs reports) after log final →
            Succeeded log ∧ Restored rs.replicationFactor final.fsm chunkID := by
  have keys := (reached_registryKeys reached).nodes
  have mostFree : rs.targetStrategy = mostFreeSpaceStrategy targetSorter := by
    rw [shipped]
    rfl
  have leastLoaded : rs.sourceStrategy = leastLoadedStrategy sourceSorter := by
    rw [shipped]
    rfl
  obtain ⟨chunk, found⟩ : ∃ chunk, s.fsm.chunkRegistry.lookup chunkID = some chunk := by
    rw [← Option.ne_none_iff_exists']
    intro absent
    simp [liveIDs, getChunkLocations, getChunk, absent] at served
  have deficit : 0 < rs.replicationFactor - (liveIDs s.fsm chunkID).length := by omega
  obtain ⟨live, located, nonempty, exists_run, each⟩ :=
    scheduling_runs rs found (List.length_pos_iff.mp served) deficit
  refine ⟨exists_run, ?_⟩
  intro did after ran succeeded
  rw [← fittingNodes_reached reached found] at spare
  obtain ⟨jobs, issued, ordered, total, distinct, aimed⟩ :=
    (each did after ran succeeded).targets mostFree keys located deficit idle spare
  have copies (job : RepairJob) (member : job ∈ jobs) : CopyJob s.fsm chunkID job := by
    obtain ⟨named, source, kept⟩ := ordered job member
    have listed : job.sourceNodeID ∈ liveIDs s.fsm chunkID := by
      rw [source, leastLoaded, ← located]
      exact List.mem_map_of_mem ((leastLoadedStrategy_sound sourceSorter).primary live nonempty)
    exact copyJob_of_spare keys named kept listed (aimed job member)
  refine ⟨jobs, issued, total, copies, ?_⟩
  intro reports order
  refine ⟨Alone.exists_run synchronous_total _ after, ?_⟩
  intro log final reported
  have restored := issued_restores reached issued found copies distinct rs order reported
  have whole : ((liveIDs s.fsm chunkID).length : Int) + jobs.length = rs.replicationFactor := by omega
  rw [whole] at restored
  exact restored

theorem repair_converges_joinedLate : liveIDs joinedLate.fsm "ck-1" = ["n1"] ∧
    ∀ did after, Alone Synchronous (scheduleRepairForChunk twoCopies.scheduler "ck-1") joinedLate did after →
      Succeeded did → ∃ jobs : List RepairJob, jobs.length = 1 ∧
        ∀ reports : List (String × String), (reports.map Prod.snd).Perm (jobs.map RepairJob.jobID) →
          ∀ log final, Alone Synchronous (reportSuccesses twoCopies.scheduler reports) after log final →
            Restored 2 final.fsm "ck-1" := by
  obtain ⟨procs, _, sequential⟩ := joinedLate_reachable
  obtain ⟨history, reached⟩ := reached_fsm twoCopies ⟨[], Reached.empty⟩ sequential
  have served : 1 ≤ (liveIDs joinedLate.fsm "ck-1").length := by
    rw [joinedLate_served]
    decide
  have missing : (liveIDs joinedLate.fsm "ck-1").length < twoCopies.scheduler.replicationFactor := by
    rw [joinedLate_served]
    decide
  have spare : twoCopies.scheduler.replicationFactor - (liveIDs joinedLate.fsm "ck-1").length ≤
      (spareNodes joinedLate.fsm "ck-1").length := by
    rw [joinedLate_served, joinedLate_spare]
    decide
  have converges := repair_converges reached (insertionSorter _) (insertionSorter _) 2 twoCopies.scheduler rfl
    served missing spare joinedLate_idle
  refine ⟨joinedLate_served, ?_⟩
  intro did after ran succeeded
  obtain ⟨jobs, _, total, _, restored⟩ := converges.2 did after ran succeeded
  rw [joinedLate_served] at total
  refine ⟨jobs, Int.ofNat.inj total, ?_⟩
  intro reports order log final reported
  exact ((restored reports order).2 log final reported).2

end DistributedFs.Healing
