import DistributedFs.Fsm.Integrity
import DistributedFs.Fsm.Nodes

namespace DistributedFs.Fsm

open Go MetadataFSM

def newJob (req : CommandCreateRepairJob) : RepairJob :=
  { jobID := req.jobID, chunkID := req.chunkID, deleteSource := req.deleteSource,
    sourceNodeID := req.sourceNode, targetNodeID := req.targetNode, status := .pending,
    attempts := 0, createdAt := req.createdAt, updatedAt := req.createdAt }

def RepairJob.updated (job : RepairJob) (req : CommandUpdateRepairJob) : RepairJob :=
  { job with
    status := req.status, updatedAt := req.updatedAt, error := req.error, attempts := req.attempts
    sourceNodeID := if req.sourceNode ≠ "" then req.sourceNode else job.sourceNodeID }

/-- Which registries a command writes, and what it writes to the jobs and the metadata
    nodes. `Step` says what it writes to files and chunks. -/
inductive Writes (m : FSM) : Command → FSM → Prop where
  | filesAndChunks (cmd : Command) (files : GoMap FileRecord)
    (chunks : GoMap (ChunkRecord (List String))) :
    Writes m cmd { m with fileIndex := files, chunkRegistry := chunks }
  | nodes (cmd : Command) (registry : GoMap NodeEntry) : Writes m cmd { m with nodeRegistry := registry }
  | createJob (req : CommandCreateRepairJob) (fresh : m.repairJobRegistry.lookup req.jobID = none) :
    Writes m (.createRepairJob req) (m.setJob req.jobID (newJob req))
  | updateJob (req : CommandUpdateRepairJob) (job : RepairJob)
    (found : m.repairJobRegistry.lookup req.jobID = some job) :
    Writes m (.updateRepairJob req) (m.setJob req.jobID (job.updated req))
  | registerMd (req : CommandRegisterMetadataNode) :
    Writes m (.registerMetadataNode req) { m with
      mdNodeRegistry := m.mdNodeRegistry.insert req.raftAddr ⟨req.nodeID, req.raftAddr, req.grpcAddr⟩ }
  | deregisterMd (req : CommandDeregisterMetadataNode) :
    Writes m (.deregisterMetadataNode req) { m with
      mdNodeRegistry := m.mdNodeRegistry.erase req.raftAddr }

theorem Writes.nothing (m : FSM) (cmd : Command) : Writes m cmd m :=
  .filesAndChunks cmd m.fileIndex m.chunkRegistry

theorem updateNode_writes (m : FSM) (cmd : Command) (label nodeID : String) (updatedAt : Time)
    (change : NodeEntry → NodeEntry) : Writes m cmd (m.updateNode label nodeID updatedAt change).1 := by
  rcases updateNode_cases m label nodeID updatedAt change with ⟨err, same⟩ | ⟨registry, same⟩
  · rw [same]
    exact .nothing m cmd
  · rw [same]
    exact .nodes cmd registry

theorem handleCmdCreateFile_writes (m : FSM) (req : CommandCreateFile) :
    Writes m (.createFile req) (m.handleCmdCreateFile req).1 := by
  rcases handleCmdCreateFile_cases m req with ⟨err, same⟩ | ⟨_, _, same⟩
  · rw [same]
    exact .nothing m _
  · rw [same]
    exact .filesAndChunks _ _ _

theorem handleCmdCommitFile_writes (m : FSM) (req : CommandCommitFile) :
    Writes m (.commitFile req) (m.handleCmdCommitFile req).1 := by
  unfold handleCmdCommitFile
  cases m.getFile req.fileID with
  | error err => exact .nothing m _
  | ok file =>
    dsimp only
    split
    · exact .nothing m _
    · cases validateChunks m.chunkRegistry file.chunkIDs with
      | some err => exact .nothing m _
      | none => exact .filesAndChunks _ _ _

theorem handleCmdCommitChunk_writes (m : FSM) (orders : Nat → MapOrder) (req : CommandCommitChunk) :
    Writes m (.commitChunk req) (m.handleCmdCommitChunk orders req).1 := by
  unfold handleCmdCommitChunk
  cases m.getChunk req.chunkID with
  | error err => exact .nothing m _
  | ok chunk =>
    dsimp only
    split
    · exact .filesAndChunks _ _ _
    · exact .nothing m _

theorem handleCmdEvictChunkFromNode_writes (m : FSM) (req : CommandEvictChunkFromNode) :
    Writes m (.evictChunkFromNode req) (m.handleCmdEvictChunkFromNode req).1 := by
  unfold handleCmdEvictChunkFromNode
  cases m.getChunk req.chunkID with
  | error err => exact .nothing m _
  | ok chunk =>
    dsimp only
    cases chunk.replicas.findIdx? (· = req.nodeID) with
    | none => exact .nothing m _
    | some idx => exact .filesAndChunks _ _ _

theorem handleCmdAddChunkReplica_writes (m : FSM) (req : CommandAddChunkReplica) :
    Writes m (.addChunkReplica req) (m.handleCmdAddChunkReplica req).1 := by
  unfold handleCmdAddChunkReplica
  cases m.getChunk req.chunkID with
  | error err => exact .nothing m _
  | ok chunk =>
    dsimp only
    split
    · exact .nothing m _
    · exact .filesAndChunks _ _ _

theorem handleCmdUpdateRepairJob_found {m : FSM} {req : CommandUpdateRepairJob} {job : RepairJob}
    (found : m.repairJobRegistry.lookup req.jobID = some job) :
    m.handleCmdUpdateRepairJob req = (m.setJob req.jobID (job.updated req), none) := by
  simp only [handleCmdUpdateRepairJob, found, RepairJob.updated]
  by_cases named : req.sourceNode ≠ ""
  · rw [if_pos named, if_pos named]
  · rw [if_neg named, if_neg named]

theorem handleCmdUpdateRepairJob_writes (m : FSM) (req : CommandUpdateRepairJob) :
    Writes m (.updateRepairJob req) (m.handleCmdUpdateRepairJob req).1 := by
  cases found : m.repairJobRegistry.lookup req.jobID with
  | none =>
    simp only [handleCmdUpdateRepairJob, found]
    exact .nothing m _
  | some job =>
    rw [handleCmdUpdateRepairJob_found found]
    exact .updateJob req job found

theorem handle_writes (m : FSM) (orders : Nat → MapOrder) (cmd : Command) :
    Writes m cmd (m.handle orders cmd).1 := by
  cases cmd with
  | registerNode req =>
    simp only [handle, handleCmdRegisterNode]
    cases m.getNode req.nodeID <;> exact .nodes _ _
  | deregisterNode req => exact updateNode_writes ..
  | markNodeDead req => exact updateNode_writes ..
  | markNodeAlive req => exact updateNode_writes ..
  | updateNodeSpace req => exact updateNode_writes ..
  | createFile req => exact handleCmdCreateFile_writes m req
  | commitFile req => exact handleCmdCommitFile_writes m req
  | deleteFile req =>
    simp only [handle, handleCmdDeleteFile]
    cases m.getFile req.fileID with
    | error err => exact .nothing m _
    | ok file => exact .filesAndChunks _ _ _
  | commitChunk req => exact handleCmdCommitChunk_writes m orders req
  | evictChunkFromNode req => exact handleCmdEvictChunkFromNode_writes m req
  | markChunkLost req =>
    simp only [handle, handleCmdMarkChunkLost]
    cases m.getChunk req.chunkID with
    | error err => exact .nothing m _
    | ok chunk => exact .filesAndChunks _ _ _
  | createRepairJob req =>
    simp only [handle, handleCmdCreateRepairJob]
    split
    · exact .nothing m _
    · rename_i fresh
      exact .createJob req (Finmap.lookup_eq_none.mpr fresh)
  | updateRepairJob req => exact handleCmdUpdateRepairJob_writes m req
  | addChunkReplica req => exact handleCmdAddChunkReplica_writes m req
  | registerMetadataNode req => exact .registerMd req
  | deregisterMetadataNode req => exact .deregisterMd req

theorem lookup_setJob {m : FSM} {id other : String} {later job : RepairJob}
    (found : (m.setJob id later).repairJobRegistry.lookup other = some job) :
    (other = id ∧ job = later) ∨ (other ≠ id ∧ m.repairJobRegistry.lookup other = some job) := by
  simp only [setJob, GoMap.lookup_insert] at found
  split at found
  · rename_i here
    exact .inl ⟨here, (Option.some.inj found).symm⟩
  · rename_i elsewhere
    exact .inr ⟨elsewhere, found⟩

structure RegistryKeys (m : FSM) : Prop where
  files : ∀ id file, m.fileIndex.lookup id = some file → file.fileID = id
  chunks : ∀ cid chunk, m.chunkRegistry.lookup cid = some chunk → chunk.chunkID = cid
  nodes : ∀ id node, m.nodeRegistry.lookup id = some node → node.nodeID = id
  jobs : ∀ id job, m.repairJobRegistry.lookup id = some job → job.jobID = id
  mdNodes : ∀ addr entry, m.mdNodeRegistry.lookup addr = some entry → entry.raftAddr = addr

theorem Writes.jobKeys {m after : FSM} {cmd : Command} (writes : Writes m cmd after)
    (keys : ∀ id job, m.repairJobRegistry.lookup id = some job → job.jobID = id) (id : String)
    (job : RepairJob) (found : after.repairJobRegistry.lookup id = some job) : job.jobID = id := by
  cases writes with
  | filesAndChunks | nodes | registerMd | deregisterMd => exact keys id job found
  | createJob req fresh =>
    rcases lookup_setJob found with ⟨here, same⟩ | ⟨_, older⟩
    · rw [here, same]
      rfl
    · exact keys id job older
  | updateJob req old present =>
    rcases lookup_setJob found with ⟨here, same⟩ | ⟨_, older⟩
    · rw [here, same]
      exact keys req.jobID old present
    · exact keys id job older

theorem Writes.mdNodeKeys {m after : FSM} {cmd : Command} (writes : Writes m cmd after)
    (keys : ∀ addr entry, m.mdNodeRegistry.lookup addr = some entry → entry.raftAddr = addr)
    (addr : String) (entry : MetadataNodeEntry)
    (found : after.mdNodeRegistry.lookup addr = some entry) : entry.raftAddr = addr := by
  cases writes with
  | filesAndChunks | nodes | createJob | updateJob => exact keys addr entry found
  | registerMd req =>
    simp only [GoMap.lookup_insert] at found
    split at found
    · rename_i here
      cases found
      exact here.symm
    · exact keys addr entry found
  | deregisterMd req =>
    by_cases here : addr = req.raftAddr
    · subst here
      simp only [Finmap.lookup_erase] at found
      cases found
    · rw [Finmap.lookup_erase_ne here] at found
      exact keys addr entry found

theorem nodeKeys_forgetLastSeen {s : FSM} (keys : NodeKeys s) : NodeKeys s.forgetLastSeen := by
  intro id node found
  simp only [forgetLastSeen, GoMap.lookup_mapValues, Option.map_eq_some_iff] at found
  obtain ⟨old, present, rfl⟩ := found
  exact keys id old present

theorem reached_registryKeys {history : History} {m : FSM} (reached : Reached history m) :
    RegistryKeys m := by
  induction reached with
  | empty => constructor <;> intro _ _ found <;> cases found
  | command orders cmd before ih =>
    rename_i m
    have intact := reached_integrity (before.command orders cmd)
    have writes := handle_writes m orders cmd
    exact ⟨intact.fileKey, intact.chunkKey, handle_nodeKeys ih.nodes orders cmd,
      writes.jobKeys ih.jobs, writes.mdNodeKeys ih.mdNodes⟩
  | heartbeat nodeID ts _ ih =>
    rename_i m _
    have nodes (id : String) (node : NodeEntry)
        (found : (m.updateLastSeen nodeID ts).1.nodeRegistry.lookup id = some node) :
        node.nodeID = id := by
      obtain ⟨old, present, same, _⟩ := lookup_updateLastSeen found
      exact same.trans (ih.nodes id old present)
    obtain ⟨registry, same⟩ := m.updateLastSeen_nodes_only nodeID ts
    rw [same] at nodes ⊢
    exact ⟨ih.files, ih.chunks, nodes, ih.jobs, ih.mdNodes⟩
  | restore _ _ _ ih =>
    rw [restore_persist]
    exact ⟨ih.files, ih.chunks, nodeKeys_forgetLastSeen ih.nodes, ih.jobs, ih.mdNodes⟩

end DistributedFs.Fsm
