import DistributedFs.Fsm.Handlers

namespace DistributedFs.Fsm

open Go MetadataFSM

/-- Everything one command can do to the files and chunks of a state: the guards
    that were passed and the registries written. Node, job and metadata-node
    commands write one registry each and leave files and chunks alone. -/
inductive Step (m : FSM) (orders : Nat → MapOrder) : Command → FSM → Option GoError → Prop where
  | failed (cmd : Command) (err : GoError) : Step m orders cmd m (some err)
  | nodes (cmd : Command) (registry : GoMap NodeEntry) :
    Step m orders cmd { m with nodeRegistry := registry } none
  | jobs (cmd : Command) (registry : GoMap RepairJob) :
    Step m orders cmd { m with repairJobRegistry := registry } none
  | mdNodes (cmd : Command) (registry : GoMap MetadataNodeEntry) :
    Step m orders cmd { m with mdNodeRegistry := registry } none
  | createFile (req : CommandCreateFile) (newID : m.fileIndex.lookup req.fileID = none)
    (fresh : ∀ cid ∈ req.chunkIDs, cid ∉ m.chunkRegistry) :
    Step m orders (.createFile req)
      { m with
        chunkRegistry := insertChunks m.chunkRegistry (chunkStubs req)
        fileIndex := m.fileIndex.insert req.fileID (newFile req) } none
  | commitFile (req : CommandCommitFile) (file : FileRecord)
    (found : m.fileIndex.lookup req.fileID = some file) (size : file.fileSize = req.fileSize)
    (valid : validateChunks m.chunkRegistry file.chunkIDs = none) :
    Step m orders (.commitFile req)
      (m.setFile req.fileID { file with checkSum := req.checksum, status := .complete }) none
  | deleteFile (req : CommandDeleteFile) (file : FileRecord)
    (found : m.fileIndex.lookup req.fileID = some file) :
    Step m orders (.deleteFile req)
      (m.setFile req.fileID { file with status := .deleted }) none
  | commitChunk (req : CommandCommitChunk) (chunk : ChunkRecord (List String))
    (found : m.chunkRegistry.lookup req.chunkID = some chunk)
    (open_ : chunk.checksum = [] ∧ chunk.status ≠ .complete) :
    Step m orders (.commitChunk req)
      (m.setChunk req.chunkID { chunk with
        status := .complete, checksum := req.checksum,
        replicas := normalizeReplicaNodeIDs m.nodeRegistry orders req.nodeIDs }) none
  | evict (req : CommandEvictChunkFromNode) (chunk : ChunkRecord (List String)) (idx : Nat)
    (found : m.chunkRegistry.lookup req.chunkID = some chunk)
    (listed : chunk.replicas.findIdx? (· = req.nodeID) = some idx) :
    Step m orders (.evictChunkFromNode req)
      (m.setChunk req.chunkID { chunk with replicas := chunk.replicas.eraseIdx idx }) none
  | markLost (req : CommandMarkChunkLost) (chunk : ChunkRecord (List String))
    (found : m.chunkRegistry.lookup req.chunkID = some chunk) :
    Step m orders (.markChunkLost req)
      (m.setChunk req.chunkID { chunk with status := .lost }) none
  | alreadyListed (req : CommandAddChunkReplica) (chunk : ChunkRecord (List String))
    (found : m.chunkRegistry.lookup req.chunkID = some chunk)
    (listed : req.nodeID ∈ chunk.replicas) :
    Step m orders (.addChunkReplica req) m none
  | addReplica (req : CommandAddChunkReplica) (chunk : ChunkRecord (List String))
    (found : m.chunkRegistry.lookup req.chunkID = some chunk)
    (absent : req.nodeID ∉ chunk.replicas) :
    Step m orders (.addChunkReplica req)
      (m.setChunk req.chunkID { chunk with replicas := chunk.replicas ++ [req.nodeID] }) none

variable {ρ : Type} (m : MetadataFSM ρ)

theorem getNode_ok {nodeID : String} {node : NodeEntry} :
    m.getNode nodeID = .ok node ↔ m.nodeRegistry.lookup nodeID = some node := by
  unfold getNode
  cases m.nodeRegistry.lookup nodeID <;> simp

theorem getNode_error {nodeID : String} {err : GoError} :
    m.getNode nodeID = .error err ↔
      m.nodeRegistry.lookup nodeID = none ∧ err = errNodeNotFound := by
  unfold getNode
  cases m.nodeRegistry.lookup nodeID <;> simp [eq_comm]

theorem getFile_ok {fileID : String} {file : FileRecord} :
    m.getFile fileID = .ok file ↔ m.fileIndex.lookup fileID = some file := by
  unfold getFile
  cases m.fileIndex.lookup fileID <;> simp

theorem getFile_error {fileID : String} {err : GoError} :
    m.getFile fileID = .error err ↔
      m.fileIndex.lookup fileID = none ∧ err = errFileNotFound := by
  unfold getFile
  cases m.fileIndex.lookup fileID <;> simp [eq_comm]

theorem getChunk_ok {chunkID : String} {chunk : ChunkRecord ρ} :
    m.getChunk chunkID = .ok chunk ↔ m.chunkRegistry.lookup chunkID = some chunk := by
  unfold getChunk
  cases m.chunkRegistry.lookup chunkID <;> simp

theorem getChunk_error {chunkID : String} {err : GoError} :
    m.getChunk chunkID = .error err ↔
      m.chunkRegistry.lookup chunkID = none ∧ err = errChunkNotFound := by
  unfold getChunk
  cases m.chunkRegistry.lookup chunkID <;> simp [eq_comm]

theorem mem_of_findIdx? {values : List String} {value : String} {idx : Nat}
    (listed : values.findIdx? (· = value) = some idx) : value ∈ values := by
  obtain ⟨inside, matched, _⟩ := List.findIdx?_eq_some_iff_getElem.mp listed
  rw [← of_decide_eq_true matched]
  exact List.getElem_mem inside

theorem chunkStubs_ids [Inhabited ρ] (req : CommandCreateFile) :
    (chunkStubs (ρ := ρ) req).map ChunkRecord.chunkID = req.chunkIDs := by
  simp [chunkStubs, chunkStub, Function.comp_def]

theorem updateNode_cases (label nodeID : String) (updatedAt : Time)
    (change : NodeEntry → NodeEntry) :
    (∃ err, m.updateNode label nodeID updatedAt change = (m, some err)) ∨
      ∃ registry, m.updateNode label nodeID updatedAt change =
        ({ m with nodeRegistry := registry }, none) := by
  unfold updateNode
  cases m.getNode nodeID with
  | error err => exact .inl ⟨_, rfl⟩
  | ok node => exact .inr ⟨_, rfl⟩

theorem updateNode_step (m : FSM) (orders : Nat → MapOrder) (cmd : Command)
    (label nodeID : String) (updatedAt : Time) (change : NodeEntry → NodeEntry) :
    Step m orders cmd (m.updateNode label nodeID updatedAt change).1
      (m.updateNode label nodeID updatedAt change).2 := by
  rcases updateNode_cases m label nodeID updatedAt change with ⟨err, same⟩ | ⟨registry, same⟩
  · rw [same]
    exact .failed cmd err
  · rw [same]
    exact .nodes cmd registry

theorem handleCmdCreateFile_cases (m : FSM) (req : CommandCreateFile) :
    (∃ err, m.handleCmdCreateFile req = (m, some err)) ∨
      m.fileIndex.lookup req.fileID = none ∧ (∀ cid ∈ req.chunkIDs, cid ∉ m.chunkRegistry) ∧
        m.handleCmdCreateFile req = ({ m with
          chunkRegistry := insertChunks m.chunkRegistry (chunkStubs req)
          fileIndex := m.fileIndex.insert req.fileID (newFile req) }, none) := by
  unfold handleCmdCreateFile
  cases found : m.getFile req.fileID with
  | ok file => exact .inl ⟨_, rfl⟩
  | error err =>
    dsimp only
    split
    · exact .inl ⟨_, rfl⟩
    · rename_i clear
      refine .inr ⟨((getFile_error m).mp found).1, ?_, rfl⟩
      intro cid member present
      apply clear
      rw [← chunkStubs_ids (ρ := List String) req] at member
      obtain ⟨record, listed, rfl⟩ := List.mem_map.mp member
      exact List.any_eq_true.mpr ⟨record, listed, by simpa using present⟩

theorem handleCmdCreateFile_step (m : FSM) (orders : Nat → MapOrder) (req : CommandCreateFile) :
    Step m orders (.createFile req) (m.handleCmdCreateFile req).1
      (m.handleCmdCreateFile req).2 := by
  rcases handleCmdCreateFile_cases m req with ⟨err, same⟩ | ⟨newID, fresh, same⟩
  · rw [same]
    exact .failed _ _
  · rw [same]
    exact .createFile req newID fresh

theorem handleCmdCommitFile_step (m : FSM) (orders : Nat → MapOrder) (req : CommandCommitFile) :
    Step m orders (.commitFile req) (m.handleCmdCommitFile req).1
      (m.handleCmdCommitFile req).2 := by
  unfold handleCmdCommitFile
  cases found : m.getFile req.fileID with
  | error err => exact .failed _ _
  | ok file =>
    dsimp only
    split
    · exact .failed _ _
    · rename_i size
      cases valid : validateChunks m.chunkRegistry file.chunkIDs with
      | some err => exact .failed _ _
      | none => exact .commitFile req file ((getFile_ok m).mp found) (not_not.mp size) valid

theorem handleCmdCommitChunk_step (m : FSM) (orders : Nat → MapOrder) (req : CommandCommitChunk) :
    Step m orders (.commitChunk req) (m.handleCmdCommitChunk orders req).1
      (m.handleCmdCommitChunk orders req).2 := by
  unfold handleCmdCommitChunk
  cases found : m.getChunk req.chunkID with
  | error err => exact .failed _ _
  | ok chunk =>
    dsimp only
    split
    · rename_i guard
      exact .commitChunk req chunk ((getChunk_ok m).mp found)
        ⟨List.length_eq_zero_iff.mp guard.1, guard.2⟩
    · exact .failed _ _

theorem handleCmdEvictChunkFromNode_step (m : FSM) (orders : Nat → MapOrder)
    (req : CommandEvictChunkFromNode) :
    Step m orders (.evictChunkFromNode req) (m.handleCmdEvictChunkFromNode req).1
      (m.handleCmdEvictChunkFromNode req).2 := by
  unfold handleCmdEvictChunkFromNode
  cases found : m.getChunk req.chunkID with
  | error err => exact .failed _ _
  | ok chunk =>
    dsimp only
    cases listed : chunk.replicas.findIdx? (· = req.nodeID) with
    | none => exact .failed _ _
    | some idx => exact .evict req chunk idx ((getChunk_ok m).mp found) listed

theorem handleCmdAddChunkReplica_step (m : FSM) (orders : Nat → MapOrder)
    (req : CommandAddChunkReplica) :
    Step m orders (.addChunkReplica req) (m.handleCmdAddChunkReplica req).1
      (m.handleCmdAddChunkReplica req).2 := by
  unfold handleCmdAddChunkReplica
  cases found : m.getChunk req.chunkID with
  | error err => exact .failed _ _
  | ok chunk =>
    dsimp only
    split
    · rename_i listed
      exact .alreadyListed req chunk ((getChunk_ok m).mp found) listed
    · rename_i absent
      exact .addReplica req chunk ((getChunk_ok m).mp found) absent

/-- The one case analysis over the sixteen handlers. -/
theorem handle_step (m : FSM) (orders : Nat → MapOrder) (cmd : Command) :
    Step m orders cmd (m.handle orders cmd).1 (m.handle orders cmd).2 := by
  cases cmd with
  | registerNode req =>
    simp only [handle, handleCmdRegisterNode]
    cases m.getNode req.nodeID <;> exact .nodes _ _
  | deregisterNode req => exact updateNode_step ..
  | markNodeDead req => exact updateNode_step ..
  | markNodeAlive req => exact updateNode_step ..
  | updateNodeSpace req => exact updateNode_step ..
  | createFile req => exact handleCmdCreateFile_step m orders req
  | commitFile req => exact handleCmdCommitFile_step m orders req
  | deleteFile req =>
    simp only [handle, handleCmdDeleteFile]
    cases found : m.getFile req.fileID with
    | error err => exact .failed _ _
    | ok file => exact .deleteFile req file ((getFile_ok m).mp found)
  | commitChunk req => exact handleCmdCommitChunk_step m orders req
  | evictChunkFromNode req => exact handleCmdEvictChunkFromNode_step m orders req
  | markChunkLost req =>
    simp only [handle, handleCmdMarkChunkLost]
    cases found : m.getChunk req.chunkID with
    | error err => exact .failed _ _
    | ok chunk => exact .markLost req chunk ((getChunk_ok m).mp found)
  | createRepairJob req =>
    simp only [handle, handleCmdCreateRepairJob]
    split
    · exact .failed _ _
    · exact .jobs _ _
  | updateRepairJob req =>
    simp only [handle, handleCmdUpdateRepairJob]
    cases m.repairJobRegistry.lookup req.jobID with
    | none => exact .failed _ _
    | some job => exact .jobs _ _
  | addChunkReplica req => exact handleCmdAddChunkReplica_step m orders req
  | registerMetadataNode req => exact .mdNodes _ _
  | deregisterMetadataNode req => exact .mdNodes _ _

theorem handle_error (m : FSM) (orders : Nat → MapOrder) (cmd : Command) (err : GoError)
    (failed : (m.handle orders cmd).2 = some err) : (m.handle orders cmd).1 = m := by
  have step := handle_step m orders cmd
  generalize (m.handle orders cmd).1 = after at step ⊢
  generalize (m.handle orders cmd).2 = result at step failed
  cases step with
  | failed => rfl
  | _ => cases failed

end DistributedFs.Fsm
