import DistributedFs.Fsm.Reads
import DistributedFs.Fsm.Step

namespace DistributedFs.Fsm

open Go MetadataFSM

def statusOf (m : FSM) (nodeID : String) : Option NodeStatus :=
  (m.nodeRegistry.lookup nodeID).map NodeEntry.status

section FramesNodes

variable {ρ : Type}

def FramesNodes (handler : MetadataFSM ρ → Outcome ρ) : Prop :=
  ∀ (m : MetadataFSM ρ) (registry : GoMap NodeEntry),
    handler { m with nodeRegistry := registry } =
      ({ (handler m).1 with nodeRegistry := registry }, (handler m).2)

theorem FramesNodes.nodeRegistry {handler : MetadataFSM ρ → Outcome ρ} (frame : FramesNodes handler)
    (m : MetadataFSM ρ) : (handler m).1.nodeRegistry = m.nodeRegistry :=
  congrArg (fun outcome : Outcome ρ => outcome.1.nodeRegistry) (frame m m.nodeRegistry)

theorem handleCmdCreateFile_framesNodes [Inhabited ρ] (req : CommandCreateFile) :
    FramesNodes fun m : MetadataFSM ρ => m.handleCmdCreateFile req := by
  intro m registry
  simp only [handleCmdCreateFile, getFile]
  cases m.fileIndex.lookup req.fileID with
  | some file => rfl
  | none =>
    dsimp only
    split <;> rfl

theorem handleCmdCommitFile_framesNodes (req : CommandCommitFile) :
    FramesNodes fun m : MetadataFSM ρ => m.handleCmdCommitFile req := by
  intro m registry
  simp only [handleCmdCommitFile, getFile]
  cases m.fileIndex.lookup req.fileID with
  | none => rfl
  | some file =>
    dsimp only
    split
    · rfl
    · cases validateChunks m.chunkRegistry file.chunkIDs <;> rfl

theorem handleCmdDeleteFile_framesNodes (req : CommandDeleteFile) :
    FramesNodes fun m : MetadataFSM ρ => m.handleCmdDeleteFile req := by
  intro m registry
  simp only [handleCmdDeleteFile, getFile]
  cases m.fileIndex.lookup req.fileID <;> rfl

theorem handleCmdMarkChunkLost_framesNodes (req : CommandMarkChunkLost) :
    FramesNodes fun m : MetadataFSM ρ => m.handleCmdMarkChunkLost req := by
  intro m registry
  simp only [handleCmdMarkChunkLost, getChunk]
  cases m.chunkRegistry.lookup req.chunkID <;> rfl

theorem handleCmdUpdateRepairJob_framesNodes (req : CommandUpdateRepairJob) :
    FramesNodes fun m : MetadataFSM ρ => m.handleCmdUpdateRepairJob req := by
  intro m registry
  simp only [handleCmdUpdateRepairJob]
  cases m.repairJobRegistry.lookup req.jobID <;> rfl

theorem handleCmdEvictChunkFromNode_framesNodes (req : CommandEvictChunkFromNode) :
    FramesNodes fun m : FSM => m.handleCmdEvictChunkFromNode req := by
  intro m registry
  simp only [handleCmdEvictChunkFromNode, getChunk]
  cases m.chunkRegistry.lookup req.chunkID with
  | none => rfl
  | some chunk =>
    dsimp only
    cases chunk.replicas.findIdx? (· = req.nodeID) <;> rfl

theorem handleCmdAddChunkReplica_framesNodes (req : CommandAddChunkReplica) :
    FramesNodes fun m : FSM => m.handleCmdAddChunkReplica req := by
  intro m registry
  simp only [handleCmdAddChunkReplica, getChunk]
  cases m.chunkRegistry.lookup req.chunkID with
  | none => rfl
  | some chunk =>
    dsimp only
    split <;> rfl

theorem handleCmdCreateRepairJob_framesNodes (req : CommandCreateRepairJob) :
    FramesNodes fun m : MetadataFSM ρ => m.handleCmdCreateRepairJob req := by
  intro m registry
  simp only [handleCmdCreateRepairJob]
  split <;> rfl

end FramesNodes

theorem handleCmdCommitChunk_nodeRegistry (m : FSM) (orders : Nat → MapOrder)
    (req : CommandCommitChunk) :
    (m.handleCmdCommitChunk orders req).1.nodeRegistry = m.nodeRegistry := by
  unfold handleCmdCommitChunk
  cases m.getChunk req.chunkID with
  | error err => rfl
  | ok chunk =>
    dsimp only
    split <;> rfl

def NodeKeys {ρ : Type} (m : MetadataFSM ρ) : Prop :=
  ∀ id node, m.nodeRegistry.lookup id = some node → node.nodeID = id

/-- Where a node entry comes from: it was there, with the same id and `lastSeen`, or the
    command is the first registration of its id. -/
inductive NodeOrigin (m : FSM) (cmd : Command) (id : String) (node : NodeEntry) : Prop where
  | kept (old : NodeEntry) (found : m.nodeRegistry.lookup id = some old)
    (nodeID : node.nodeID = old.nodeID) (lastSeen : node.lastSeen = old.lastSeen)
  | created (req : CommandRegisterNode) (registers : cmd = .registerNode req)
    (own : req.nodeID = id) (new : id ∉ m.nodeRegistry) (nodeID : node.nodeID = id)
    (lastSeen : node.lastSeen = req.createdAt)

theorem nodeOrigin_of_same {m after : FSM} {cmd : Command} {id : String} {node : NodeEntry}
    (same : after.nodeRegistry = m.nodeRegistry)
    (found : after.nodeRegistry.lookup id = some node) : NodeOrigin m cmd id node :=
  .kept node (same ▸ found) rfl rfl

theorem updateNode_nodeOrigin {m : FSM} {cmd : Command} {label nodeID : String} {updatedAt : Time}
    {change : NodeEntry → NodeEntry}
    {id : String} {node : NodeEntry}
    (found : (m.updateNode label nodeID updatedAt change).1.nodeRegistry.lookup id = some node)
    (keeps : ∀ node, (change node).nodeID = node.nodeID ∧ (change node).lastSeen = node.lastSeen) :
    NodeOrigin m cmd id node := by
  unfold updateNode at found
  cases read : m.getNode nodeID with
  | error err =>
    rw [read] at found
    exact nodeOrigin_of_same rfl found
  | ok old =>
    simp only [read, setNode, GoMap.lookup_insert] at found
    have present := (getNode_ok m).mp read
    split at found
    · rename_i here
      subst here
      cases found
      refine .kept old present ?_ ?_
      · split
        · exact (keeps old).1
        · exact (keeps old).1
      · split
        · exact (keeps old).2
        · exact (keeps old).2
    · exact .kept node found rfl rfl

theorem handleCmdRegisterNode_nodeOrigin {m : FSM} (keys : NodeKeys m) {req : CommandRegisterNode}
    {id : String} {node : NodeEntry}
    (found : (m.handleCmdRegisterNode req).1.nodeRegistry.lookup id = some node) :
    NodeOrigin m (.registerNode req) id node := by
  unfold handleCmdRegisterNode at found
  cases read : m.getNode req.nodeID with
  | ok old =>
    have present := (getNode_ok m).mp read
    have own := keys req.nodeID old present
    simp only [read, storeNode, upsert, setNode, GoMap.lookup_insert, own] at found
    split at found
    · rename_i here
      cases found
      exact .kept old (here ▸ present) own.symm rfl
    · exact .kept node found rfl rfl
  | error err =>
    have absent := ((getNode_error m).mp read).1
    simp only [read, storeNode, upsert, GoMap.lookup_insert] at found
    split at found
    · rename_i here
      cases found
      refine .created req rfl here.symm ?_ here.symm rfl
      rw [here]
      exact Finmap.lookup_eq_none.mp absent
    · exact .kept node found rfl rfl

def Command.nodeID? : Command → Option String
  | .registerNode req => some req.nodeID
  | .deregisterNode req => some req.nodeID
  | .markNodeDead req => some req.nodeID
  | .markNodeAlive req => some req.nodeID
  | .updateNodeSpace req => some req.nodeID
  | _ => none

theorem handle_nodeRegistry (m : FSM) (orders : Nat → MapOrder) {cmd : Command} (other : cmd.nodeID? = none) :
    (m.handle orders cmd).1.nodeRegistry = m.nodeRegistry := by
  cases cmd with
  | registerNode | deregisterNode | markNodeDead | markNodeAlive | updateNodeSpace => cases other
  | createFile req => exact (handleCmdCreateFile_framesNodes req).nodeRegistry m
  | commitFile req => exact (handleCmdCommitFile_framesNodes req).nodeRegistry m
  | deleteFile req => exact (handleCmdDeleteFile_framesNodes req).nodeRegistry m
  | commitChunk req => exact handleCmdCommitChunk_nodeRegistry m orders req
  | evictChunkFromNode req => exact (handleCmdEvictChunkFromNode_framesNodes req).nodeRegistry m
  | markChunkLost req => exact (handleCmdMarkChunkLost_framesNodes req).nodeRegistry m
  | createRepairJob req => exact (handleCmdCreateRepairJob_framesNodes req).nodeRegistry m
  | updateRepairJob req => exact (handleCmdUpdateRepairJob_framesNodes req).nodeRegistry m
  | addChunkReplica req => exact (handleCmdAddChunkReplica_framesNodes req).nodeRegistry m
  | registerMetadataNode | deregisterMetadataNode => rfl

theorem handle_nodeOrigin {m : FSM} (keys : NodeKeys m) (orders : Nat → MapOrder) (cmd : Command)
    {id : String} {node : NodeEntry}
    (found : (m.handle orders cmd).1.nodeRegistry.lookup id = some node) :
    NodeOrigin m cmd id node := by
  cases cmd with
  | registerNode req => exact handleCmdRegisterNode_nodeOrigin keys found
  | deregisterNode req =>
    exact updateNode_nodeOrigin found fun _ => ⟨rfl, rfl⟩
  | markNodeDead req =>
    exact updateNode_nodeOrigin found fun _ => ⟨rfl, rfl⟩
  | markNodeAlive req =>
    exact updateNode_nodeOrigin found fun _ => ⟨rfl, rfl⟩
  | updateNodeSpace req =>
    exact updateNode_nodeOrigin found fun _ => ⟨rfl, rfl⟩
  | createFile | commitFile | deleteFile | commitChunk | evictChunkFromNode | markChunkLost
  | createRepairJob | updateRepairJob | addChunkReplica | registerMetadataNode | deregisterMetadataNode =>
    exact nodeOrigin_of_same (handle_nodeRegistry m orders rfl) found

theorem handle_nodeKeys {m : FSM} (keys : NodeKeys m) (orders : Nat → MapOrder) (cmd : Command) :
    NodeKeys (m.handle orders cmd).1 := by
  intro id node found
  cases handle_nodeOrigin keys orders cmd found with
  | kept old present nodeID _ => exact nodeID.trans (keys id old present)
  | created _ _ _ _ nodeID _ => exact nodeID

theorem lookup_updateLastSeen {m : FSM} {nodeID : String} {ts : Time} {id : String}
    {node : NodeEntry}
    (found : (m.updateLastSeen nodeID ts).1.nodeRegistry.lookup id = some node) :
    ∃ old, m.nodeRegistry.lookup id = some old ∧ node.nodeID = old.nodeID ∧
      node.status = old.status ∧
      node.lastSeen = if id = nodeID then ts else old.lastSeen := by
  unfold updateLastSeen at found
  cases present : m.nodeRegistry.lookup nodeID with
  | none =>
    simp only [present] at found
    have elsewhere : id ≠ nodeID := by
      intro same
      subst same
      rw [present] at found
      cases found
    exact ⟨node, found, rfl, rfl, by rw [if_neg elsewhere]⟩
  | some old =>
    simp only [present, setNode, GoMap.lookup_insert] at found
    split at found
    · rename_i here
      subst here
      cases found
      exact ⟨old, present, rfl, rfl, by rw [if_pos rfl]⟩
    · rename_i elsewhere
      exact ⟨node, found, rfl, rfl, by rw [if_neg elsewhere]⟩

end DistributedFs.Fsm
