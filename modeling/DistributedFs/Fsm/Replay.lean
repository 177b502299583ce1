import DistributedFs.Fsm.Nodes
import DistributedFs.Fsm.Run

namespace DistributedFs.Fsm

open Go MetadataFSM

variable {ρ : Type} (m : MetadataFSM ρ)

theorem NodeEntry.forgetLastSeen_forgetLastSeen (node : NodeEntry) :
    node.forgetLastSeen.forgetLastSeen = node.forgetLastSeen := rfl

theorem forgetLastSeen_idem : m.forgetLastSeen.forgetLastSeen = m.forgetLastSeen := by
  simp only [forgetLastSeen, GoMap.mapValues_comp, NodeEntry.forgetLastSeen_forgetLastSeen]

theorem getNode_forgetLastSeen (nodeID : String) :
    m.forgetLastSeen.getNode nodeID = (m.getNode nodeID).map NodeEntry.forgetLastSeen := by
  simp only [getNode, forgetLastSeen, GoMap.lookup_mapValues]
  cases m.nodeRegistry.lookup nodeID <;> rfl

theorem forgetLastSeen_setNode (nodeID : String) (node : NodeEntry) :
    (m.setNode nodeID node).forgetLastSeen =
      m.forgetLastSeen.setNode nodeID node.forgetLastSeen := by
  simp only [forgetLastSeen, setNode, GoMap.mapValues_insert]

/-- What a handler does with a state and with what a snapshot keeps of it: the same
    result, and states that differ in no field a snapshot keeps. -/
def IgnoresLastSeen (handler : MetadataFSM ρ → Outcome ρ) : Prop :=
  ∀ m : MetadataFSM ρ, (handler m.forgetLastSeen).1.forgetLastSeen = (handler m).1.forgetLastSeen ∧
    (handler m.forgetLastSeen).2 = (handler m).2

theorem updateNode_ignoresLastSeen (label nodeID : String) (updatedAt : Time)
    (change : NodeEntry → NodeEntry)
    (ignores : ∀ node, (change node.forgetLastSeen).forgetLastSeen = (change node).forgetLastSeen) :
    IgnoresLastSeen fun m : MetadataFSM ρ => m.updateNode label nodeID updatedAt change := by
  intro m
  simp only [updateNode, getNode_forgetLastSeen]
  cases m.getNode nodeID with
  | error err => exact ⟨forgetLastSeen_idem m, rfl⟩
  | ok node =>
    have same := ignores node
    have time : (change node.forgetLastSeen).updatedAt = (change node).updatedAt := by
      change (change node.forgetLastSeen).forgetLastSeen.updatedAt = _
      rw [same]
      rfl
    refine ⟨?_, rfl⟩
    simp only [Except.map, forgetLastSeen_setNode, forgetLastSeen_idem, time]
    congr 1
    split
    · exact congrArg (fun node => { node with updatedAt := updatedAt }) same
    · exact same

theorem handleCmdRegisterNode_ignoresLastSeen (req : CommandRegisterNode) :
    IgnoresLastSeen fun m : MetadataFSM ρ => m.handleCmdRegisterNode req := by
  intro m
  simp only [handleCmdRegisterNode, getNode_forgetLastSeen]
  cases m.getNode req.nodeID with
  | error err =>
    refine ⟨?_, rfl⟩
    exact (forgetLastSeen_setNode _ _ _).trans
      ((congrArg (setNode · _ _) (forgetLastSeen_idem m)).trans (forgetLastSeen_setNode m _ _).symm)
  | ok node =>
    refine ⟨?_, rfl⟩
    let later : NodeEntry := { node with
      address := req.address, status := .alive, freeSpace := req.freeSpace,
      chunkCount := req.chunkCount, updatedAt := req.createdAt }
    have stored (m : MetadataFSM ρ) (node : NodeEntry) :
        ((m.setNode req.nodeID node).storeNode node).1.forgetLastSeen =
          (m.forgetLastSeen.setNode req.nodeID node.forgetLastSeen).setNode node.nodeID
            node.forgetLastSeen := by
      rw [← forgetLastSeen_setNode, ← forgetLastSeen_setNode]
      rfl
    exact (stored _ _).trans
      ((congrArg (fun m => (setNode m req.nodeID later.forgetLastSeen).setNode later.nodeID
        later.forgetLastSeen) (forgetLastSeen_idem m)).trans (stored m later).symm)

theorem scanAddress_mapValues (entry : String) (nodes : GoMap NodeEntry) (order : MapOrder) :
    scanAddress entry (GoMap.range order (nodes.mapValues NodeEntry.forgetLastSeen)) =
      scanAddress entry (GoMap.range order nodes) := by
  rw [GoMap.range_mapValues]
  induction GoMap.range order nodes with
  | nil => rfl
  | cons head rest ih =>
    simp only [List.map_cons, scanAddress, ih]
    rfl

theorem normalizeLoop_forgetLastSeen (nodes : GoMap NodeEntry) (orders : Nat → MapOrder)
    (rawIDs : List String) (k : Nat) (normalized seen : List String) :
    normalizeLoop (nodes.mapValues NodeEntry.forgetLastSeen) orders rawIDs k normalized seen =
      normalizeLoop nodes orders rawIDs k normalized seen := by
  have known (entry : String) :
      entry ∈ nodes.mapValues NodeEntry.forgetLastSeen ↔ entry ∈ nodes := by
    rw [← Finmap.mem_keys, GoMap.keys_mapValues, Finmap.mem_keys]
  induction rawIDs generalizing k normalized seen with
  | nil => rfl
  | cons entry rest ih => simp only [normalizeLoop, known, scanAddress_mapValues, ih]

theorem handleCmdCommitChunk_ignoresLastSeen (orders : Nat → MapOrder) (req : CommandCommitChunk) :
    IgnoresLastSeen fun m : FSM => m.handleCmdCommitChunk orders req := by
  intro m
  have same : normalizeReplicaNodeIDs m.forgetLastSeen.nodeRegistry orders req.nodeIDs =
      normalizeReplicaNodeIDs m.nodeRegistry orders req.nodeIDs :=
    normalizeLoop_forgetLastSeen m.nodeRegistry orders req.nodeIDs 0 [] []
  have read : m.forgetLastSeen.getChunk req.chunkID = m.getChunk req.chunkID := rfl
  simp only [handleCmdCommitChunk, same, read]
  cases m.getChunk req.chunkID with
  | error err => exact ⟨forgetLastSeen_idem m, rfl⟩
  | ok chunk =>
    dsimp only
    split
    · exact ⟨congrArg (setChunk · _ _) (forgetLastSeen_idem m), rfl⟩
    · exact ⟨forgetLastSeen_idem m, rfl⟩

theorem FramesNodes.ignoresLastSeen {handler : MetadataFSM ρ → Outcome ρ}
    (frame : FramesNodes handler) : IgnoresLastSeen handler := by
  intro m
  have split := frame m (m.nodeRegistry.mapValues NodeEntry.forgetLastSeen)
  change handler m.forgetLastSeen = _ at split
  rw [split]
  refine ⟨?_, rfl⟩
  simp only [forgetLastSeen, GoMap.mapValues_comp, NodeEntry.forgetLastSeen_forgetLastSeen,
    frame.nodeRegistry m]

theorem handle_ignoresLastSeen (orders : Nat → MapOrder) (cmd : Command) :
    IgnoresLastSeen fun m : FSM => m.handle orders cmd := by
  cases cmd with
  | registerNode req => exact handleCmdRegisterNode_ignoresLastSeen req
  | deregisterNode req => exact updateNode_ignoresLastSeen _ _ _ _ fun _ => rfl
  | markNodeDead req => exact updateNode_ignoresLastSeen _ _ _ _ fun _ => rfl
  | markNodeAlive req => exact updateNode_ignoresLastSeen _ _ _ _ fun _ => rfl
  | updateNodeSpace req => exact updateNode_ignoresLastSeen _ _ _ _ fun _ => rfl
  | createFile req => exact (handleCmdCreateFile_framesNodes req).ignoresLastSeen
  | commitFile req => exact (handleCmdCommitFile_framesNodes req).ignoresLastSeen
  | deleteFile req => exact (handleCmdDeleteFile_framesNodes req).ignoresLastSeen
  | commitChunk req => exact handleCmdCommitChunk_ignoresLastSeen orders req
  | evictChunkFromNode req => exact (handleCmdEvictChunkFromNode_framesNodes req).ignoresLastSeen
  | markChunkLost req => exact (handleCmdMarkChunkLost_framesNodes req).ignoresLastSeen
  | createRepairJob req => exact (handleCmdCreateRepairJob_framesNodes req).ignoresLastSeen
  | updateRepairJob req => exact (handleCmdUpdateRepairJob_framesNodes req).ignoresLastSeen
  | addChunkReplica req => exact (handleCmdAddChunkReplica_framesNodes req).ignoresLastSeen
  | registerMetadataNode req => exact FramesNodes.ignoresLastSeen fun _ _ => rfl
  | deregisterMetadataNode req => exact FramesNodes.ignoresLastSeen fun _ _ => rfl

theorem runLog_forgetLastSeen (oracle : Nat → Nat → MapOrder) (m : FSM) (log : List Command) :
    (runLog oracle m.forgetLastSeen log).1.forgetLastSeen = (runLog oracle m log).1.forgetLastSeen ∧
      (runLog oracle m.forgetLastSeen log).2 = (runLog oracle m log).2 := by
  refine Replication.run_simulation (R := fun s t : FSM => s.forgetLastSeen = t.forgetLastSeen) ?_
    (forgetLastSeen_idem m) (Replication.everyStep_true _ _ _)
  intro i s t cmd _ related
  obtain ⟨states, results⟩ := handle_ignoresLastSeen (oracle i) cmd s
  obtain ⟨states', results'⟩ := handle_ignoresLastSeen (oracle i) cmd t
  rw [related] at states results
  exact ⟨states.symm.trans states', results.symm.trans results'⟩

/-- Log compaction is transparent: restoring, onto any state, the snapshot taken after the
    first part of a log and replaying the rest gives what replaying the whole log gives,
    `lastSeen` aside. -/
theorem compaction_transparent (oracle : Nat → Nat → MapOrder) (target : FSM)
    (first second : List Command) :
    let before := runLog oracle newEmptyMetadataFsm first
    let restored := target.restore before.1.snapshot.persist
    let replayed := runLog (fun i => oracle (first.length + i)) restored.1 second
    let full := runLog oracle newEmptyMetadataFsm (first ++ second)
    restored.2 = none ∧ replayed.1.forgetLastSeen = full.1.forgetLastSeen ∧
      full.2 = before.2 ++ replayed.2 := by
  intro before restored replayed full
  have whole : full = ((runLog (fun i => oracle (first.length + i)) before.1 second).1,
      before.2 ++ (runLog (fun i => oracle (first.length + i)) before.1 second).2) :=
    Replication.run_append _ _ first second
  have start : restored = (before.1.forgetLastSeen, none) := restore_persist target before.1
  obtain ⟨states, results⟩ :=
    runLog_forgetLastSeen (fun i => oracle (first.length + i)) before.1 second
  rw [whole]
  simp only [replayed, start]
  exact ⟨trivial, states, by rw [results]⟩

end DistributedFs.Fsm
