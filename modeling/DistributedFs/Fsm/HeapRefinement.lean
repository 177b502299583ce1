import DistributedFs.Fsm.HeapOwnership
import DistributedFs.Fsm.Run

namespace DistributedFs.Fsm

open Go MetadataFSM

namespace HeapFSM

variable (policy : GrowthPolicy)

theorem read_nil (heap : Heap String) : heap.read default = [] := rfl

theorem mapReplicas_read_insert {registry : GoMap (ChunkRecord Slice)} {heap later : Heap String}
    {cid : String} (ck : ChunkRecord Slice)
    (others : ∀ other record, other ≠ cid → registry.lookup other = some record →
      later.read record.replicas = heap.read record.replicas) :
    GoMap.mapValues (ChunkRecord.mapReplicas later.read) (registry.insert cid ck) =
      (registry.mapValues (ChunkRecord.mapReplicas heap.read)).insert cid
        (ck.mapReplicas later.read) := by
  apply Finmap.ext_lookup
  intro other
  simp only [GoMap.lookup_mapValues, GoMap.lookup_insert]
  by_cases here : other = cid
  · simp [here]
  · simp only [here, if_false]
    cases stored : registry.lookup other with
    | none => rfl
    | some record => simp [ChunkRecord.mapReplicas, others other record here stored]

theorem view_setChunk {st : HeapFSM} {heap : Heap String} {cid : String} (ck : ChunkRecord Slice)
    (others : ∀ other record, other ≠ cid → st.fsm.chunkRegistry.lookup other = some record →
      heap.read record.replicas = st.heap.read record.replicas) :
    view ⟨st.fsm.setChunk cid ck, heap⟩ = st.view.setChunk cid (ck.mapReplicas heap.read) := by
  simp only [view, MetadataFSM.mapReplicas, setChunk, mapReplicas_read_insert ck others]

theorem WellFormed.append_others {st : HeapFSM} (wf : WellFormed st) {cid : String}
    {chunk : ChunkRecord Slice} (found : st.fsm.chunkRegistry.lookup cid = some chunk) (n : Nat)
    (values : List String) (other : String) (record : ChunkRecord Slice) (elsewhere : other ≠ cid)
    (stored : st.fsm.chunkRegistry.lookup other = some record) :
    (st.heap.append policy (chunk.replicas.take n) values).1.read record.replicas =
      st.heap.read record.replicas := by
  apply Heap.read_append_of_apart policy st.heap values (wf.allocated other record stored).2
  intro cells cells' same
  exact elsewhere (wf.apart other cid record chunk stored found cells cells' same)

theorem handleCmdCommitChunk_view {st : HeapFSM} (wf : WellFormed st) (orders : Nat → MapOrder)
    (req : CommandCommitChunk) :
    ((st.handleCmdCommitChunk policy orders req).1.view,
        (st.handleCmdCommitChunk policy orders req).2) =
      st.view.handleCmdCommitChunk orders req := by
  simp only [handleCmdCommitChunk, MetadataFSM.handleCmdCommitChunk, view, getChunk_mapReplicas]
  cases st.fsm.getChunk req.chunkID with
  | error err => rfl
  | ok chunk =>
    obtain ⟨fresh, written⟩ :=
      normalizeReplicaNodeIDs_spec policy st.heap st.fsm.nodeRegistry orders req.nodeIDs
    simp only [Except.map, ChunkRecord.mapReplicas]
    split
    · refine Prod.ext ?_ rfl
      refine (view_setChunk _ ?_).trans ?_
      · intro other record _ stored
        exact fresh.others record.replicas (wf.allocated other record stored).2
      · simp only [ChunkRecord.mapReplicas, written]
        rfl
    · rfl

theorem handleCmdEvictChunkFromNode_view {st : HeapFSM} (wf : WellFormed st)
    (req : CommandEvictChunkFromNode) :
    ((st.handleCmdEvictChunkFromNode policy req).1.view,
        (st.handleCmdEvictChunkFromNode policy req).2) =
      st.view.handleCmdEvictChunkFromNode req := by
  simp only [handleCmdEvictChunkFromNode, MetadataFSM.handleCmdEvictChunkFromNode, view,
    getChunk_mapReplicas]
  cases read : st.fsm.getChunk req.chunkID with
  | error err => rfl
  | ok chunk =>
    simp only [Except.map, ChunkRecord.mapReplicas]
    cases (st.heap.read chunk.replicas).findIdx? (· = req.nodeID) with
    | none => rfl
    | some idx =>
      refine Prod.ext ?_ rfl
      apply (view_setChunk _ (wf.append_others policy ((getChunk_ok st.fsm).mp read) idx _)).trans
      simp only [ChunkRecord.mapReplicas, Heap.read_delete]
      rfl

theorem handleCmdAddChunkReplica_view {st : HeapFSM} (wf : WellFormed st)
    (req : CommandAddChunkReplica) :
    ((st.handleCmdAddChunkReplica policy req).1.view,
        (st.handleCmdAddChunkReplica policy req).2) =
      st.view.handleCmdAddChunkReplica req := by
  simp only [handleCmdAddChunkReplica, MetadataFSM.handleCmdAddChunkReplica, view,
    getChunk_mapReplicas]
  cases read : st.fsm.getChunk req.chunkID with
  | error err => rfl
  | ok chunk =>
    simp only [Except.map, ChunkRecord.mapReplicas]
    split
    · rfl
    · refine Prod.ext ?_ rfl
      have others := wf.append_others policy ((getChunk_ok st.fsm).mp read) chunk.replicas.len
        [req.nodeID]
      rw [Slice.take_len] at others
      apply (view_setChunk _ others).trans
      simp only [ChunkRecord.mapReplicas, Heap.read_append]
      rfl

/-- The memory model refines the value model: what a reader sees of a step is the step of
    what it sees. -/
theorem handle_view {st : HeapFSM} (wf : WellFormed st) (orders : Nat → MapOrder) (cmd : Command) :
    ((st.handle policy orders cmd).1.view, (st.handle policy orders cmd).2) =
      st.view.handle orders cmd := by
  cases cmd with
  | registerNode req => exact (handleCmdRegisterNode_mapReplicas _ st.fsm req).symm
  | deregisterNode req => exact (updateNode_mapReplicas _ st.fsm _ _ _ _).symm
  | markNodeDead req => exact (updateNode_mapReplicas _ st.fsm _ _ _ _).symm
  | markNodeAlive req => exact (updateNode_mapReplicas _ st.fsm _ _ _ _).symm
  | updateNodeSpace req => exact (updateNode_mapReplicas _ st.fsm _ _ _ _).symm
  | createFile req => exact (handleCmdCreateFile_mapReplicas _ st.fsm (read_nil st.heap) req).symm
  | commitFile req => exact (handleCmdCommitFile_mapReplicas _ st.fsm req).symm
  | deleteFile req => exact (handleCmdDeleteFile_mapReplicas _ st.fsm req).symm
  | commitChunk req => exact handleCmdCommitChunk_view policy wf orders req
  | evictChunkFromNode req => exact handleCmdEvictChunkFromNode_view policy wf req
  | markChunkLost req => exact (handleCmdMarkChunkLost_mapReplicas _ st.fsm req).symm
  | createRepairJob req => exact (handleCmdCreateRepairJob_mapReplicas _ st.fsm req).symm
  | updateRepairJob req => exact (handleCmdUpdateRepairJob_mapReplicas _ st.fsm req).symm
  | addChunkReplica req => exact handleCmdAddChunkReplica_view policy wf req
  | registerMetadataNode req => rfl
  | deregisterMetadataNode req => rfl

theorem decodeReplicas_view (records : List (String × ChunkRecord (List String)))
    (m : MetadataFSM Slice) (heap : Heap String) (registry : GoMap (ChunkRecord Slice))
    (wf : WellFormed ⟨{ m with chunkRegistry := registry }, heap⟩) :
    (decodeReplicas policy records (heap, registry)).2.mapValues
        (ChunkRecord.mapReplicas (decodeReplicas policy records (heap, registry)).1.read) =
      GoMap.insertAll (registry.mapValues (ChunkRecord.mapReplicas heap.read)) records := by
  induction records generalizing heap registry with
  | nil => rfl
  | cons head rest ih =>
    obtain ⟨cid, ck⟩ := head
    have one := decodeReplicas_wellFormed policy [(cid, ck)] m heap registry wf
    apply (ih _ _ one).trans
    have others (other : String) (record : ChunkRecord Slice) (_ : other ≠ cid)
        (stored : registry.lookup other = some record) :
        (heap.append policy default ck.replicas).1.read record.replicas =
          heap.read record.replicas :=
      Heap.read_append_of_apart policy heap ck.replicas (wf.allocated other record stored).2
        fun _ cells => absurd cells (by decide)
    have stored := mapReplicas_read_insert
      { ck with replicas := (heap.append policy default ck.replicas).2 } others
    simp only [ChunkRecord.mapReplicas, Heap.read_append, read_nil, List.nil_append] at stored
    exact congrArg (GoMap.insertAll · rest) stored

theorem restore_view {st : HeapFSM} (wf : WellFormed st) (order : MapOrder)
    (document : SnapshotJson) :
    ((st.restore policy order document).1.view, (st.restore policy order document).2) =
      st.view.restore document := by
  unfold restore MetadataFSM.restore
  cases MetadataFSMSnapshot.unmarshal document with
  | error err => rfl
  | ok snap =>
    have empty : WellFormed ⟨{ st.fsm with chunkRegistry := ∅ }, st.heap⟩ :=
      ⟨wf.nil, fun _ _ found => (nomatch found), fun _ _ _ _ found => (nomatch found)⟩
    have decoded := decodeReplicas_view policy (GoMap.range order snap.chunkRegistry) st.fsm
      st.heap ∅ empty
    rw [GoMap.mapValues_empty, GoMap.insertAll_range] at decoded
    simp only [view, MetadataFSM.mapReplicas, MetadataFSMSnapshot.restoreFSM, deepCopy_eq, decoded]

def runLog (oracle : Nat → Nat → MapOrder) (st : HeapFSM) (log : List Command) :
    HeapFSM × List (Option GoError) :=
  Replication.run (fun i st cmd => handle policy st (oracle i) cmd) st log

theorem runLog_view (oracle : Nat → Nat → MapOrder) {st : HeapFSM} (wf : WellFormed st)
    (log : List Command) :
    (WellFormed (st.runLog policy oracle log).1 ∧
        (st.runLog policy oracle log).1.view = (Fsm.runLog oracle st.view log).1) ∧
      (st.runLog policy oracle log).2 = (Fsm.runLog oracle st.view log).2 := by
  refine Replication.run_simulation (R := fun st m => WellFormed st ∧ st.view = m) ?_ ⟨wf, rfl⟩
    (Replication.everyStep_true _ _ _)
  intro i st _ cmd _ held
  obtain ⟨wf, rfl⟩ := held
  obtain ⟨moved, follow⟩ := handle_slicesFollow policy wf (oracle i) cmd
  have seen := handle_view policy wf (oracle i) cmd
  exact ⟨⟨follow.wellFormed wf, congrArg Prod.fst seen⟩, congrArg Prod.snd seen⟩

inductive Reached : HeapFSM → Prop where
  | empty : Reached newEmpty
  | command {st : HeapFSM} (orders : Nat → MapOrder) (cmd : Command) (before : Reached st) :
    Reached (st.handle policy orders cmd).1
  | heartbeat {st : HeapFSM} (nodeID : String) (ts : Time) (before : Reached st) :
    Reached ⟨(st.fsm.updateLastSeen nodeID ts).1, st.heap⟩
  | restore {st : HeapFSM} (order : MapOrder) (document : SnapshotJson) (before : Reached st) :
    Reached (st.restore policy order document).1

theorem Reached.wellFormed {st : HeapFSM} (reached : Reached policy st) : WellFormed st := by
  induction reached with
  | empty =>
    exact ⟨Nat.one_pos, fun _ _ found => (nomatch found), fun _ _ _ _ found => (nomatch found)⟩
  | command orders cmd _ wf =>
    obtain ⟨moved, follow⟩ := handle_slicesFollow policy wf orders cmd
    exact follow.wellFormed wf
  | heartbeat nodeID ts _ wf =>
    rename_i st _
    obtain ⟨registry, same⟩ := updateLastSeen_nodes_only st.fsm nodeID ts
    rw [same]
    exact ⟨wf.nil, wf.allocated, wf.apart⟩
  | restore order document _ wf => exact restore_wellFormed policy wf order document

end HeapFSM

end DistributedFs.Fsm
