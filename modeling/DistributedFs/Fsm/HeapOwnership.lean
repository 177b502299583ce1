import DistributedFs.Fsm.HeapView
import DistributedFs.Fsm.Integrity

namespace DistributedFs.Fsm

open Go MetadataFSM

namespace HeapFSM

variable (policy : GrowthPolicy)

def Allocated (heap : Heap String) (registry : GoMap (ChunkRecord Slice)) : Prop :=
  ∀ cid ck, registry.lookup cid = some ck → ck.replicas.off = 0 ∧ ck.replicas.array < heap.next

def Apart (first second : GoMap (ChunkRecord Slice)) : Prop :=
  ∀ cid cid' ck ck', first.lookup cid = some ck → second.lookup cid' = some ck' →
    0 < ck.replicas.cap → 0 < ck'.replicas.cap → ck.replicas.array = ck'.replicas.array → cid = cid'

structure WellFormed (st : HeapFSM) : Prop where
  nil : 0 < st.heap.next
  allocated : Allocated st.heap st.fsm.chunkRegistry
  apart : Apart st.fsm.chunkRegistry st.fsm.chunkRegistry

/-- Where the slices of a later registry come from: each is without cells, or over the
    array of its own chunk, or, for one chunk, over the array that was next. -/
structure SlicesFollow (before after : HeapFSM) (moved : String) : Prop where
  next : before.heap.next ≤ after.heap.next
  allocated : Allocated after.heap after.fsm.chunkRegistry
  origin : ∀ cid ck, after.fsm.chunkRegistry.lookup cid = some ck → ck.replicas.cap = 0 ∨
    (∃ old, before.fsm.chunkRegistry.lookup cid = some old ∧
      old.replicas.array = ck.replicas.array ∧ 0 < old.replicas.cap) ∨
    (ck.replicas.array = before.heap.next ∧ cid = moved)

theorem SlicesFollow.apart_frozen {before after : HeapFSM} {moved : String}
    (follow : SlicesFollow before after moved) {frozen : GoMap (ChunkRecord Slice)}
    (allocated : Allocated before.heap frozen) (apart : Apart frozen before.fsm.chunkRegistry) :
    Apart frozen after.fsm.chunkRegistry := by
  intro cid cid' ck ck' found found' cells cells' same
  rcases follow.origin cid' ck' found' with none | ⟨old, present, array, room⟩ | ⟨array, _⟩
  · omega
  · exact apart cid cid' ck old found present cells room (same.trans array.symm)
  · have below := (allocated cid ck found).2
    omega

theorem SlicesFollow.wellFormed {before after : HeapFSM} {moved : String}
    (follow : SlicesFollow before after moved) (wf : WellFormed before) : WellFormed after := by
  refine ⟨lt_of_lt_of_le wf.nil follow.next, follow.allocated, ?_⟩
  intro cid cid' ck ck' found found' cells cells' same
  rcases follow.origin cid ck found with none | ⟨old, present, array, room⟩ | ⟨array, here⟩ <;>
  rcases follow.origin cid' ck' found' with none' | ⟨old', present', array', room'⟩ | ⟨array', here'⟩
  any_goals omega
  · exact wf.apart cid cid' old old' present present' room room' (array.trans (same.trans array'.symm))
  · have below := (wf.allocated cid old present).2
    omega
  · have below := (wf.allocated cid' old' present').2
    omega
  · exact here.trans here'.symm

theorem slicesFollow_of_kept {st : HeapFSM} (wf : WellFormed st) {fsm : MetadataFSM Slice}
    (kept : ∀ cid ck, fsm.chunkRegistry.lookup cid = some ck → ck.replicas = default ∨
      ∃ old, st.fsm.chunkRegistry.lookup cid = some old ∧ old.replicas = ck.replicas) :
    SlicesFollow st ⟨fsm, st.heap⟩ "" where
  next := le_rfl
  allocated cid ck found := by
    rcases kept cid ck found with empty | ⟨old, present, same⟩
    · rw [empty]
      exact ⟨rfl, wf.nil⟩
    · rw [← same]
      exact wf.allocated cid old present
  origin cid ck found := by
    rcases kept cid ck found with empty | ⟨old, present, same⟩
    · exact .inl (by rw [empty]; rfl)
    · by_cases cells : 0 < old.replicas.cap
      · exact .inr (.inl ⟨old, present, by rw [same], cells⟩)
      · exact .inl (by rw [← same]; omega)

theorem slicesFollow_of_setChunk {st : HeapFSM} (wf : WellFormed st) {cid : String}
    {ck : ChunkRecord Slice} {heap : Heap String} (next : st.heap.next ≤ heap.next)
    (allocated : ck.replicas.off = 0 ∧ ck.replicas.array < heap.next)
    (origin : ck.replicas.cap = 0 ∨
      (∃ old, st.fsm.chunkRegistry.lookup cid = some old ∧
        old.replicas.array = ck.replicas.array ∧ 0 < old.replicas.cap) ∨
      ck.replicas.array = st.heap.next) :
    SlicesFollow st ⟨st.fsm.setChunk cid ck, heap⟩ cid where
  next := next
  allocated other record stored := by
    simp only [setChunk, GoMap.lookup_insert] at stored
    split at stored
    · cases stored
      exact allocated
    · have before := wf.allocated other record stored
      exact ⟨before.1, lt_of_lt_of_le before.2 next⟩
  origin other record stored := by
    simp only [setChunk, GoMap.lookup_insert] at stored
    split at stored
    · rename_i here
      subst here
      cases stored
      rcases origin with none | own | array
      · exact .inl none
      · exact .inr (.inl own)
      · exact .inr (.inr ⟨array, rfl⟩)
    · by_cases cells : 0 < record.replicas.cap
      · exact .inr (.inl ⟨record, stored, rfl, cells⟩)
      · exact .inl (by omega)

theorem slicesFollow_of_append {st : HeapFSM} (wf : WellFormed st) {cid : String}
    {old : ChunkRecord Slice} (found : st.fsm.chunkRegistry.lookup cid = some old) (n : Nat)
    (values : List String) :
    SlicesFollow st
      ⟨st.fsm.setChunk cid { old with
          replicas := (st.heap.append policy (old.replicas.take n) values).2 },
        (st.heap.append policy (old.replicas.take n) values).1⟩ cid := by
  have before := wf.allocated cid old found
  have base := Heap.append_off policy st.heap values (s := old.replicas.take n) before.1
  rcases Heap.append_array policy st.heap (old.replicas.take n) values with
    ⟨array, next, cap⟩ | ⟨array, next⟩
  · refine slicesFollow_of_setChunk wf (by omega) ⟨base, ?_⟩ ?_
    · change (st.heap.append policy (old.replicas.take n) values).2.array < _
      rw [array, next]
      exact before.2
    · by_cases cells : 0 < old.replicas.cap
      · exact .inr (.inl ⟨old, found, array.symm, cells⟩)
      · refine .inl (cap.trans ?_)
        change old.replicas.cap = 0
        omega
  · refine slicesFollow_of_setChunk wf (by omega) ⟨base, ?_⟩ (.inr (.inr array))
    change (st.heap.append policy (old.replicas.take n) values).2.array < _
    omega

theorem lift_slicesFollow {st : HeapFSM} (wf : WellFormed st) {outcome : Outcome Slice}
    (chunks : outcome.1.chunkRegistry = st.fsm.chunkRegistry) :
    SlicesFollow st (st.lift outcome).1 "" := by
  apply slicesFollow_of_kept wf
  intro cid ck found
  rw [chunks] at found
  exact .inr ⟨ck, found, rfl⟩

theorem updateNode_chunkRegistry (m : MetadataFSM Slice) (label nodeID : String) (updatedAt : Time)
    (change : NodeEntry → NodeEntry) :
    (m.updateNode label nodeID updatedAt change).1.chunkRegistry = m.chunkRegistry := by
  rcases updateNode_cases m label nodeID updatedAt change with ⟨err, same⟩ | ⟨registry, same⟩ <;>
    rw [same]

theorem handleCmdRegisterNode_chunkRegistry (m : MetadataFSM Slice) (req : CommandRegisterNode) :
    (m.handleCmdRegisterNode req).1.chunkRegistry = m.chunkRegistry := by
  unfold handleCmdRegisterNode
  cases m.getNode req.nodeID <;> rfl

theorem handleCmdCommitFile_chunkRegistry (m : MetadataFSM Slice) (req : CommandCommitFile) :
    (m.handleCmdCommitFile req).1.chunkRegistry = m.chunkRegistry := by
  unfold handleCmdCommitFile
  cases m.getFile req.fileID with
  | error err => rfl
  | ok file =>
    dsimp only
    split
    · rfl
    · cases validateChunks m.chunkRegistry file.chunkIDs <;> rfl

theorem handleCmdDeleteFile_chunkRegistry (m : MetadataFSM Slice) (req : CommandDeleteFile) :
    (m.handleCmdDeleteFile req).1.chunkRegistry = m.chunkRegistry := by
  unfold handleCmdDeleteFile
  cases m.getFile req.fileID <;> rfl

theorem handleCmdCreateRepairJob_chunkRegistry (m : MetadataFSM Slice)
    (req : CommandCreateRepairJob) :
    (m.handleCmdCreateRepairJob req).1.chunkRegistry = m.chunkRegistry := by
  unfold handleCmdCreateRepairJob
  split <;> rfl

theorem handleCmdUpdateRepairJob_chunkRegistry (m : MetadataFSM Slice)
    (req : CommandUpdateRepairJob) :
    (m.handleCmdUpdateRepairJob req).1.chunkRegistry = m.chunkRegistry := by
  unfold handleCmdUpdateRepairJob
  cases m.repairJobRegistry.lookup req.jobID <;> rfl

theorem handleCmdCreateFile_slices (m : MetadataFSM Slice) (req : CommandCreateFile) (cid : String)
    (ck : ChunkRecord Slice) (found : (m.handleCmdCreateFile req).1.chunkRegistry.lookup cid = some ck) :
    ck.replicas = default ∨ ∃ old, m.chunkRegistry.lookup cid = some old ∧
      old.replicas = ck.replicas := by
  unfold handleCmdCreateFile at found
  cases read : m.getFile req.fileID with
  | ok file =>
    rw [read] at found
    exact .inr ⟨ck, found, rfl⟩
  | error err =>
    simp only [read] at found
    split at found
    · exact .inr ⟨ck, found, rfl⟩
    · rcases lookup_insertChunks m.chunkRegistry (chunkStubs req) cid with
        ⟨record, member, _, stored⟩ | ⟨_, same⟩
      · cases stored.symm.trans found
        obtain ⟨entry, _, rfl⟩ := List.mem_map.mp member
        exact .inl rfl
      · exact .inr ⟨ck, same.symm.trans found, rfl⟩

theorem handleCmdMarkChunkLost_slices (m : MetadataFSM Slice) (req : CommandMarkChunkLost)
    (cid : String) (ck : ChunkRecord Slice)
    (found : (m.handleCmdMarkChunkLost req).1.chunkRegistry.lookup cid = some ck) :
    ∃ old, m.chunkRegistry.lookup cid = some old ∧ old.replicas = ck.replicas := by
  unfold handleCmdMarkChunkLost at found
  cases read : m.getChunk req.chunkID with
  | error err =>
    rw [read] at found
    exact ⟨ck, found, rfl⟩
  | ok chunk =>
    simp only [read, setChunk, GoMap.lookup_insert] at found
    split at found
    · rename_i here
      cases found
      exact ⟨chunk, by rw [here]; exact (getChunk_ok m).mp read, rfl⟩
    · exact ⟨ck, found, rfl⟩

theorem handleCmdCommitChunk_slicesFollow {st : HeapFSM} (wf : WellFormed st)
    (orders : Nat → MapOrder) (req : CommandCommitChunk) :
    ∃ moved, SlicesFollow st (st.handleCmdCommitChunk policy orders req).1 moved := by
  unfold handleCmdCommitChunk
  cases st.fsm.getChunk req.chunkID with
  | error err => exact ⟨"", slicesFollow_of_kept wf fun _ ck found => .inr ⟨ck, found, rfl⟩⟩
  | ok chunk =>
    dsimp only
    split
    · have fresh := (normalizeReplicaNodeIDs_spec policy st.heap st.fsm.nodeRegistry orders
        req.nodeIDs).1
      refine ⟨req.chunkID, slicesFollow_of_setChunk wf ?_ ⟨fresh.off, ?_⟩ (.inr (.inr fresh.array))⟩
      · rw [fresh.next]
        omega
      · change (normalizeReplicaNodeIDs policy _ _ _ _).2.array < _
        rw [fresh.array, fresh.next]
        omega
    · exact ⟨"", slicesFollow_of_kept wf fun _ ck found => .inr ⟨ck, found, rfl⟩⟩

theorem handleCmdEvictChunkFromNode_slicesFollow {st : HeapFSM} (wf : WellFormed st)
    (req : CommandEvictChunkFromNode) :
    ∃ moved, SlicesFollow st (st.handleCmdEvictChunkFromNode policy req).1 moved := by
  unfold handleCmdEvictChunkFromNode
  cases read : st.fsm.getChunk req.chunkID with
  | error err => exact ⟨"", slicesFollow_of_kept wf fun _ ck found => .inr ⟨ck, found, rfl⟩⟩
  | ok chunk =>
    dsimp only
    cases (st.heap.read chunk.replicas).findIdx? (· = req.nodeID) with
    | none => exact ⟨"", slicesFollow_of_kept wf fun _ ck found => .inr ⟨ck, found, rfl⟩⟩
    | some idx =>
      exact ⟨req.chunkID, slicesFollow_of_append policy wf ((getChunk_ok st.fsm).mp read) idx _⟩

theorem handleCmdAddChunkReplica_slicesFollow {st : HeapFSM} (wf : WellFormed st)
    (req : CommandAddChunkReplica) :
    ∃ moved, SlicesFollow st (st.handleCmdAddChunkReplica policy req).1 moved := by
  unfold handleCmdAddChunkReplica
  cases read : st.fsm.getChunk req.chunkID with
  | error err => exact ⟨"", slicesFollow_of_kept wf fun _ ck found => .inr ⟨ck, found, rfl⟩⟩
  | ok chunk =>
    dsimp only
    split
    · exact ⟨"", slicesFollow_of_kept wf fun _ ck found => .inr ⟨ck, found, rfl⟩⟩
    · have follow := slicesFollow_of_append policy wf ((getChunk_ok st.fsm).mp read)
        chunk.replicas.len [req.nodeID]
      rw [Slice.take_len] at follow
      exact ⟨req.chunkID, follow⟩

theorem decodeReplicas_wellFormed (records : List (String × ChunkRecord (List String)))
    (m : MetadataFSM Slice) (heap : Heap String) (registry : GoMap (ChunkRecord Slice))
    (wf : WellFormed ⟨{ m with chunkRegistry := registry }, heap⟩) :
    WellFormed ⟨{ m with chunkRegistry := (decodeReplicas policy records (heap, registry)).2 },
      (decodeReplicas policy records (heap, registry)).1⟩ := by
  induction records generalizing heap registry with
  | nil => exact wf
  | cons head rest ih =>
    obtain ⟨cid, ck⟩ := head
    have base := Heap.append_off policy heap (s := default) ck.replicas rfl
    have follow : SlicesFollow ⟨{ m with chunkRegistry := registry }, heap⟩
        ⟨setChunk { m with chunkRegistry := registry } cid
          { ck with replicas := (heap.append policy default ck.replicas).2 },
          (heap.append policy default ck.replicas).1⟩ cid := by
      rcases Heap.append_array policy heap default ck.replicas with
        ⟨array, next, cap⟩ | ⟨array, next⟩
      · have below : (heap.append policy default ck.replicas).2.array <
            (heap.append policy default ck.replicas).1.next := by
          rw [array, next]
          exact wf.nil
        exact slicesFollow_of_setChunk wf (le_of_eq next.symm) ⟨base, below⟩ (.inl cap)
      · have below : (heap.append policy default ck.replicas).2.array <
            (heap.append policy default ck.replicas).1.next := by
          rw [array, next]
          exact Nat.lt_succ_self _
        exact slicesFollow_of_setChunk wf (next ▸ Nat.le_succ _) ⟨base, below⟩ (.inr (.inr array))
    exact ih _ _ (follow.wellFormed wf)

theorem restore_wellFormed {st : HeapFSM} (wf : WellFormed st) (order : MapOrder)
    (document : SnapshotJson) : WellFormed (st.restore policy order document).1 := by
  unfold restore
  cases MetadataFSMSnapshot.unmarshal document with
  | error err => exact wf
  | ok snap =>
    have empty : WellFormed ⟨{ st.fsm with chunkRegistry := ∅ }, st.heap⟩ :=
      ⟨wf.nil, fun _ _ found => (nomatch found), fun _ _ _ _ found => (nomatch found)⟩
    have decoded := decodeReplicas_wellFormed policy (GoMap.range order snap.chunkRegistry) st.fsm
      st.heap ∅ empty
    simp only [deepCopy_eq]
    exact ⟨decoded.nil, decoded.allocated, decoded.apart⟩

theorem handle_slicesFollow {st : HeapFSM} (wf : WellFormed st) (orders : Nat → MapOrder)
    (cmd : Command) : ∃ moved, SlicesFollow st (st.handle policy orders cmd).1 moved := by
  cases cmd with
  | registerNode req => exact ⟨"", lift_slicesFollow wf (handleCmdRegisterNode_chunkRegistry _ req)⟩
  | deregisterNode req => exact ⟨"", lift_slicesFollow wf (updateNode_chunkRegistry _ _ _ _ _)⟩
  | markNodeDead req => exact ⟨"", lift_slicesFollow wf (updateNode_chunkRegistry _ _ _ _ _)⟩
  | markNodeAlive req => exact ⟨"", lift_slicesFollow wf (updateNode_chunkRegistry _ _ _ _ _)⟩
  | updateNodeSpace req => exact ⟨"", lift_slicesFollow wf (updateNode_chunkRegistry _ _ _ _ _)⟩
  | createFile req => exact ⟨"", slicesFollow_of_kept wf (handleCmdCreateFile_slices st.fsm req)⟩
  | commitFile req => exact ⟨"", lift_slicesFollow wf (handleCmdCommitFile_chunkRegistry _ req)⟩
  | deleteFile req => exact ⟨"", lift_slicesFollow wf (handleCmdDeleteFile_chunkRegistry _ req)⟩
  | commitChunk req => exact handleCmdCommitChunk_slicesFollow policy wf orders req
  | evictChunkFromNode req => exact handleCmdEvictChunkFromNode_slicesFollow policy wf req
  | markChunkLost req =>
    exact ⟨"", slicesFollow_of_kept wf fun cid ck found =>
      .inr (handleCmdMarkChunkLost_slices st.fsm req cid ck found)⟩
  | createRepairJob req =>
    exact ⟨"", lift_slicesFollow wf (handleCmdCreateRepairJob_chunkRegistry _ req)⟩
  | updateRepairJob req =>
    exact ⟨"", lift_slicesFollow wf (handleCmdUpdateRepairJob_chunkRegistry _ req)⟩
  | addChunkReplica req => exact handleCmdAddChunkReplica_slicesFollow policy wf req
  | registerMetadataNode req => exact ⟨"", lift_slicesFollow wf rfl⟩
  | deregisterMetadataNode req => exact ⟨"", lift_slicesFollow wf rfl⟩

end HeapFSM

end DistributedFs.Fsm
