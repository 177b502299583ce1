import DistributedFs.Fsm.HeapHandlers

namespace DistributedFs.Fsm

open Go MetadataFSM

section MapReplicas

variable {ρ ρ' : Type} (f : ρ → ρ') (m : MetadataFSM ρ)

def Outcome.mapReplicas (outcome : Outcome ρ) : Outcome ρ' :=
  (outcome.1.mapReplicas f, outcome.2)

theorem lookup_mapReplicas (cid : String) :
    (m.mapReplicas f).chunkRegistry.lookup cid =
      (m.chunkRegistry.lookup cid).map (ChunkRecord.mapReplicas f) :=
  GoMap.lookup_mapValues _ _ _

theorem getChunk_mapReplicas (cid : String) :
    (m.mapReplicas f).getChunk cid = (m.getChunk cid).map (ChunkRecord.mapReplicas f) := by
  simp only [getChunk, lookup_mapReplicas]
  cases m.chunkRegistry.lookup cid <;> rfl

theorem setChunk_mapReplicas (cid : String) (ck : ChunkRecord ρ) :
    (m.setChunk cid ck).mapReplicas f = (m.mapReplicas f).setChunk cid (ck.mapReplicas f) := by
  simp only [MetadataFSM.mapReplicas, setChunk, GoMap.mapValues_insert]

theorem updateNode_mapReplicas (label nodeID : String) (updatedAt : Time)
    (change : NodeEntry → NodeEntry) :
    (m.mapReplicas f).updateNode label nodeID updatedAt change =
      Outcome.mapReplicas f (m.updateNode label nodeID updatedAt change) := by
  simp only [updateNode, getNode, MetadataFSM.mapReplicas]
  cases m.nodeRegistry.lookup nodeID <;> rfl

theorem handleCmdRegisterNode_mapReplicas (req : CommandRegisterNode) :
    (m.mapReplicas f).handleCmdRegisterNode req =
      Outcome.mapReplicas f (m.handleCmdRegisterNode req) := by
  simp only [handleCmdRegisterNode, getNode, MetadataFSM.mapReplicas]
  cases m.nodeRegistry.lookup req.nodeID <;> rfl

theorem insertChunks_mapReplicas (registry : GoMap (ChunkRecord ρ))
    (records : List (ChunkRecord ρ)) :
    (insertChunks registry records).mapValues (ChunkRecord.mapReplicas f) =
      insertChunks (registry.mapValues (ChunkRecord.mapReplicas f))
        (records.map (ChunkRecord.mapReplicas f)) := by
  induction records generalizing registry with
  | nil => rfl
  | cons record rest ih =>
    change (insertChunks (registry.insert _ record) rest).mapValues _ = _
    rw [ih, GoMap.mapValues_insert]
    rfl

theorem chunkStubs_mapReplicas [Inhabited ρ] [Inhabited ρ'] (nil : f default = default)
    (req : CommandCreateFile) :
    (chunkStubs (ρ := ρ) req).map (ChunkRecord.mapReplicas f) = chunkStubs req := by
  simp only [chunkStubs, List.map_map]
  congr 1
  funext entry
  simp [chunkStub, ChunkRecord.mapReplicas, nil]

theorem mem_mapReplicas (cid : String) :
    cid ∈ (m.mapReplicas f).chunkRegistry ↔ cid ∈ m.chunkRegistry := by
  rw [← Finmap.mem_keys, ← Finmap.mem_keys, MetadataFSM.mapReplicas, GoMap.keys_mapValues]

theorem handleCmdCreateFile_mapReplicas [Inhabited ρ] [Inhabited ρ'] (nil : f default = default)
    (req : CommandCreateFile) :
    (m.mapReplicas f).handleCmdCreateFile req =
      Outcome.mapReplicas f (m.handleCmdCreateFile req) := by
  have read : (m.mapReplicas f).getFile req.fileID = m.getFile req.fileID := rfl
  have collides : ((chunkStubs (ρ := ρ') req).any fun val =>
        decide (val.chunkID ∈ (m.mapReplicas f).chunkRegistry)) =
      (chunkStubs (ρ := ρ) req).any fun val => decide (val.chunkID ∈ m.chunkRegistry) := by
    rw [← chunkStubs_mapReplicas f nil req, List.any_map]
    congr 1
    funext val
    exact decide_eq_decide.mpr (mem_mapReplicas f m val.chunkID)
  simp only [handleCmdCreateFile, read, collides]
  cases m.getFile req.fileID with
  | ok file => rfl
  | error err =>
    dsimp only
    split
    · rfl
    · simp only [Outcome.mapReplicas, MetadataFSM.mapReplicas, insertChunks_mapReplicas,
        chunkStubs_mapReplicas f nil]

theorem validateChunks_mapReplicas (registry : GoMap (ChunkRecord ρ)) (ids : List String) :
    validateChunks (registry.mapValues (ChunkRecord.mapReplicas f)) ids =
      validateChunks registry ids := by
  induction ids with
  | nil => rfl
  | cons cid rest ih =>
    simp only [validateChunks, GoMap.lookup_mapValues, ih]
    cases registry.lookup cid <;> rfl

theorem handleCmdCommitFile_mapReplicas (req : CommandCommitFile) :
    (m.mapReplicas f).handleCmdCommitFile req =
      Outcome.mapReplicas f (m.handleCmdCommitFile req) := by
  have read : (m.mapReplicas f).getFile req.fileID = m.getFile req.fileID := rfl
  have valid (ids : List String) : validateChunks (m.mapReplicas f).chunkRegistry ids =
      validateChunks m.chunkRegistry ids := validateChunks_mapReplicas f m.chunkRegistry ids
  simp only [handleCmdCommitFile, read, valid]
  cases m.getFile req.fileID with
  | error err => rfl
  | ok file =>
    dsimp only
    split
    · rfl
    · cases validateChunks m.chunkRegistry file.chunkIDs <;> rfl

theorem handleCmdDeleteFile_mapReplicas (req : CommandDeleteFile) :
    (m.mapReplicas f).handleCmdDeleteFile req =
      Outcome.mapReplicas f (m.handleCmdDeleteFile req) := by
  simp only [handleCmdDeleteFile, getFile, MetadataFSM.mapReplicas]
  cases m.fileIndex.lookup req.fileID <;> rfl

theorem handleCmdMarkChunkLost_mapReplicas (req : CommandMarkChunkLost) :
    (m.mapReplicas f).handleCmdMarkChunkLost req =
      Outcome.mapReplicas f (m.handleCmdMarkChunkLost req) := by
  simp only [handleCmdMarkChunkLost, getChunk_mapReplicas]
  cases m.getChunk req.chunkID with
  | error err => rfl
  | ok chunk =>
    simp only [Outcome.mapReplicas, setChunk_mapReplicas]
    rfl

theorem handleCmdCreateRepairJob_mapReplicas (req : CommandCreateRepairJob) :
    (m.mapReplicas f).handleCmdCreateRepairJob req =
      Outcome.mapReplicas f (m.handleCmdCreateRepairJob req) := by
  by_cases present : req.jobID ∈ m.repairJobRegistry
  · simp only [handleCmdCreateRepairJob, MetadataFSM.mapReplicas, present, if_true]
    rfl
  · simp only [handleCmdCreateRepairJob, MetadataFSM.mapReplicas, present, if_false]
    rfl

theorem handleCmdUpdateRepairJob_mapReplicas (req : CommandUpdateRepairJob) :
    (m.mapReplicas f).handleCmdUpdateRepairJob req =
      Outcome.mapReplicas f (m.handleCmdUpdateRepairJob req) := by
  simp only [handleCmdUpdateRepairJob, MetadataFSM.mapReplicas]
  cases m.repairJobRegistry.lookup req.jobID <;> rfl

end MapReplicas

namespace HeapFSM

variable (policy : GrowthPolicy)

/-- The array of `normalized` is made with room for every entry, so no append moves it. -/
theorem normalizeLoop_spec (nodes : GoMap NodeEntry) (orders : Nat → MapOrder)
    (rawIDs : List String) (k : Nat) (heap : Heap String) (s : Slice) (seen : List String)
    (fits : s.len + rawIDs.length ≤ s.cap) :
    heap.GrewInPlace s (normalizeLoop policy nodes orders rawIDs k (heap, s) seen).1
        (normalizeLoop policy nodes orders rawIDs k (heap, s) seen).2 ∧
      (normalizeLoop policy nodes orders rawIDs k (heap, s) seen).1.read
          (normalizeLoop policy nodes orders rawIDs k (heap, s) seen).2 =
        MetadataFSM.normalizeLoop nodes orders rawIDs k (heap.read s) seen := by
  induction rawIDs generalizing k heap s seen with
  | nil => exact ⟨.refl heap s, rfl⟩
  | cons entry rest ih =>
    rw [List.length_cons] at fits
    have skip := ih (k + 1) heap s seen (by omega)
    have push (value : String) :
        heap.GrewInPlace s
            (normalizeLoop policy nodes orders rest (k + 1) (heap.append policy s [value])
              (value :: seen)).1
            (normalizeLoop policy nodes orders rest (k + 1) (heap.append policy s [value])
              (value :: seen)).2 ∧
          (normalizeLoop policy nodes orders rest (k + 1) (heap.append policy s [value])
              (value :: seen)).1.read
            (normalizeLoop policy nodes orders rest (k + 1) (heap.append policy s [value])
              (value :: seen)).2 =
          MetadataFSM.normalizeLoop nodes orders rest (k + 1) (heap.read s ++ [value])
            (value :: seen) := by
      have one : s.len + [value].length ≤ s.cap := by
        rw [List.length_singleton]
        omega
      have written := Heap.read_append policy heap s [value]
      have grew := Heap.append_grewInPlace policy heap s [value] one
      have longer : (heap.append policy s [value]).2.len = s.len + 1 := by
        rw [← Heap.length_read (heap.append policy s [value]).1, written, List.length_append,
          Heap.length_read, List.length_singleton]
      have later := ih (k + 1) (heap.append policy s [value]).1 (heap.append policy s [value]).2
        (value :: seen) (by rw [longer, grew.cap]; omega)
      rw [written] at later
      exact ⟨grew.trans later.1, later.2⟩
    simp only [normalizeLoop, MetadataFSM.normalizeLoop]
    split
    · exact skip
    · split
      · exact push entry
      · split
        · split
          · exact skip
          · exact push _
        · exact push entry

structure Fresh (heap : Heap String) (grown : Heap String × Slice) : Prop where
  array : grown.2.array = heap.next
  off : grown.2.off = 0
  next : grown.1.next = heap.next + 1
  others : ∀ t : Slice, t.array < heap.next → grown.1.read t = heap.read t

theorem normalizeReplicaNodeIDs_spec (heap : Heap String) (nodes : GoMap NodeEntry)
    (orders : Nat → MapOrder) (rawIDs : List String) :
    Fresh heap (normalizeReplicaNodeIDs policy heap nodes orders rawIDs) ∧
      (normalizeReplicaNodeIDs policy heap nodes orders rawIDs).1.read
          (normalizeReplicaNodeIDs policy heap nodes orders rawIDs).2 =
        MetadataFSM.normalizeReplicaNodeIDs nodes orders rawIDs := by
  obtain ⟨grew, written⟩ := normalizeLoop_spec policy nodes orders rawIDs 0
    (heap.make rawIDs.length).1 (heap.make rawIDs.length).2 [] (by simp [Heap.make, Heap.alloc])
  refine ⟨⟨grew.array, grew.off, grew.next, ?_⟩, ?_⟩
  · intro t old
    have other : t.array ≠ (heap.make rawIDs.length).2.array := Nat.ne_of_lt old
    exact (grew.others t other).trans (Heap.read_alloc_of_lt heap _ _ _ old)
  · have empty : (heap.make rawIDs.length).1.read (heap.make rawIDs.length).2 = [] :=
      Heap.read_alloc heap [] _ _
    rw [empty] at written
    exact written

end HeapFSM

end DistributedFs.Fsm
