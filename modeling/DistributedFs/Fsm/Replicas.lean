import DistributedFs.Fsm.Registries

namespace DistributedFs.Fsm

open Go MetadataFSM

theorem nodup_append_singleton {values : List String} {value : String} (distinct : values.Nodup)
    (absent : value ∉ values) : (values ++ [value]).Nodup := by
  rw [← List.concat_eq_append]
  exact distinct.concat absent

theorem normalizeLoop_nodup (nodes : GoMap NodeEntry) (orders : Nat → MapOrder)
    (rawIDs : List String) (k : Nat) (normalized seen : List String)
    (noted : ∀ id ∈ normalized, id ∈ seen) (distinct : normalized.Nodup) :
    (normalizeLoop nodes orders rawIDs k normalized seen).Nodup := by
  induction rawIDs generalizing k normalized seen with
  | nil => exact distinct
  | cons entry rest ih =>
    have append (id : String) (new : id ∉ seen) :
        (normalizeLoop nodes orders rest (k + 1) (normalized ++ [id]) (id :: seen)).Nodup := by
      apply ih
      · intro other member
        rcases List.mem_append.mp member with member | member
        · exact List.mem_cons_of_mem _ (noted other member)
        · cases List.mem_singleton.mp member
          exact List.mem_cons_self
      · exact nodup_append_singleton distinct fun member => new (noted id member)
    simp only [normalizeLoop]
    split
    · exact ih _ _ _ noted distinct
    · rename_i new
      split
      · exact append entry new
      · split
        · split
          · exact ih _ _ _ noted distinct
          · rename_i other
            exact append _ other
        · exact append entry new

theorem normalizeReplicaNodeIDs_nodup (nodes : GoMap NodeEntry) (orders : Nat → MapOrder)
    (rawIDs : List String) : (normalizeReplicaNodeIDs nodes orders rawIDs).Nodup :=
  normalizeLoop_nodup nodes orders rawIDs 0 [] [] (fun _ member => member) .nil

def ReplicaSets (m : FSM) : Prop :=
  ∀ cid chunk, m.chunkRegistry.lookup cid = some chunk → chunk.replicas.Nodup

theorem ReplicaSets.setChunk {m : FSM} (sets : ReplicaSets m) {cid : String}
    {later : ChunkRecord (List String)} (distinct : later.replicas.Nodup) :
    ReplicaSets (m.setChunk cid later) := by
  intro other chunk found
  simp only [MetadataFSM.setChunk, GoMap.lookup_insert] at found
  split at found
  · cases found
    exact distinct
  · exact sets other chunk found

theorem step_replicaSets {m after : FSM} {orders : Nat → MapOrder} {cmd : Command}
    {result : Option GoError} (sets : ReplicaSets m) (step : Step m orders cmd after result) :
    ReplicaSets after := by
  cases step with
  | failed | alreadyListed | nodes | jobs | mdNodes | commitFile | deleteFile => exact sets
  | createFile req newID fresh =>
    intro cid chunk found
    rcases lookup_created m req cid with ⟨index, _, stub⟩ | ⟨_, same⟩
    · cases stub.symm.trans found
      exact .nil
    · exact sets cid chunk (same.symm.trans found)
  | commitChunk req chunk found guard =>
    exact sets.setChunk (normalizeReplicaNodeIDs_nodup _ _ _)
  | evict req chunk idx found listed =>
    exact sets.setChunk ((sets _ chunk found).sublist (List.eraseIdx_sublist _ _))
  | markLost req chunk found => exact sets.setChunk (sets _ chunk found)
  | addReplica req chunk found absent =>
    exact sets.setChunk (nodup_append_singleton (sets _ chunk found) absent)

theorem reached_replicaSets {history : History} {m : FSM} (reached : Reached history m) :
    ReplicaSets m := by
  refine reached.files_and_chunks (P := fun _ m => ReplicaSets m) ?_ ?_ ?_
  · intro _ _ found
    cases found
  · exact fun _ _ _ sets => sets
  · exact fun _ _ _ _ _ _ sets step => step_replicaSets sets step

/-- No command carries the size of a chunk, so `Size` stays what a new record has. -/
theorem step_chunkSizes {m after : FSM} {orders : Nat → MapOrder} {cmd : Command}
    {result : Option GoError}
    (unsized : ∀ cid chunk, m.chunkRegistry.lookup cid = some chunk → chunk.size = 0)
    (step : Step m orders cmd after result) (cid : String) (chunk : ChunkRecord (List String))
    (found : after.chunkRegistry.lookup cid = some chunk) : chunk.size = 0 := by
  have edited (id : String) (later : ChunkRecord (List String))
      (found : (m.setChunk id later).chunkRegistry.lookup cid = some chunk) (same : later.size = 0) :
      chunk.size = 0 := by
    simp only [MetadataFSM.setChunk, GoMap.lookup_insert] at found
    split at found
    · cases found
      exact same
    · exact unsized cid chunk found
  cases step with
  | failed | alreadyListed | nodes | jobs | mdNodes | commitFile | deleteFile => exact unsized cid chunk found
  | createFile req newID fresh =>
    rcases lookup_created m req cid with ⟨index, _, stub⟩ | ⟨_, same⟩
    · cases stub.symm.trans found
      rfl
    · exact unsized cid chunk (same.symm.trans found)
  | commitChunk req old present | evict req old idx present | markLost req old present
  | addReplica req old present => exact edited _ _ found (unsized _ old present)

theorem reached_chunkSizes {history : History} {m : FSM} (reached : Reached history m) :
    ∀ cid chunk, m.chunkRegistry.lookup cid = some chunk → chunk.size = 0 := by
  refine reached.files_and_chunks
    (P := fun _ m => ∀ cid chunk, m.chunkRegistry.lookup cid = some chunk → chunk.size = 0) ?_ ?_ ?_
  · intro _ _ found
    cases found
  · exact fun _ _ _ unsized => unsized
  · exact fun _ _ _ _ _ _ unsized step => step_chunkSizes unsized step

theorem eraseIdx_eq_filter {values : List String} {value : String} {idx : Nat}
    (distinct : values.Nodup) (listed : values.findIdx? (· = value) = some idx) :
    values.eraseIdx idx = values.filter (· ≠ value) := by
  have erased : values.eraseP (· = value) = values.eraseIdx idx := by
    rw [List.eraseP_eq_eraseIdx, listed]
  have first : values.erase value = values.eraseP (· = value) := List.erase_eq_eraseP' value values
  rw [← erased, ← first, distinct.erase_eq_filter]
  apply List.filter_congr
  intro other _
  by_cases same : other = value <;> simp [same]

theorem liveEntries_filter {nodes : GoMap NodeEntry}
    (keys : ∀ id node, nodes.lookup id = some node → node.nodeID = id) (nodeID : String)
    (replicas : List String) :
    liveEntries nodes (replicas.filter (· ≠ nodeID)) =
      (liveEntries nodes replicas).filter fun node => node.nodeID ≠ nodeID := by
  induction replicas with
  | nil => rfl
  | cons id rest ih =>
    by_cases here : id = nodeID
    · -- the entry found under this id, if any, is dropped on the right as well
      rw [List.filter_cons_of_neg (by simp [here]), ih]
      simp only [liveEntries]
      cases found : nodes.lookup id with
      | none => rfl
      | some node =>
        have own : node.nodeID = nodeID := (keys id node found).trans here
        dsimp only
        split
        · rfl
        · rw [List.filter_cons_of_neg (by simp [own])]
    · rw [List.filter_cons_of_pos (by simp [here])]
      simp only [liveEntries]
      cases found : nodes.lookup id with
      | none => exact ih
      | some node =>
        have own : node.nodeID ≠ nodeID := by
          rw [keys id node found]
          exact here
        dsimp only
        split
        · exact ih
        · rw [List.filter_cons_of_pos (by simp [own]), ih]

theorem mem_getChunksByNode {m : FSM}
    (keys : ∀ cid chunk, m.chunkRegistry.lookup cid = some chunk → chunk.chunkID = cid)
    (order : MapOrder) (nodeID cid : String) :
    cid ∈ m.getChunksByNode order nodeID ↔
      ∃ chunk, m.chunkRegistry.lookup cid = some chunk ∧ nodeID ∈ chunk.replicas := by
  simp only [getChunksByNode, List.mem_map, List.mem_filter, Prod.exists, GoMap.mem_range,
    decide_eq_true_eq]
  constructor
  · intro held
    obtain ⟨key, chunk, ⟨found, listed⟩, named⟩ := held
    rw [keys key chunk found] at named
    exact ⟨chunk, named ▸ found, listed⟩
  · intro held
    obtain ⟨chunk, found, listed⟩ := held
    exact ⟨cid, chunk, ⟨found, listed⟩, keys cid chunk found⟩

theorem getChunkLocations_ok {m : FSM} {cid : String} {chunk : ChunkRecord (List String)}
    (found : m.chunkRegistry.lookup cid = some chunk) :
    m.getChunkLocations cid = .ok (liveEntries m.nodeRegistry chunk.replicas) := by
  simp only [getChunkLocations, getChunk, found]

theorem lookup_setChunk_self {ρ : Type} (m : MetadataFSM ρ) (cid : String) (later : ChunkRecord ρ) :
    (m.setChunk cid later).chunkRegistry.lookup cid = some later := by
  simp [setChunk]

theorem evict_accepted {m : FSM} (sets : ReplicaSets m) {orders : Nat → MapOrder}
    {req : CommandEvictChunkFromNode}
    (accepted : (m.handle orders (.evictChunkFromNode req)).2 = none) :
    ∃ chunk, m.chunkRegistry.lookup req.chunkID = some chunk ∧ req.nodeID ∈ chunk.replicas ∧
      (m.handle orders (.evictChunkFromNode req)).1 = m.setChunk req.chunkID
        { chunk with replicas := chunk.replicas.filter (· ≠ req.nodeID) } := by
  simp only [handle, handleCmdEvictChunkFromNode] at accepted ⊢
  cases read : m.getChunk req.chunkID with
  | error err => simp [read] at accepted
  | ok chunk =>
    have found := (getChunk_ok m).mp read
    simp only [read] at accepted ⊢
    cases listed : chunk.replicas.findIdx? (· = req.nodeID) with
    | none => simp [listed] at accepted
    | some idx =>
      refine ⟨chunk, found, mem_of_findIdx? listed, ?_⟩
      rw [← eraseIdx_eq_filter (sets _ chunk found) listed]

theorem addReplica_lists {m : FSM} (sets : ReplicaSets m) (orders : Nat → MapOrder)
    (req : CommandAddChunkReplica) {chunk : ChunkRecord (List String)}
    (found : m.chunkRegistry.lookup req.chunkID = some chunk) :
    (m.handle orders (.addChunkReplica req)).2 = none ∧ ∃ later,
      (m.handle orders (.addChunkReplica req)).1.chunkRegistry.lookup req.chunkID = some later ∧
        later.replicas.count req.nodeID = 1 := by
  have read := (getChunk_ok m).mpr found
  have distinct := sets _ chunk found
  simp only [handle, handleCmdAddChunkReplica, read]
  split
  · rename_i listed
    exact ⟨rfl, chunk, found, List.count_eq_one_of_mem distinct listed⟩
  · rename_i absent
    refine ⟨rfl, _, lookup_setChunk_self m _ _, ?_⟩
    exact List.count_eq_one_of_mem (nodup_append_singleton distinct absent) (by simp)

/-- The replica lists of every reached state are sets, the registries are keyed by the ids of
    their records, and both views of the replicas agree, before and after the commands that
    change one replica. -/
theorem replica_lists_are_sets {history : History} {m : FSM} (reached : Reached history m) :
    (∀ cid chunk, m.chunkRegistry.lookup cid = some chunk → chunk.replicas.Nodup) ∧
    RegistryKeys m ∧
    (∀ order nodeID cid, cid ∈ m.getChunksByNode order nodeID ↔
      ∃ chunk, m.chunkRegistry.lookup cid = some chunk ∧ nodeID ∈ chunk.replicas) ∧
    (∀ orders req, (m.handle orders (.evictChunkFromNode req)).2 = none →
      ∃ chunk locations, m.chunkRegistry.lookup req.chunkID = some chunk ∧
        m.getChunkLocations req.chunkID = .ok locations ∧
        (m.handle orders (.evictChunkFromNode req)).1 = m.setChunk req.chunkID
          { chunk with replicas := chunk.replicas.filter (· ≠ req.nodeID) } ∧
        (m.handle orders (.evictChunkFromNode req)).1.getChunkLocations req.chunkID =
          .ok (locations.filter fun node => node.nodeID ≠ req.nodeID)) ∧
    ∀ orders req chunk, m.chunkRegistry.lookup req.chunkID = some chunk →
      (m.handle orders (.addChunkReplica req)).2 = none ∧ ∃ later,
        (m.handle orders (.addChunkReplica req)).1.chunkRegistry.lookup req.chunkID = some later ∧
          later.replicas.count req.nodeID = 1 := by
  have sets := reached_replicaSets reached
  have keys := reached_registryKeys reached
  refine ⟨sets, keys, ?_, ?_, ?_⟩
  · intro order nodeID cid
    exact mem_getChunksByNode keys.chunks order nodeID cid
  · intro orders req accepted
    obtain ⟨chunk, found, _, after⟩ := evict_accepted sets accepted
    refine ⟨chunk, _, found, getChunkLocations_ok found, after, ?_⟩
    rw [after, getChunkLocations_ok (lookup_setChunk_self m _ _)]
    exact congrArg Except.ok (liveEntries_filter keys.nodes _ _)
  · intro orders req chunk found
    exact addReplica_lists sets orders req found

def mixedLog : List Command :=
  [.registerNode ⟨"n1", "10.0.0.1:9000", 1000, 0, 1⟩, .registerNode ⟨"n2", "10.0.0.2:9000", 1000, 0, 1⟩,
    .createFile ⟨"file-1", "a.bin", ["ck-1"], 5, 65536, [], 2⟩,
    .commitChunk ⟨"ck-1", ["n1", "10.0.0.1:9000", "10.0.0.2:9000", "n2", "spare"], [0xde, 0xad]⟩]

def mixedCommitted : FSM := (runLog (fun _ _ => default) newEmptyMetadataFsm mixedLog).1

theorem replica_lists_are_sets_mixed :
    mixedCommitted.chunkRegistry.lookup "ck-1" =
        some ⟨"ck-1", "file-1", 0, 0, [0xde, 0xad], ["n1", "n2", "spare"], .complete⟩ ∧
      ["n1", "n2", "spare"].Nodup ∧
      ∃ locations, mixedCommitted.getChunkLocations "ck-1" = .ok locations ∧
        (mixedCommitted.handle (fun _ => default) (.evictChunkFromNode ⟨"ck-1", "n1", 9, "moved"⟩)).1.getChunkLocations
          "ck-1" = .ok (locations.filter fun node => node.nodeID ≠ "n1") := by
  have stored : mixedCommitted.chunkRegistry.lookup "ck-1" =
      some ⟨"ck-1", "file-1", 0, 0, [0xde, 0xad], ["n1", "n2", "spare"], .complete⟩ := by decide
  have all := replica_lists_are_sets (Reached.empty.runLog (fun _ _ => default) mixedLog)
  obtain ⟨_, locations, _, before, _, after⟩ :=
    all.2.2.2.1 (fun _ => default) ⟨"ck-1", "n1", 9, "moved"⟩ (by decide)
  exact ⟨stored, all.1 "ck-1" _ stored, locations, before, after⟩

end DistributedFs.Fsm
