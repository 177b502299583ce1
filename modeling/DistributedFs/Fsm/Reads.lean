import DistributedFs.Fsm.Handlers

namespace DistributedFs.Fsm

open Go

def RepairStatus.active : RepairStatus → Bool
  | .pending | .inProgress => true
  | .done | .failed | .other .. => false

namespace MetadataFSM

variable {ρ : Type}

def collectChunks (registry : GoMap (ChunkRecord ρ)) :
    List String → Except GoError (List (ChunkRecord ρ))
  | [] => .ok []
  | cid :: rest =>
    match registry.lookup cid with
    | none => .error errChunkNotFound
    | some ck => (collectChunks registry rest).map (ck :: ·)

def getFileChunks (m : MetadataFSM ρ) (fileID : String) : Except GoError (List (ChunkRecord ρ)) :=
  match m.getFile fileID with
  | .error err => .error err
  | .ok file => collectChunks m.chunkRegistry file.chunkIDs

def liveEntries (nodes : GoMap NodeEntry) : List String → List NodeEntry
  | [] => []
  | nodeID :: rest =>
    match nodes.lookup nodeID with
    | none => liveEntries nodes rest
    | some node =>
      if node.status = .dead then liveEntries nodes rest else node :: liveEntries nodes rest

def getChunkLocations (m : FSM) (chunkID : String) : Except GoError (List NodeEntry) :=
  match m.getChunk chunkID with
  | .error err => .error err
  | .ok chunk => .ok (liveEntries m.nodeRegistry chunk.replicas)

def getChunksByNode (m : FSM) (order : MapOrder) (nodeID : String) : List String :=
  ((m.chunkRegistry.range order).filter fun entry => nodeID ∈ entry.2.replicas).map
    fun entry => entry.2.chunkID

def getLiveNodes (m : MetadataFSM ρ) (order : MapOrder) : List NodeEntry :=
  ((m.nodeRegistry.range order).filter fun entry => entry.2.status = .alive).map Prod.snd

def getAllNodes (m : MetadataFSM ρ) (order : MapOrder) : List NodeEntry :=
  (m.nodeRegistry.range order).map Prod.snd

theorem mem_getAllNodes (m : MetadataFSM ρ) (order : MapOrder) (node : NodeEntry) :
    node ∈ m.getAllNodes order ↔ ∃ id, m.nodeRegistry.lookup id = some node := by
  simp only [getAllNodes, List.mem_map, Prod.exists, exists_eq_right, GoMap.mem_range]

/-- `ListFiles`: the files whose names begin with `start`, sorted by name. The sort is not
    stable; files of one name stand in the order of the map loop. -/
def listFiles (m : MetadataFSM ρ) (order : MapOrder) (start : String) : List FileRecord :=
  (((m.fileIndex.range order).map Prod.snd).filter fun file =>
      start.toList <+: file.filename.toList).mergeSort fun first second =>
    decide (first.filename ≤ second.filename)

theorem lookup_of_mem_listFiles {m : MetadataFSM ρ} {order : MapOrder} {start : String}
    {file : FileRecord} (member : file ∈ m.listFiles order start) :
    ∃ id, m.fileIndex.lookup id = some file := by
  simp only [listFiles, List.mem_mergeSort, List.mem_filter, List.mem_map, Prod.exists,
    exists_eq_right, GoMap.mem_range] at member
  exact member.1

def getRepairJob (m : MetadataFSM ρ) (jobID : String) : Except GoError RepairJob :=
  match m.repairJobRegistry.lookup jobID with
  | some job => .ok job
  | none => .error errJobNotFound

def getJobsByStatus (m : MetadataFSM ρ) (order : MapOrder) (status : RepairStatus) : List RepairJob :=
  ((m.repairJobRegistry.range order).map Prod.snd).filter fun job => job.status = status

theorem mem_getJobsByStatus (m : MetadataFSM ρ) (order : MapOrder) (status : RepairStatus)
    (job : RepairJob) : job ∈ m.getJobsByStatus order status ↔
      (∃ id, m.repairJobRegistry.lookup id = some job) ∧ job.status = status := by
  simp only [getJobsByStatus, List.mem_filter, List.mem_map, Prod.exists, exists_eq_right,
    GoMap.mem_range, decide_eq_true_eq]

/-- No caller in the source: the scheduler asks its own filter instead. -/
def hasActiveRepairForChunkTarget (m : MetadataFSM ρ) (order : MapOrder) (chunkID targetNodeID : String) :
    Bool :=
  (m.repairJobRegistry.range order).any fun entry =>
    entry.2.chunkID = chunkID ∧ entry.2.targetNodeID = targetNodeID ∧ entry.2.status.active = true

theorem hasActiveRepairForChunkTarget_iff (m : MetadataFSM ρ) (order : MapOrder)
    (chunkID targetNodeID : String) : m.hasActiveRepairForChunkTarget order chunkID targetNodeID = true ↔
      ∃ id job, m.repairJobRegistry.lookup id = some job ∧ job.chunkID = chunkID ∧
        job.targetNodeID = targetNodeID ∧ job.status.active = true := by
  simp only [hasActiveRepairForChunkTarget, List.any_eq_true, Prod.exists, GoMap.mem_range,
    decide_eq_true_eq]

/-- Called by the heartbeat handler, outside the Raft log. -/
def updateLastSeen (m : MetadataFSM ρ) (nodeID : String) (ts : Time) : Outcome ρ :=
  match m.nodeRegistry.lookup nodeID with
  | none => (m, some errNodeNotFound)
  | some node => (m.setNode nodeID { node with lastSeen := ts }, none)

theorem updateLastSeen_nodes_only (m : MetadataFSM ρ) (nodeID : String) (ts : Time) :
    ∃ registry, (m.updateLastSeen nodeID ts).1 = { m with nodeRegistry := registry } := by
  unfold updateLastSeen
  cases m.nodeRegistry.lookup nodeID with
  | none => exact ⟨m.nodeRegistry, rfl⟩
  | some node => exact ⟨_, rfl⟩

theorem collectChunks_ok (registry : GoMap (ChunkRecord ρ)) (ids : List String)
    (present : ∀ cid ∈ ids, ∃ ck, registry.lookup cid = some ck) :
    ∃ chunks, collectChunks registry ids = .ok chunks := by
  induction ids with
  | nil => exact ⟨[], rfl⟩
  | cons cid rest ih =>
    obtain ⟨ck, found⟩ := present cid (by simp)
    obtain ⟨chunks, collected⟩ := ih fun other member => present other (by simp [member])
    exact ⟨ck :: chunks, by simp [collectChunks, found, collected, Except.map]⟩

theorem collectChunks_found {registry : GoMap (ChunkRecord ρ)} {ids : List String}
    {chunks : List (ChunkRecord ρ)} (collected : collectChunks registry ids = .ok chunks) :
    List.Forall₂ (fun cid ck => registry.lookup cid = some ck) ids chunks := by
  induction ids generalizing chunks with
  | nil =>
    cases collected
    exact .nil
  | cons cid rest ih =>
    simp only [collectChunks] at collected
    split at collected
    · cases collected
    · rename_i ck found
      cases later : collectChunks registry rest with
      | error err =>
        rw [later] at collected
        cases collected
      | ok others =>
        rw [later] at collected
        cases collected
        exact .cons found (ih later)

theorem mem_collectChunks {registry : GoMap (ChunkRecord ρ)} {ids : List String} {chunks : List (ChunkRecord ρ)}
    (collected : collectChunks registry ids = .ok chunks) (ck : ChunkRecord ρ) :
    ck ∈ chunks ↔ ∃ cid ∈ ids, registry.lookup cid = some ck := by
  have read := collectChunks_found collected
  clear collected
  induction read with
  | nil => simp
  | cons found _ ih =>
    simp only [List.mem_cons, exists_eq_or_imp, ih, found, Option.some.injEq]
    exact or_congr_left eq_comm

end MetadataFSM

end DistributedFs.Fsm
