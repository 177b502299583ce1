import DistributedFs.Fsm.Visibility

namespace DistributedFs.Server

open Go Fsm MetadataFSM

def getChunkLocations (raft : RaftView) (m : FSM) (chunkId : String) : Except RpcError (List NodeInfo) :=
  if raft.isLeader = false then .error (leaderRedirect raft m)
  else
    match m.getChunkLocations chunkId with
    | .error err =>
      if err = errChunkNotFound then
        .error { code := .notFound, message := "chunk not found: " ++ chunkId }
      else .error { code := .internal, message := "error fetching chunk locations: " ++ err.text }
    | .ok nodes => .ok (nodes.map nodeInfo)

theorem mem_liveEntries (nodes : GoMap NodeEntry) (replicas : List String) (node : NodeEntry) :
    node ∈ liveEntries nodes replicas ↔
      ∃ id ∈ replicas, nodes.lookup id = some node ∧ node.status ≠ .dead := by
  induction replicas with
  | nil => simp [liveEntries]
  | cons id rest ih =>
    cases found : nodes.lookup id with
    | none => simp [liveEntries, found, ih]
    | some entry =>
      by_cases dead : entry.status = .dead
      · simp only [liveEntries, found, dead, if_true, ih, List.mem_cons, exists_eq_or_imp,
          Option.some.injEq]
        constructor
        · exact .inr
        · intro held
          rcases held with ⟨rfl, alive⟩ | held
          · exact absurd dead alive
          · exact held
      · simp only [liveEntries, found, dead, if_false, ih, List.mem_cons, exists_eq_or_imp,
          Option.some.injEq]
        constructor
        · intro held
          rcases held with rfl | held
          · exact .inl ⟨rfl, dead⟩
          · exact .inr held
        · intro held
          rcases held with ⟨rfl, _⟩ | held
          · exact .inl rfl
          · exact .inr held

/-- The loop of `GetFile` leaves out more than the one of `GetChunkLocations`. -/
theorem resolveAddrs_eq (nodes : GoMap NodeEntry) (replicas : List String) :
    resolveAddrs nodes replicas =
      ((liveEntries nodes replicas).filter fun node => node.status ≠ .draining ∧ node.address ≠ "").map
        NodeEntry.address := by
  induction replicas with
  | nil => rfl
  | cons id rest ih =>
    simp only [resolveAddrs, liveEntries]
    cases nodes.lookup id with
    | none => exact ih
    | some node =>
      dsimp only
      by_cases dead : node.status = .dead
      · rw [if_pos (.inl dead), if_pos dead]
        exact ih
      · rw [if_neg dead]
        by_cases draining : node.status = .draining
        · rw [if_pos (.inr draining), List.filter_cons_of_neg (by simp [draining])]
          exact ih
        · rw [if_neg (by simp [dead, draining])]
          by_cases unnamed : node.address = ""
          · rw [if_neg (by simp [unnamed]), List.filter_cons_of_neg (by simp [unnamed])]
            exact ih
          · rw [if_pos unnamed, List.filter_cons_of_pos (by simp [draining, unnamed]), List.map_cons, ih]

def Reachable (m : FSM) (chunk : ChunkRecord (List String)) : Prop :=
  ∀ id ∈ chunk.replicas, ∀ node, m.nodeRegistry.lookup id = some node → node.status ≠ .dead →
    node.status ≠ .draining ∧ node.address ≠ ""

theorem resolveAddrs_eq_locations_iff (m : FSM) (chunk : ChunkRecord (List String)) :
    resolveAddrs m.nodeRegistry chunk.replicas =
      (liveEntries m.nodeRegistry chunk.replicas).map NodeEntry.address ↔ Reachable m chunk := by
  rw [resolveAddrs_eq]
  constructor
  · intro same id listed node found alive
    have full := congrArg List.length same
    rw [List.length_map, List.length_map, List.length_filter_eq_length_iff] at full
    exact of_decide_eq_true (full node ((mem_liveEntries _ _ node).mpr ⟨id, listed, found, alive⟩))
  · intro reachable
    have all : (liveEntries m.nodeRegistry chunk.replicas).filter (fun node =>
        node.status ≠ .draining ∧ node.address ≠ "") = liveEntries m.nodeRegistry chunk.replicas := by
      rw [List.filter_eq_self]
      intro node member
      obtain ⟨id, listed, found, alive⟩ := (mem_liveEntries _ _ node).mp member
      exact decide_eq_true (reachable id listed node found alive)
    rw [all]

theorem getChunkLocations_found {raft : RaftView} {m : FSM} (leads : raft.isLeader = true) {cid : String}
    {chunk : ChunkRecord (List String)} (stored : m.chunkRegistry.lookup cid = some chunk) :
    getChunkLocations raft m cid = .ok ((liveEntries m.nodeRegistry chunk.replicas).map nodeInfo) := by
  have read := (getChunk_ok m).mpr stored
  simp [getChunkLocations, leads, MetadataFSM.getChunkLocations, read]

theorem getFile_found {raft : RaftView} {m : FSM} (leads : raft.isLeader = true) {fileID : String}
    {file : FileRecord} (found : m.fileIndex.lookup fileID = some file) (complete : file.status = .complete)
    {chunks : List (ChunkRecord (List String))} (collected : collectChunks m.chunkRegistry file.chunkIDs = .ok chunks) :
    getFile raft m fileID =
      .ok { file := fileInfo file, chunks := chunks.map (chunkInfo m.nodeRegistry) } := by
  have read := (getFile_ok m).mpr found
  simp [getFile, leads, read, complete, getFileChunks, collected]

/-- For a chunk of a complete file the leader's two reads give the same addresses in the same
    order exactly if the chunk lists no draining node and no running one without an address. -/
theorem location_reads_agree_iff {history : History} {m : FSM} (reached : Reached history m)
    {raft : RaftView} (leads : raft.isLeader = true) {fileID : String} {file : FileRecord}
    (found : m.fileIndex.lookup fileID = some file) (complete : file.status = .complete) {cid : String}
    (member : cid ∈ file.chunkIDs) :
    ∃ response nodes chunk, getFile raft m fileID = .ok response ∧
      getChunkLocations raft m cid = .ok nodes ∧ m.chunkRegistry.lookup cid = some chunk ∧
      (∃ info ∈ response.chunks, info.chunkId = cid) ∧
      ((∀ info ∈ response.chunks, info.chunkId = cid → info.replicas = nodes.map NodeInfo.address) ↔
        Reachable m chunk) := by
  have intact := reached_integrity reached
  have present (id : String) (listed : id ∈ file.chunkIDs) : ∃ ck, m.chunkRegistry.lookup id = some ck := by
    obtain ⟨chunk, stored, _⟩ := intact.chunkOfFile fileID file found id listed
    exact ⟨chunk, stored⟩
  obtain ⟨chunks, collected⟩ := collectChunks_ok m.chunkRegistry file.chunkIDs present
  obtain ⟨chunk, stored⟩ := present cid member
  have key := intact.chunkKey cid chunk stored
  -- the records that were read under this id are all the one that is stored there
  have only (ck : ChunkRecord (List String)) (listed : ck ∈ chunks) (named : ck.chunkID = cid) : ck = chunk := by
    obtain ⟨id, _, read⟩ := (mem_collectChunks collected ck).mp listed
    have own := intact.chunkKey id ck read
    rw [← own, named] at read
    exact Option.some.inj (read.symm.trans stored)
  have included : chunk ∈ chunks := (mem_collectChunks collected chunk).mpr ⟨cid, member, stored⟩
  have addresses : ((liveEntries m.nodeRegistry chunk.replicas).map nodeInfo).map NodeInfo.address =
      (liveEntries m.nodeRegistry chunk.replicas).map NodeEntry.address := by
    rw [List.map_map]
    rfl
  refine ⟨_, _, chunk, getFile_found leads found complete collected, getChunkLocations_found leads stored, stored,
    ⟨chunkInfo m.nodeRegistry chunk, List.mem_map_of_mem included, key⟩, ?_⟩
  rw [addresses, ← resolveAddrs_eq_locations_iff]
  constructor
  · intro agree
    exact agree _ (List.mem_map_of_mem included) key
  · intro same info listed named
    obtain ⟨ck, inside, rfl⟩ := List.mem_map.mp listed
    rw [only ck inside named]
    exact same

def leaderView : RaftView := ⟨true, "10.0.0.9:7000"⟩

theorem location_reads_agree_iff_notes :
    ∃ response nodes, getFile leaderView notesStored.1 "file-1" = .ok response ∧
      getChunkLocations leaderView notesStored.1 "ck-1" = .ok nodes ∧
      ∀ info ∈ response.chunks, info.chunkId = "ck-1" → info.replicas = nodes.map NodeInfo.address := by
  have found : notesStored.1.fileIndex.lookup "file-1" =
      some ⟨"file-1", "notes.txt", 5, 65536, [], ["ck-1"], .complete, 2, 0⟩ := by decide
  have stored : notesStored.1.chunkRegistry.lookup "ck-1" =
      some ⟨"ck-1", "file-1", 0, 0, [0xab], ["n1"], .complete⟩ := by decide
  have registered : notesStored.1.nodeRegistry.lookup "n1" =
      some ⟨"n1", "10.0.0.1:9000", .alive, 1000, 0, 1, 1, 1⟩ := by decide
  have leads : leaderView.isLeader = true := rfl
  have member : "ck-1" ∈ ["ck-1"] := List.mem_singleton_self _
  obtain ⟨response, nodes, chunk, served, located, same, _, agree⟩ :=
    location_reads_agree_iff (Reached.empty.runLog (fun _ _ => default) notesLog) leads found rfl member
  cases stored.symm.trans same
  refine ⟨response, nodes, served, located, agree.mpr ?_⟩
  intro id listed node present _
  cases List.mem_singleton.mp listed
  cases registered.symm.trans present
  decide

/-- The only node of the chunk shuts down: its handler has marked it, and not yet evicted it. -/
def notesDraining : FSM := (notesStored.1.handle (fun _ => default) (.deregisterNode ⟨"n1", 5⟩)).1

theorem draining_replica_hidden :
    Reached ((notesLog.zip notesStored.2) ++ [(.deregisterNode ⟨"n1", 5⟩, none)]) notesDraining ∧
    ((getFile leaderView notesDraining "file-1").toOption.map fun response =>
      response.chunks.map fun info => (info.chunkId, info.replicas)) = some [("ck-1", [])] ∧
    ((getChunkLocations leaderView notesDraining "ck-1").toOption.map fun nodes =>
      nodes.map NodeInfo.address) = some ["10.0.0.1:9000"] := by
  refine ⟨?_, by decide, by decide⟩
  exact (Reached.empty.runLog (fun _ _ => default) notesLog).command (fun _ => default) (.deregisterNode ⟨"n1", 5⟩)

end DistributedFs.Server
