import DistributedFs.Fsm.HeapRefinement

namespace DistributedFs.Fsm

open Go MetadataFSM

namespace HeapFSM

variable (policy : GrowthPolicy)

def SameReads (frozen : GoMap (ChunkRecord Slice)) (heap later : Heap String) : Prop :=
  ∀ cid ck, frozen.lookup cid = some ck → later.read ck.replicas = heap.read ck.replicas

/-- The condition on a command, and on the state it meets, under which a snapshot taken
    earlier does not change. An eviction shifts the ids behind the evicted one to the left
    in place, and a replica added within the capacity is written behind the last id. Where
    the snapshot still reads the array of the chunk, either may write only ids that stand
    there already, or cells behind the ones the snapshot reads. -/
def LeavesSnapshot (snap : MetadataFSMSnapshot Slice) (st : HeapFSM) : Command → Prop
  | .evictChunkFromNode req =>
    ∀ chunk frozen idx, st.fsm.chunkRegistry.lookup req.chunkID = some chunk →
      snap.chunkRegistry.lookup req.chunkID = some frozen →
      frozen.replicas.array = chunk.replicas.array →
      (st.heap.read chunk.replicas).findIdx? (· = req.nodeID) = some idx →
      ∀ j, idx ≤ j → j + 1 < chunk.replicas.len → j < frozen.replicas.len →
        st.heap.cells chunk.replicas.array (j + 1) = st.heap.cells chunk.replicas.array j
  | .addChunkReplica req =>
    ∀ chunk frozen, st.fsm.chunkRegistry.lookup req.chunkID = some chunk →
      snap.chunkRegistry.lookup req.chunkID = some frozen →
      frozen.replicas.array = chunk.replicas.array →
      req.nodeID ∉ st.heap.read chunk.replicas →
      chunk.replicas.len < chunk.replicas.cap → chunk.replicas.len < frozen.replicas.len →
        req.nodeID = st.heap.cells chunk.replicas.array chunk.replicas.len
  | _ => True

theorem sameReads_append_iff {st : HeapFSM} {frozen : GoMap (ChunkRecord Slice)}
    (allocated : Allocated st.heap frozen) (apart : Apart frozen st.fsm.chunkRegistry)
    {cid : String} {chunk : ChunkRecord Slice}
    (found : st.fsm.chunkRegistry.lookup cid = some chunk) (n : Nat) (values : List String) :
    SameReads frozen st.heap (st.heap.append policy (chunk.replicas.take n) values).1 ↔
      ∀ ck, frozen.lookup cid = some ck → ck.replicas.array = chunk.replicas.array →
        (st.heap.append policy (chunk.replicas.take n) values).1.read ck.replicas =
          st.heap.read ck.replicas := by
  constructor
  · intro same ck stored _
    exact same cid ck stored
  · intro own other ck stored
    by_cases shared : 0 < ck.replicas.cap ∧ 0 < chunk.replicas.cap ∧
        ck.replicas.array = chunk.replicas.array
    · obtain ⟨cells, cells', same⟩ := shared
      have here : other = cid := apart other cid ck chunk stored found cells cells' same
      subst here
      exact own ck stored same
    · apply Heap.read_append_of_apart policy st.heap values (allocated other ck stored).2
      intro cells cells' same
      exact shared ⟨cells, cells', same⟩

theorem read_delete_eq_iff (heap : Heap String) {s t : Slice} {idx : Nat} (inside : idx < s.len)
    (base : s.off = 0) (base' : t.off = 0) (same : t.array = s.array) :
    (heap.append policy (s.take idx) (heap.read (s.drop (idx + 1)))).1.read t = heap.read t ↔
      ∀ j, idx ≤ j → j + 1 < s.len → j < t.len →
        heap.cells s.array (j + 1) = heap.cells s.array j := by
  have short : (s.take idx).len = idx := Nat.min_eq_left (Nat.le_of_lt inside)
  have room := s.room
  have fits : (s.take idx).len + (heap.read (s.drop (idx + 1))).length ≤ (s.take idx).cap := by
    rw [Heap.length_read, short]
    change idx + (s.len - (idx + 1)) ≤ s.cap
    omega
  rw [Heap.append_of_fits policy heap _ _ fits]
  change (heap.store s.array (s.off + (s.take idx).len) _).read t = _ ↔ _
  rw [← same, Heap.read_store_eq_iff, short, base, base']
  simp only [Nat.zero_add, Heap.getElem?_read, Slice.drop, base]
  constructor
  · intro unchanged j after behind seen
    have position : idx + 1 + (j - idx) = j + 1 := by omega
    have value := unchanged j seen after (heap.cells s.array (j + 1))
    rw [position, if_pos (by omega)] at value
    rw [same] at value ⊢
    exact value rfl
  · intro shifted j seen after value written
    have position : idx + 1 + (j - idx) = j + 1 := by omega
    rw [position] at written
    split at written
    · cases written
      rw [same] at shifted ⊢
      exact shifted j after (by omega) seen
    · cases written

theorem read_push_eq_iff (heap : Heap String) {s t : Slice} (value : String) (base : s.off = 0)
    (base' : t.off = 0) (same : t.array = s.array) (old : t.array < heap.next) :
    (heap.append policy s [value]).1.read t = heap.read t ↔
      (s.len < s.cap → s.len < t.len → value = heap.cells s.array s.len) := by
  by_cases fits : s.len + [value].length ≤ s.cap
  · rw [Heap.append_of_fits policy heap s [value] fits]
    change (heap.store s.array (s.off + s.len) [value]).read t = _ ↔ _
    rw [← same, Heap.read_store_eq_iff, base, base']
    simp only [Nat.zero_add]
    constructor
    · intro unchanged _ seen
      exact unchanged s.len seen le_rfl value (by simp)
    · intro written j seen behind stored at_j
      have last : j = s.len := by
        have bound := (List.getElem?_eq_some_iff.mp at_j).1
        rw [List.length_singleton] at bound
        omega
      subst last
      rw [Nat.sub_self] at at_j
      cases at_j
      exact written fits seen
  · have moved : (heap.append policy s [value]).1.read t = heap.read t := by
      rw [Heap.append, dif_neg fits]
      exact Heap.read_alloc_of_lt heap _ _ _ old
    exact iff_of_true moved fun room => absurd room fits

section

variable {st : HeapFSM} (wf : WellFormed st) {snap : MetadataFSMSnapshot Slice}
  (allocated : Allocated st.heap snap.chunkRegistry)
  (apart : Apart snap.chunkRegistry st.fsm.chunkRegistry)

include allocated in
theorem handleCmdCommitChunk_sameReads (orders : Nat → MapOrder) (req : CommandCommitChunk) :
    SameReads snap.chunkRegistry st.heap (st.handleCmdCommitChunk policy orders req).1.heap := by
  unfold handleCmdCommitChunk
  cases st.fsm.getChunk req.chunkID with
  | error err => exact fun _ _ _ => rfl
  | ok chunk =>
    dsimp only
    split
    · intro cid ck stored
      exact (normalizeReplicaNodeIDs_spec policy st.heap st.fsm.nodeRegistry orders
        req.nodeIDs).1.others ck.replicas (allocated cid ck stored).2
    · exact fun _ _ _ => rfl

include wf allocated apart

theorem handleCmdEvictChunkFromNode_sameReads_iff (req : CommandEvictChunkFromNode) :
    SameReads snap.chunkRegistry st.heap (st.handleCmdEvictChunkFromNode policy req).1.heap ↔
      LeavesSnapshot snap st (.evictChunkFromNode req) := by
  have same : SameReads snap.chunkRegistry st.heap st.heap := fun _ _ _ => rfl
  simp only [handleCmdEvictChunkFromNode, LeavesSnapshot]
  cases read : st.fsm.getChunk req.chunkID with
  | error err =>
    have absent := ((getChunk_error st.fsm).mp read).1
    exact iff_of_true same fun chunk frozen idx found =>
      absurd (absent.symm.trans found) (by simp)
  | ok chunk =>
    have found := (getChunk_ok st.fsm).mp read
    dsimp only
    cases listed : (st.heap.read chunk.replicas).findIdx? (· = req.nodeID) with
    | none =>
      refine iff_of_true same fun chunk' frozen idx found' _ _ listed' => ?_
      cases found.symm.trans found'
      exact absurd (listed.symm.trans listed') (by simp)
    | some idx =>
      have inside : idx < chunk.replicas.len := by
        have bound := (List.findIdx?_eq_some_iff_findIdx_eq.mp listed).1
        rwa [Heap.length_read] at bound
      dsimp only
      rw [sameReads_append_iff policy allocated apart found]
      have base := (wf.allocated _ chunk found).1
      constructor
      · intro own chunk' frozen idx' found' stored array listed'
        cases found.symm.trans found'
        cases listed.symm.trans listed'
        exact (read_delete_eq_iff policy st.heap inside base (allocated _ frozen stored).1 array).mp
          (own frozen stored array)
      · intro leaves ck stored array
        exact (read_delete_eq_iff policy st.heap inside base (allocated _ ck stored).1 array).mpr
          (leaves chunk ck idx found stored array listed)

theorem handleCmdAddChunkReplica_sameReads_iff (req : CommandAddChunkReplica) :
    SameReads snap.chunkRegistry st.heap (st.handleCmdAddChunkReplica policy req).1.heap ↔
      LeavesSnapshot snap st (.addChunkReplica req) := by
  have same : SameReads snap.chunkRegistry st.heap st.heap := fun _ _ _ => rfl
  simp only [handleCmdAddChunkReplica, LeavesSnapshot]
  cases read : st.fsm.getChunk req.chunkID with
  | error err =>
    have absent := ((getChunk_error st.fsm).mp read).1
    exact iff_of_true same fun chunk frozen found => absurd (absent.symm.trans found) (by simp)
  | ok chunk =>
    have found := (getChunk_ok st.fsm).mp read
    dsimp only
    split
    · rename_i listed
      refine iff_of_true same fun chunk' frozen found' _ _ absent => ?_
      cases found.symm.trans found'
      exact absurd listed absent
    · rename_i absent
      have own := sameReads_append_iff policy allocated apart found chunk.replicas.len [req.nodeID]
      rw [Slice.take_len] at own
      dsimp only
      rw [own]
      have base := (wf.allocated _ chunk found).1
      constructor
      · intro own chunk' frozen found' stored array _
        cases found.symm.trans found'
        have before := allocated _ frozen stored
        exact (read_push_eq_iff policy st.heap req.nodeID base before.1 array before.2).mp
          (own frozen stored array)
      · intro leaves ck stored array
        have before := allocated _ ck stored
        exact (read_push_eq_iff policy st.heap req.nodeID base before.1 array before.2).mpr
          (leaves chunk ck found stored array absent)

theorem handle_sameReads_iff (orders : Nat → MapOrder) (cmd : Command) :
    SameReads snap.chunkRegistry st.heap (st.handle policy orders cmd).1.heap ↔
      LeavesSnapshot snap st cmd := by
  cases cmd with
  | commitChunk req =>
    exact iff_of_true (handleCmdCommitChunk_sameReads policy allocated orders req) trivial
  | evictChunkFromNode req =>
    exact handleCmdEvictChunkFromNode_sameReads_iff policy wf allocated apart req
  | addChunkReplica req => exact handleCmdAddChunkReplica_sameReads_iff policy wf allocated apart req
  | _ =>
    -- the other handlers write no array
    exact iff_of_true (fun _ _ _ => rfl) trivial

end

theorem runLog_sameReads_iff {snap : MetadataFSMSnapshot Slice} {taken : Heap String}
    (log : List Command) (oracle : Nat → Nat → MapOrder) (st : HeapFSM) (wf : WellFormed st)
    (allocated : Allocated st.heap snap.chunkRegistry)
    (apart : Apart snap.chunkRegistry st.fsm.chunkRegistry)
    (same : SameReads snap.chunkRegistry taken st.heap) :
    (∀ n, SameReads snap.chunkRegistry taken (st.runLog policy oracle (log.take n)).1.heap) ↔
      Replication.EveryStep (fun i st cmd => handle policy st (oracle i) cmd) (LeavesSnapshot snap)
        st log := by
  induction log generalizing oracle st with
  | nil =>
    refine iff_of_true (fun n => ?_) trivial
    rw [List.take_nil]
    exact same
  | cons cmd rest ih =>
    obtain ⟨moved, follow⟩ := handle_slicesFollow policy wf (oracle 0) cmd
    have step := handle_sameReads_iff policy wf allocated apart (oracle 0) cmd
    have later := ih (fun i => oracle (i + 1)) (st.handle policy (oracle 0) cmd).1
      (follow.wellFormed wf)
      (fun cid ck stored => ⟨(allocated cid ck stored).1,
        lt_of_lt_of_le (allocated cid ck stored).2 follow.next⟩)
      (follow.apart_frozen allocated apart)
    constructor
    · intro always
      have after : SameReads snap.chunkRegistry taken (st.handle policy (oracle 0) cmd).1.heap :=
        always 1
      refine ⟨step.mp fun cid ck stored => ?_, (later after).mp fun n => always (n + 1)⟩
      exact (after cid ck stored).trans (same cid ck stored).symm
    · intro held n
      obtain ⟨leaves, every⟩ := held
      cases n with
      | zero => exact same
      | succ n =>
        refine (later fun cid ck stored => ?_).mpr every n
        exact (step.mpr leaves cid ck stored).trans (same cid ck stored)

theorem snapshot_persistAt (st : HeapFSM) (heap : Heap String) :
    st.fsm.snapshot.persistAt heap = (st.fsm.mapReplicas heap.read).snapshot.persist := by
  simp only [MetadataFSMSnapshot.persistAt, snapshot, deepCopy_eq, MetadataFSM.mapReplicas]

theorem restore_persistAt_eq_iff (st : HeapFSM) (later : Heap String) (target : FSM) :
    target.restore (st.fsm.snapshot.persistAt later) = (st.view.forgetLastSeen, none) ↔
      SameReads st.fsm.snapshot.chunkRegistry st.heap later := by
  have chunks : st.fsm.snapshot.chunkRegistry = st.fsm.chunkRegistry := deepCopy_eq _
  rw [snapshot_persistAt, restore_persist, chunks]
  constructor
  · intro rebuilt cid ck stored
    have records := congrArg (fun outcome : Outcome (List String) =>
      outcome.1.chunkRegistry.lookup cid) rebuilt
    simp only [forgetLastSeen, view, lookup_mapReplicas, stored, Option.map_some] at records
    exact congrArg ChunkRecord.replicas (Option.some.inj records)
  · intro same
    have registry : GoMap.mapValues (ChunkRecord.mapReplicas later.read) st.fsm.chunkRegistry =
        GoMap.mapValues (ChunkRecord.mapReplicas st.heap.read) st.fsm.chunkRegistry := by
      apply Finmap.ext_lookup
      intro cid
      simp only [GoMap.lookup_mapValues]
      cases stored : st.fsm.chunkRegistry.lookup cid with
      | none => rfl
      | some ck => simp only [Option.map_some, ChunkRecord.mapReplicas, same cid ck stored]
    simp only [forgetLastSeen, view, MetadataFSM.mapReplicas, registry]

/-- Snapshot isolation, and exactly when it holds: at whatever point of the log `Persist`
    runs, what it writes restores to the state the snapshot was taken of, if and only if
    every command applied in between leaves the snapshot alone. -/
theorem snapshot_isolated_iff {st : HeapFSM} (reached : Reached policy st)
    (oracle : Nat → Nat → MapOrder) (log : List Command) :
    (∀ (n : Nat) (target : FSM), target.restore
        (st.fsm.snapshot.persistAt (st.runLog policy oracle (log.take n)).1.heap) =
          (st.view.forgetLastSeen, none)) ↔
      Replication.EveryStep (fun i st cmd => handle policy st (oracle i) cmd)
        (LeavesSnapshot st.fsm.snapshot) st log := by
  have wf := reached.wellFormed
  have chunks : st.fsm.snapshot.chunkRegistry = st.fsm.chunkRegistry := deepCopy_eq _
  have start : SameReads st.fsm.snapshot.chunkRegistry st.heap st.heap := fun _ _ _ => rfl
  rw [← runLog_sameReads_iff policy log oracle st wf (chunks ▸ wf.allocated) (chunks ▸ wf.apart) start]
  constructor
  · intro rebuilt n
    exact (restore_persistAt_eq_iff st _ newEmptyMetadataFsm).mp (rebuilt n _)
  · intro same n target
    exact (restore_persistAt_eq_iff st _ target).mpr (same n)

def exactFit : GrowthPolicy := ⟨fun _ needed => needed, fun _ _ => le_rfl⟩

def threeReplicas : HeapFSM :=
  (newEmpty.runLog exactFit (fun _ _ => default)
    [.registerNode ⟨"n1", "10.0.0.1:9000", 1000, 0, 1⟩,
      .registerNode ⟨"n2", "10.0.0.2:9000", 1000, 0, 1⟩,
      .registerNode ⟨"n3", "10.0.0.3:9000", 1000, 0, 1⟩,
      .createFile ⟨"file-1", "notes.txt", ["ck-1"], 5, 65536, [], 2⟩,
      .commitChunk ⟨"ck-1", ["n1", "n2", "n3"], [0xab]⟩]).1

theorem threeReplicas_reached : Reached exactFit threeReplicas :=
  .command _ _ (.command _ _ (.command _ _ (.command _ _ (.command _ _ .empty))))

def evictFrom (nodeID : String) : Command := .evictChunkFromNode ⟨"ck-1", nodeID, 3, "node-dead"⟩

/-- The eviction of the first node shows in the snapshot taken before it: the array holds
    `n2, n3, n3`, and the snapshot still reads three cells. -/
theorem snapshot_not_isolated_evict_first :
    Reached exactFit threeReplicas ∧
    (threeReplicas.view.chunkRegistry.lookup "ck-1").map ChunkRecord.replicas =
      some ["n1", "n2", "n3"] ∧
    ((MetadataFSM.restore newEmptyMetadataFsm (threeReplicas.fsm.snapshot.persistAt
        (threeReplicas.handle exactFit (fun _ => default) (evictFrom "n1")).1.heap)).1.chunkRegistry.lookup
          "ck-1").map ChunkRecord.replicas = some ["n2", "n3", "n3"] := by
  refine ⟨threeReplicas_reached, by decide, ?_⟩
  rw [snapshot_persistAt, restore_persist]
  decide

theorem snapshot_isolated_iff_evict_last :
    MetadataFSM.restore newEmptyMetadataFsm (threeReplicas.fsm.snapshot.persistAt
        (threeReplicas.runLog exactFit (fun _ _ => default) [evictFrom "n3"]).1.heap) =
      (threeReplicas.view.forgetLastSeen, none) := by
  refine (snapshot_isolated_iff exactFit threeReplicas_reached (fun _ _ => default)
    [evictFrom "n3"]).mpr ⟨?_, trivial⟩ 1 newEmptyMetadataFsm
  intro chunk frozen idx found _ _ listed j behind inside
  have known : threeReplicas.fsm.chunkRegistry.lookup "ck-1" = some
      ⟨"ck-1", "file-1", 0, 0, [0xab], ⟨1, 0, 3, 3, le_rfl⟩, .complete⟩ := by decide
  cases known.symm.trans found
  have last : some 2 = some idx := by
    rw [← listed]
    decide
  cases last
  change j + 1 < 3 at inside
  omega

end HeapFSM

end DistributedFs.Fsm
