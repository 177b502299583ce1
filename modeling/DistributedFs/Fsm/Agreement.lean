import DistributedFs.Fsm.Run

namespace DistributedFs.Fsm

open Go MetadataFSM

def UniqueAddress (nodes : GoMap NodeEntry) (entry : String) : Prop :=
  ∀ id node id' node', nodes.lookup id = some node → nodes.lookup id' = some node' →
    node.address = entry → node'.address = entry → node.nodeID = node'.nodeID

/-- The condition on a step under which map iteration order cannot show: a commit that
    is going to be accepted names nodes by id, or by an address that no two nodes share. -/
def OrderFree (m : FSM) : Command → Prop
  | .commitChunk req =>
    ∀ chunk, m.chunkRegistry.lookup req.chunkID = some chunk →
      chunk.checksum = [] → chunk.status ≠ .complete →
      ∀ entry ∈ req.nodeIDs, entry ∉ m.nodeRegistry → UniqueAddress m.nodeRegistry entry
  | _ => True

theorem scanAddress_spec (entry : String) (nodes : List (String × NodeEntry)) :
    (∃ key node, (key, node) ∈ nodes ∧ node.address = entry ∧ scanAddress entry nodes = node.nodeID) ∨
      ((∀ key node, (key, node) ∈ nodes → node.address ≠ entry) ∧ scanAddress entry nodes = "") := by
  induction nodes with
  | nil => exact .inr ⟨by simp, rfl⟩
  | cons head rest ih =>
    obtain ⟨key, node⟩ := head
    simp only [scanAddress]
    by_cases here : node.address = entry
    · exact .inl ⟨key, node, by simp, here, if_pos here⟩
    · rw [if_neg here]
      rcases ih with ⟨key', node', member, same, found⟩ | ⟨absent, found⟩
      · exact .inl ⟨key', node', List.mem_cons_of_mem _ member, same, found⟩
      · refine .inr ⟨?_, found⟩
        intro key' node' member
        rcases List.mem_cons.mp member with same | member
        · cases same
          exact here
        · exact absent key' node' member

theorem scanAddress_order_free {nodes : GoMap NodeEntry} {entry : String}
    (unique : UniqueAddress nodes entry) (order order' : MapOrder) :
    scanAddress entry (GoMap.range order nodes) = scanAddress entry (GoMap.range order' nodes) := by
  rcases scanAddress_spec entry (GoMap.range order nodes) with
    ⟨key, node, member, same, found⟩ | ⟨absent, found⟩ <;>
  rcases scanAddress_spec entry (GoMap.range order' nodes) with
    ⟨key', node', member', same', found'⟩ | ⟨absent', found'⟩
  · rw [found, found']
    rw [GoMap.mem_range] at member member'
    exact unique key node key' node' member member' same same'
  · rw [GoMap.mem_range, ← GoMap.mem_range order'] at member
    exact absurd same (absent' key node member)
  · rw [GoMap.mem_range, ← GoMap.mem_range order] at member'
    exact absurd same' (absent key' node' member')
  · rw [found, found']

theorem normalizeLoop_order_free {nodes : GoMap NodeEntry} (orders orders' : Nat → MapOrder)
    {rawIDs : List String}
    (unique : ∀ entry ∈ rawIDs, entry ∉ nodes → UniqueAddress nodes entry) (k : Nat)
    (normalized seen : List String) :
    normalizeLoop nodes orders rawIDs k normalized seen =
      normalizeLoop nodes orders' rawIDs k normalized seen := by
  induction rawIDs generalizing k normalized seen with
  | nil => rfl
  | cons entry rest ih =>
    have later := ih fun other member => unique other (List.mem_cons_of_mem _ member)
    simp only [normalizeLoop, later]
    split
    · rfl
    · split
      · rfl
      · rename_i unknown
        rw [scanAddress_order_free (unique entry (by simp) unknown) (orders k) (orders' k)]

theorem handle_order_free {m : FSM} {cmd : Command} (free : OrderFree m cmd)
    (orders orders' : Nat → MapOrder) : m.handle orders cmd = m.handle orders' cmd := by
  cases cmd with
  | commitChunk req =>
    simp only [handle, handleCmdCommitChunk]
    cases found : m.getChunk req.chunkID with
    | error err => rfl
    | ok chunk =>
      dsimp only
      split
      · rename_i guard
        have unique := free chunk ((getChunk_ok m).mp found)
          (List.length_eq_zero_iff.mp guard.1) guard.2
        rw [normalizeReplicaNodeIDs, normalizeLoop_order_free orders orders' unique]
        rfl
      · rfl
  | _ => rfl

/-- Two replicas that apply one log, each with its own map iteration orders, agree on
    the registries and on every result, if every commit of the log is order-free. -/
theorem replicas_agree (oracle oracle' : Nat → Nat → MapOrder) (log : List Command)
    (free : Replication.EveryStep (fun i m cmd => handle m (oracle i) cmd) OrderFree
      newEmptyMetadataFsm log) :
    runLog oracle newEmptyMetadataFsm log = runLog oracle' newEmptyMetadataFsm log := by
  have agree : (runLog oracle newEmptyMetadataFsm log).1 = (runLog oracle' newEmptyMetadataFsm log).1 ∧
      (runLog oracle newEmptyMetadataFsm log).2 = (runLog oracle' newEmptyMetadataFsm log).2 := by
    refine Replication.run_simulation (R := Eq) ?_ rfl free
    intro i s _ cmd free same
    subst same
    rw [handle_order_free free (oracle i) (oracle' i)]
    exact ⟨rfl, rfl⟩
  exact Prod.ext agree.1 agree.2

def visiting (key : String) : MapOrder where
  keys s := if key ∈ s then key :: (s.erase key).sort (· ≤ ·) else s.sort (· ≤ ·)
  perm s := by
    split
    · rename_i member
      rw [← Multiset.cons_coe, Finset.sort_eq, Finset.erase_val, Multiset.cons_erase member]
    · exact s.sort_eq (· ≤ ·)

def twoNodeLog (address confirmed : String) : List Command :=
  [.registerNode ⟨"n1", "10.0.0.1:9000", 1000, 0, 1⟩,
    .registerNode ⟨"n2", address, 1000, 0, 2⟩,
    .createFile ⟨"file-1", "notes.txt", ["ck-1"], 5, 65536, [], 3⟩,
    .commitChunk ⟨"ck-1", [confirmed], [0xab]⟩]

/-- A storage node whose disk was replaced comes back at its old address under a new id,
    and the registry keeps both. -/
def replacedNodeLog : List Command := twoNodeLog "10.0.0.1:9000" "10.0.0.1:9000"

theorem replicas_disagree_shared_address :
    let first := runLog (fun _ _ => visiting "n1") newEmptyMetadataFsm replacedNodeLog
    let second := runLog (fun _ _ => visiting "n2") newEmptyMetadataFsm replacedNodeLog
    (first.1.chunkRegistry.lookup "ck-1").map ChunkRecord.replicas = some ["n1"] ∧
      (second.1.chunkRegistry.lookup "ck-1").map ChunkRecord.replicas = some ["n2"] ∧
      first ≠ second := by
  intro first second
  have stored : (first.1.chunkRegistry.lookup "ck-1").map ChunkRecord.replicas = some ["n1"] := by
    decide
  have stored' : (second.1.chunkRegistry.lookup "ck-1").map ChunkRecord.replicas = some ["n2"] := by
    decide
  refine ⟨stored, stored', ?_⟩
  intro same
  rw [same, stored'] at stored
  exact absurd stored (by decide)

theorem replicas_agree_own_address :
    runLog (fun _ _ => visiting "n1") newEmptyMetadataFsm
        (twoNodeLog "10.0.0.2:9000" "10.0.0.2:9000") =
      runLog (fun _ _ => visiting "n2") newEmptyMetadataFsm
        (twoNodeLog "10.0.0.2:9000" "10.0.0.2:9000") := by
  apply replicas_agree
  refine ⟨trivial, trivial, trivial, ?_, trivial⟩
  intro chunk _ _ _ entry member _
  cases List.mem_singleton.mp member
  intro id node id' node' found found' same same'
  let nodes : GoMap NodeEntry :=
    ((∅ : GoMap NodeEntry).insert "n1" ⟨"n1", "10.0.0.1:9000", .alive, 1000, 0, 1, 1, 1⟩).insert
      "n2" ⟨"n2", "10.0.0.2:9000", .alive, 1000, 0, 2, 2, 2⟩
  have second (id : String) (node : NodeEntry) (found : nodes.lookup id = some node)
      (same : node.address = "10.0.0.2:9000") : node.nodeID = "n2" := by
    simp only [nodes, GoMap.lookup_insert] at found
    split at found
    · cases found
      rfl
    · split at found
      · cases found
        exact absurd same (by decide)
      · cases found
  exact (second id node found same).trans (second id' node' found' same').symm

end DistributedFs.Fsm
