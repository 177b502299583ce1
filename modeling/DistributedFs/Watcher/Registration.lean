import DistributedFs.Fsm.Registries
import DistributedFs.Watcher.NodeWatcher

namespace DistributedFs.Watcher

open Go Fsm Server MetadataFSM

/-- The states of a leader from `m` on, while its clock shows `t` or later: commands are applied
    and heartbeats arrive. -/
inductive Since (t : Time) (m : FSM) : FSM → Prop where
  | start : Since t m m
  | command {later : FSM} (before : Since t m later) (orders : Nat → MapOrder) (cmd : Command)
    (clock : ∀ req, cmd = .registerNode req → t ≤ req.createdAt) : Since t m (later.handle orders cmd).1
  | heartbeat {later : FSM} (before : Since t m later) (nodeID : String) (ts : Time) (clock : t ≤ ts) :
    Since t m (later.updateLastSeen nodeID ts).1

structure SeenSince (t : Time) (nodeID : String) (m : FSM) : Prop where
  keys : NodeKeys m
  seen : ∀ node, m.nodeRegistry.lookup nodeID = some node → t ≤ node.lastSeen

theorem SeenSince.later {t : Time} {nodeID : String} {m later : FSM} (seen : SeenSince t nodeID m)
    (since : Since t m later) : SeenSince t nodeID later := by
  induction since with
  | start => exact seen
  | command _ orders cmd clock ih =>
    refine ⟨handle_nodeKeys ih.keys orders cmd, ?_⟩
    intro node found
    cases handle_nodeOrigin ih.keys orders cmd found with
    | kept old present _ lastSeen =>
      rw [lastSeen]
      exact ih.seen old present
    | created req registers _ _ _ lastSeen =>
      rw [lastSeen]
      exact clock req registers
  | heartbeat _ id ts clock ih =>
    refine ⟨?_, ?_⟩
    · intro other node found
      obtain ⟨old, present, nodeID, _, _⟩ := lookup_updateLastSeen found
      exact nodeID.trans (ih.keys other old present)
    · intro node found
      obtain ⟨old, present, _, _, lastSeen⟩ := lookup_updateLastSeen found
      rw [lastSeen]
      split
      · exact clock
      · exact ih.seen old present

theorem sub_le_sub (now : Time) {t lastSeen : Time} (later : t ≤ lastSeen) :
    Time.sub now lastSeen ≤ Time.sub now t :=
  max_le_max le_rfl (min_le_min le_rfl (Int.sub_le_sub_left later now))

theorem sub_deadline {t timeout lastSeen : Int} (least : minDuration ≤ timeout)
    (shorter : timeout < maxDuration) (before : lastSeen < t) :
    Time.sub (t + timeout) t ≤ timeout ∧ timeout < Time.sub (t + timeout) lastSeen := by
  unfold Time.sub
  have deadline : t + timeout - t = timeout := by omega
  have overdue : timeout < t + timeout - lastSeen := by omega
  rw [deadline]
  exact ⟨max_le least (min_le_right _ _), lt_max_of_lt_right (lt_min shorter overdue)⟩

theorem SeenSince.spared {t now : Time} {nodeID : String} {m : FSM} (seen : SeenSince t nodeID m)
    {suspectTimeout : Duration} (recent : Time.sub now t ≤ suspectTimeout) (raft : RaftView)
    (order : MapOrder) :
    .markNodeDead ⟨nodeID, now⟩ ∉ sweep raft suspectTimeout m order now := by
  intro proposed
  cases leads : raft.isLeader with
  | false => simp [sweep, leads] at proposed
  | true =>
    obtain ⟨id, node, found, _, silent, own⟩ := (mem_sweep leads _ _ _ _).mp proposed
    have key := seen.keys id node found
    rw [own] at key
    subst key
    have bound := sub_le_sub now (seen.seen node found)
    exact absurd silent (Int.not_lt.mpr (bound.trans recent))

theorem register_known {m : FSM} (keys : NodeKeys m) (orders : Nat → MapOrder) {req : CommandRegisterNode}
    {node : NodeEntry} (found : m.nodeRegistry.lookup req.nodeID = some node) :
    ∃ again, (m.handle orders (.registerNode req)).1.nodeRegistry.lookup req.nodeID = some again ∧
      again.status = .alive ∧ again.lastSeen = node.lastSeen ∧ again.nodeID = req.nodeID := by
  have own := keys req.nodeID node found
  let again : NodeEntry := ⟨req.nodeID, req.address, .alive, req.freeSpace, req.chunkCount, node.lastSeen,
    node.registeredAt, req.createdAt⟩
  refine ⟨again, ?_, rfl, rfl, rfl⟩
  simp only [handle, handleCmdRegisterNode, (getNode_ok m).mpr found, storeNode, upsert, own]
  exact Finmap.lookup_insert (setNode m req.nodeID again).nodeRegistry

/-- After a registration at `t` no sweep within the timeout from `t` declares the node dead,
    exactly if the node was not known before, or was seen at `t` or later. -/
theorem registration_seen_iff {history : History} {m : FSM} (reached : Reached history m)
    (orders : Nat → MapOrder) (req : CommandRegisterNode) {suspectTimeout : Duration}
    (least : minDuration ≤ suspectTimeout) :
    (∀ later, Since req.createdAt (m.handle orders (.registerNode req)).1 later →
      ∀ raft order now, Time.sub now req.createdAt ≤ suspectTimeout →
        .markNodeDead ⟨req.nodeID, now⟩ ∉ sweep raft suspectTimeout later order now) ↔
    (∀ node, m.nodeRegistry.lookup req.nodeID = some node → req.createdAt ≤ node.lastSeen) ∨
      maxDuration ≤ suspectTimeout := by
  have keys := (reached_registryKeys reached).nodes
  constructor
  · intro spared
    by_contra silent
    rw [not_or, Int.not_le] at silent
    obtain ⟨unseen, shorter⟩ := silent
    apply unseen
    intro node found
    by_contra before
    obtain ⟨again, registered, alive, lastSeen, own⟩ := register_known keys orders found
    -- the sweep in the last moment of the timeout
    obtain ⟨inTime, overdue⟩ := sub_deadline least shorter (Int.not_le.mp before)
    rw [← lastSeen] at overdue
    refine spared _ .start ⟨true, ""⟩ default _ inTime ?_
    exact (mem_sweep rfl _ _ _ _).mpr ⟨req.nodeID, again, registered, alive, overdue, own⟩
  · intro condition later since raft order now recent
    rcases condition with seen | unlimited
    · have start : SeenSince req.createdAt req.nodeID (m.handle orders (.registerNode req)).1 := by
        refine ⟨handle_nodeKeys keys orders _, ?_⟩
        intro node found
        cases handle_nodeOrigin keys orders (.registerNode req) found with
        | kept old present _ lastSeen =>
          rw [lastSeen]
          exact seen old present
        | created own registers _ _ _ lastSeen =>
          cases registers
          exact le_of_eq lastSeen.symm
      exact (start.later since).spared recent raft order
    · intro proposed
      cases leads : raft.isLeader with
      | false => simp [sweep, leads] at proposed
      | true =>
        obtain ⟨_, node, _, _, silent, _⟩ := (mem_sweep leads _ _ _ _).mp proposed
        have longest : Time.sub now node.lastSeen ≤ maxDuration :=
          max_le (by decide) (min_le_left _ _)
        exact absurd silent (Int.not_lt.mpr (longest.trans unlimited))

def joinsAt (createdAt : Time) : CommandRegisterNode := ⟨"n1", "10.0.0.1:9000", 1000, 0, createdAt⟩

def diedAt : FSM :=
  (((newEmptyMetadataFsm.handle (fun _ => default) (.registerNode (joinsAt 1000))).1).handle
    (fun _ => default) (.markNodeDead ⟨"n1", 2000⟩)).1

theorem diedAt_reached : ∃ history, Reached history diedAt :=
  ⟨_, (Reached.empty.command (fun _ => default) (.registerNode (joinsAt 1000))).command (fun _ => default)
    (.markNodeDead ⟨"n1", 2000⟩)⟩

theorem registration_seen_iff_first : minDuration ≤ 30 ∧ ∀ later,
    Since 1000 (newEmptyMetadataFsm.handle (fun _ => default) (.registerNode (joinsAt 1000))).1 later →
      ∀ raft order now, Time.sub now 1000 ≤ 30 →
        .markNodeDead ⟨"n1", now⟩ ∉ sweep raft 30 later order now := by
  have least : minDuration ≤ 30 := by decide
  have seen := registration_seen_iff Reached.empty (fun _ => default) (joinsAt 1000) least
  exact ⟨least, seen.mpr (.inl fun _ found => (nomatch found))⟩

theorem dead_after_registration : (∃ history, Reached history diedAt) ∧ Time.sub 3001 3000 ≤ 30 ∧
    .markNodeDead ⟨"n1", 3001⟩ ∈ sweep ⟨true, ""⟩ 30
      (diedAt.handle (fun _ => default) (.registerNode (joinsAt 3000))).1 default 3001 := by
  refine ⟨diedAt_reached, by decide, ?_⟩
  refine (mem_sweep rfl _ _ _ _).mpr
    ⟨"n1", ⟨"n1", "10.0.0.1:9000", .alive, 1000, 0, 1000, 1000, 3000⟩, ?_, rfl, by decide, rfl⟩
  decide

end DistributedFs.Watcher
