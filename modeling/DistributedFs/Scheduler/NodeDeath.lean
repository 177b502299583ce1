import DistributedFs.Scheduler.Runs

namespace DistributedFs.Scheduler

open Go Fsm MetadataFSM Healing Healing.Prog Concurrency Placement

def liveIDs (m : FSM) (chunkID : String) : List String :=
  match m.getChunkLocations chunkID with
  | .error _ => []
  | .ok live => live.map NodeEntry.nodeID

def spareNodes (m : FSM) (chunkID : String) : List NodeEntry :=
  (m.getLiveNodes default).filter fun node => node.nodeID ∉ (replicasOf m chunkID).getD []

def RepairFrom (m : FSM) (chunkID targetNodeID : String) (sources : List String) : Prop :=
  ∃ id job, m.repairJobRegistry.lookup id = some job ∧ job.status.active = true ∧
    job.chunkID = chunkID ∧ job.targetNodeID = targetNodeID ∧ job.sourceNodeID ∈ sources

/-- A chunk that has a live location and enough other alive nodes has an active job from a
    live location for every missing replica, with different alive targets. -/
def EnoughRepairs (replicationFactor : Int) (m : FSM) (chunkID : String) : Prop :=
  liveIDs m chunkID ≠ [] →
    replicationFactor - (liveIDs m chunkID).length ≤ (spareNodes m chunkID).length →
      ∃ targets : List String, targets.Nodup ∧
        replicationFactor - (liveIDs m chunkID).length ≤ targets.length ∧
        ∀ target ∈ targets, statusOf m target = some .alive ∧
          RepairFrom m chunkID target (liveIDs m chunkID)

theorem liveEntries_ids {m : FSM}
    (keys : ∀ id node, m.nodeRegistry.lookup id = some node → node.nodeID = id) (replicas : List String) :
    (liveEntries m.nodeRegistry replicas).map NodeEntry.nodeID =
      replicas.filter fun id => (statusOf m id).any (· ≠ .dead) := by
  induction replicas with
  | nil => rfl
  | cons id rest ih =>
    cases found : m.nodeRegistry.lookup id with
    | none =>
      have status : statusOf m id = none := by simp [statusOf, found]
      simpa [liveEntries, found, status] using ih
    | some node =>
      have status : statusOf m id = some node.status := by simp [statusOf, found]
      have own := keys id node found
      by_cases dead : node.status = .dead
      · simpa [liveEntries, found, status, dead] using ih
      · simpa [liveEntries, found, status, dead, own] using ih

theorem liveIDs_eq {m : FSM}
    (keys : ∀ id node, m.nodeRegistry.lookup id = some node → node.nodeID = id) (chunkID : String) :
    liveIDs m chunkID =
      ((replicasOf m chunkID).getD []).filter fun id => (statusOf m id).any (· ≠ .dead) := by
  simp only [liveIDs, getChunkLocations, getChunk, replicasOf]
  cases m.chunkRegistry.lookup chunkID with
  | none => rfl
  | some chunk => exact liveEntries_ids keys chunk.replicas

theorem mem_liveNodes {m : FSM}
    (keys : ∀ id node, m.nodeRegistry.lookup id = some node → node.nodeID = id) (order : MapOrder)
    (id : String) :
    id ∈ (m.getLiveNodes order).map NodeEntry.nodeID ↔ statusOf m id = some .alive := by
  simp only [getLiveNodes, statusOf, List.mem_map, List.mem_filter, Prod.exists, GoMap.mem_range,
    decide_eq_true_eq, Option.map_eq_some_iff]
  constructor
  · intro held
    obtain ⟨node, ⟨key, _, ⟨found, alive⟩, rfl⟩, rfl⟩ := held
    rw [keys key _ found]
    exact ⟨_, found, alive⟩
  · intro held
    obtain ⟨node, found, alive⟩ := held
    exact ⟨node, ⟨id, node, ⟨found, alive⟩, rfl⟩, keys id node found⟩

theorem liveNodes_nodup {m : FSM}
    (keys : ∀ id node, m.nodeRegistry.lookup id = some node → node.nodeID = id) (order : MapOrder) :
    ((m.getLiveNodes order).map NodeEntry.nodeID).Nodup :=
  (GoMap.range_ids_nodup order keys).sublist ((List.filter_sublist.map _).map _)

theorem mem_spareNodes {m : FSM}
    (keys : ∀ id node, m.nodeRegistry.lookup id = some node → node.nodeID = id) (chunkID id : String) :
    id ∈ (spareNodes m chunkID).map NodeEntry.nodeID ↔
      statusOf m id = some .alive ∧ id ∉ (replicasOf m chunkID).getD [] := by
  rw [← mem_liveNodes keys default]
  simp only [spareNodes, List.mem_map, List.mem_filter, decide_eq_true_eq]
  constructor
  · intro held
    obtain ⟨node, ⟨alive, free⟩, rfl⟩ := held
    exact ⟨⟨node, alive, rfl⟩, free⟩
  · intro held
    obtain ⟨⟨node, alive, rfl⟩, free⟩ := held
    exact ⟨node, ⟨alive, free⟩, rfl⟩

theorem spareNodes_length_le {m : FSM}
    (keys : ∀ id node, m.nodeRegistry.lookup id = some node → node.nodeID = id) (chunkID : String)
    {nodes : List NodeEntry} (inside : ∀ id, statusOf m id = some .alive →
      id ∉ (replicasOf m chunkID).getD [] → id ∈ nodes.map NodeEntry.nodeID) :
    (spareNodes m chunkID).length ≤ nodes.length := by
  have distinct : ((spareNodes m chunkID).map NodeEntry.nodeID).Nodup :=
    (liveNodes_nodup keys default).sublist (List.filter_sublist.map _)
  have covered : (spareNodes m chunkID).map NodeEntry.nodeID ⊆ nodes.map NodeEntry.nodeID := by
    intro id member
    obtain ⟨alive, free⟩ := (mem_spareNodes keys chunkID id).mp member
    exact inside id alive free
  simpa only [List.length_map] using (List.subperm_of_subset distinct covered).length_le

/-- What a chunk's repairs depend on: the statuses of the nodes, its replica list, and that
    its active jobs stay active with their source and target. -/
structure KeptFor (chunkID : String) (m later : FSM) : Prop where
  statuses : ∀ id, statusOf later id = statusOf m id
  replicas : replicasOf later chunkID = replicasOf m chunkID
  jobs : ∀ id job, m.repairJobRegistry.lookup id = some job → job.status.active = true →
    job.chunkID = chunkID → ∃ now, later.repairJobRegistry.lookup id = some now ∧
      now.status.active = true ∧ now.chunkID = chunkID ∧ now.sourceNodeID = job.sourceNodeID ∧
      now.targetNodeID = job.targetNodeID

theorem KeptFor.refl (chunkID : String) (m : FSM) : KeptFor chunkID m m :=
  ⟨fun _ => rfl, rfl, fun _ job found active chunk => ⟨job, found, active, chunk, rfl, rfl⟩⟩

section Kept

variable {chunkID : String} {m mid later : FSM}

theorem KeptFor.trans (first : KeptFor chunkID m mid) (second : KeptFor chunkID mid later) :
    KeptFor chunkID m later where
  statuses id := (second.statuses id).trans (first.statuses id)
  replicas := second.replicas.trans first.replicas
  jobs id job found active chunk := by
    obtain ⟨between, found, active, chunk, source, target⟩ := first.jobs id job found active chunk
    obtain ⟨now, found, active, chunk, source', target'⟩ := second.jobs id between found active chunk
    exact ⟨now, found, active, chunk, source'.trans source, target'.trans target⟩

theorem KeptFor.repairFrom (kept : KeptFor chunkID m later) {target : String} {sources : List String}
    (repair : RepairFrom m chunkID target sources) : RepairFrom later chunkID target sources := by
  obtain ⟨id, job, found, active, chunk, aimed, source⟩ := repair
  obtain ⟨now, found, active, chunk, same, same'⟩ := kept.jobs id job found active chunk
  exact ⟨id, now, found, active, chunk, same'.trans aimed, same ▸ source⟩

variable (keys : RegistryKeys m) (laterKeys : RegistryKeys later)

include keys laterKeys

theorem KeptFor.liveIDs (kept : KeptFor chunkID m later) : liveIDs later chunkID = liveIDs m chunkID := by
  rw [liveIDs_eq keys.nodes, liveIDs_eq laterKeys.nodes, kept.replicas]
  simp only [kept.statuses]

theorem KeptFor.spareNodes_le_candidates (kept : KeptFor chunkID m later) (order : MapOrder)
    {live : List NodeEntry} (located : live.map NodeEntry.nodeID = Scheduler.liveIDs m chunkID) :
    (spareNodes later chunkID).length ≤ (candidates (m.getLiveNodes order) 0 live).length := by
  apply spareNodes_length_le laterKeys.nodes
  intro id alive free
  rw [kept.statuses] at alive
  rw [kept.replicas] at free
  obtain ⟨node, listed, rfl⟩ := List.mem_map.mp ((mem_liveNodes keys.nodes order id).mpr alive)
  have elsewhere : node.nodeID ∉ live.map NodeEntry.nodeID := by
    rw [located, liveIDs_eq keys.nodes]
    exact fun held => free (List.mem_filter.mp held).1
  apply List.mem_map_of_mem
  simp only [candidates, filterByMinSpace, filterNodes, le_refl, if_true, List.mem_filter,
    decide_eq_true_eq]
  exact ⟨listed, elsewhere⟩

theorem KeptFor.enoughRepairs (kept : KeptFor chunkID m later) {replicationFactor : Int}
    (enough : EnoughRepairs replicationFactor m chunkID) : EnoughRepairs replicationFactor later chunkID := by
  have spares : (spareNodes later chunkID).length ≤ (spareNodes m chunkID).length := by
    apply spareNodes_length_le laterKeys.nodes
    intro id alive free
    rw [kept.statuses] at alive
    rw [kept.replicas] at free
    exact (mem_spareNodes keys.nodes chunkID id).mpr ⟨alive, free⟩
  unfold EnoughRepairs at enough ⊢
  rw [kept.liveIDs keys laterKeys]
  intro located missing
  obtain ⟨targets, distinct, length, each⟩ := enough located (by omega)
  refine ⟨targets, distinct, length, ?_⟩
  intro target member
  obtain ⟨alive, repair⟩ := each target member
  exact ⟨(kept.statuses target).trans alive, kept.repairFrom repair⟩

end Kept

/-- What others leave alone while the chunks of a node are repaired: they do not list the node
    again, and they keep what the repairs of its chunks depend on. -/
structure Calm (deadNodeID : String) (chunks : List String) (m later : FSM) : Prop where
  kept : ∀ chunkID ∈ chunks, KeptFor chunkID m later
  unlisted : ∀ chunkID, Lists later chunkID deadNodeID → Lists m chunkID deadNodeID

theorem Calm.refl (deadNodeID : String) (chunks : List String) (m : FSM) : Calm deadNodeID chunks m m :=
  ⟨fun chunkID _ => .refl chunkID m, fun _ listed => listed⟩

theorem Calm.trans {deadNodeID : String} {chunks : List String} {m mid later : FSM}
    (first : Calm deadNodeID chunks m mid) (second : Calm deadNodeID chunks mid later) :
    Calm deadNodeID chunks m later :=
  ⟨fun chunkID member => (first.kept chunkID member).trans (second.kept chunkID member),
    fun chunkID listed => first.unlisted chunkID (second.unlisted chunkID listed)⟩

def Backed (s : System) : Label → Prop
  | .pendingKey key => key ∈ s.pendingJobsSet → ∀ chunkID target, key = chunkID ++ ":" ++ target →
      statusOf s.fsm target = some .alive → liveIDs s.fsm chunkID ≠ [] →
        RepairFrom s.fsm chunkID target (liveIDs s.fsm chunkID)
  | _ => True

def repairing (deadNodeID : String) (chunks : List String) : Setting System Label Label.Result where
  exec label s result after := Exec label s result after ∧ Answered label result ∧ Backed s label
  promise _ _ _ _ := True
  rely s later := (∃ history, Reached history s.fsm) →
    (∃ history, Reached history later.fsm) ∧ Calm deadNodeID chunks s.fsm later.fsm
  refl s reached := ⟨reached, .refl deadNodeID chunks s.fsm⟩
  trans first second reached := by
    obtain ⟨reached, calm⟩ := first reached
    obtain ⟨reached, calm'⟩ := second reached
    exact ⟨reached, calm.trans calm'⟩

/-- How far the loop of `TriggerRepair` is: the node is off the lists of the cleared chunks,
    and the repaired ones have the jobs they need. -/
structure Progress (replicationFactor : Int) (deadNodeID : String) (chunks cleared repaired : List String)
    (m : FSM) : Prop where
  reached : ∃ history, Reached history m
  left : ∀ chunkID, Lists m chunkID deadNodeID → chunkID ∈ chunks ∧ chunkID ∉ cleared
  enough : ∀ chunkID ∈ repaired, chunkID ∈ chunks ∧ EnoughRepairs replicationFactor m chunkID

theorem candidates_sublist (nodes : List NodeEntry) (minSpace : Int) (exclude : List NodeEntry) :
    (candidates nodes minSpace exclude).Sublist nodes := by
  unfold candidates filterByMinSpace filterNodes
  split
  · exact List.filter_sublist
  · exact List.filter_sublist.trans List.filter_sublist

section Trigger

variable {rs : RepairScheduler} {deadNodeID chkId : String} {chunks cleared repaired : List String}
  {s later : System} {did : List ((label : Label) × label.Result)}

theorem Progress.keys {replicationFactor : Int} {m : FSM}
    (progress : Progress replicationFactor deadNodeID chunks cleared repaired m) : RegistryKeys m := by
  obtain ⟨_, reached⟩ := progress.reached
  exact reached_registryKeys reached

theorem Progress.calm {replicationFactor : Int} {m later : FSM}
    (progress : Progress replicationFactor deadNodeID chunks cleared repaired m)
    (reached : ∃ history, Reached history later) (calm : Calm deadNodeID chunks m later) :
    Progress replicationFactor deadNodeID chunks cleared repaired later where
  reached := reached
  left chunkID listed := progress.left chunkID (calm.unlisted chunkID listed)
  enough chunkID member := by
    obtain ⟨_, known⟩ := reached
    obtain ⟨inside, enough⟩ := progress.enough chunkID member
    exact ⟨inside, (calm.kept chunkID inside).enoughRepairs progress.keys (reached_registryKeys known) enough⟩

theorem Progress.rely {replicationFactor : Int}
    (progress : Progress replicationFactor deadNodeID chunks cleared repaired s.fsm)
    (others : (repairing deadNodeID chunks).rely s later) :
    Progress replicationFactor deadNodeID chunks cleared repaired later.fsm := by
  obtain ⟨reached, calm⟩ := others progress.reached
  exact progress.calm reached calm

theorem Progress.evicted {req : CommandEvictChunkFromNode}
    (progress : Progress rs.replicationFactor deadNodeID chunks cleared repaired s.fsm)
    (ran : Exec (.propose (.evictChunkFromNode req)) s none later) (named : req.nodeID = deadNodeID)
    (fresh : req.chunkID ∉ repaired) :
    Progress rs.replicationFactor deadNodeID chunks (cleared ++ [req.chunkID]) repaired later.fsm := by
  obtain ⟨history, reached⟩ := progress.reached
  have after := (exec_fsmStep ran).reached ⟨history, reached⟩
  obtain ⟨orders, accepted, rfl⟩ := ran.accepted rfl
  obtain ⟨chunk, found, listed, result⟩ := evict_accepted (reached_replicaSets reached) accepted
  dsimp only at after ⊢
  rw [result] at after ⊢
  refine ⟨after, ?_, ?_⟩
  · intro other held
    rw [lists_setChunk] at held
    split at held
    · simp [named] at held
    · rename_i elsewhere
      obtain ⟨inside, left⟩ := progress.left other held
      exact ⟨inside, by simp [left, elsewhere]⟩
  · intro other member
    obtain ⟨inside, enough⟩ := progress.enough other member
    obtain ⟨_, after⟩ := after
    have elsewhere : other ≠ req.chunkID := fun here => fresh (here ▸ member)
    have kept : KeptFor other s.fsm (s.fsm.setChunk req.chunkID
        { chunk with replicas := chunk.replicas.filter (· ≠ req.nodeID) }) := by
      refine ⟨fun _ => rfl, ?_, fun _ job found active chunk => ⟨job, found, active, chunk, rfl, rfl⟩⟩
      simp [replicasOf, setChunk, Finmap.lookup_insert_of_ne _ elsewhere]
    exact ⟨inside, kept.enoughRepairs progress.keys (reached_registryKeys after) enough⟩

theorem enqueue_fsm (s : System) (jobID : String) : (s.enqueue jobID).fsm = s.fsm := by
  unfold System.enqueue
  split <;> rfl

theorem createJob_applied (deadNodeID : String) (chunks : List String) {req : CommandCreateRepairJob}
    (ran : Exec (.propose (.createRepairJob req)) s none later) :
    Calm deadNodeID chunks s.fsm later.fsm ∧
      later.fsm.repairJobRegistry.lookup req.jobID = some (newJob req) := by
  obtain ⟨orders, handled, rfl⟩ := ran.accepted rfl
  have accepted : (s.fsm.handleCmdCreateRepairJob req).2 = none := handled
  by_cases taken : req.jobID ∈ s.fsm.repairJobRegistry
  · simp [handleCmdCreateRepairJob, taken] at accepted
  · have result : (s.fsm.handleCmdCreateRepairJob req).1 = s.fsm.setJob req.jobID (newJob req) := by
      simp [handleCmdCreateRepairJob, taken, upsert, setJob, newJob]
    change Calm deadNodeID chunks s.fsm (s.fsm.handleCmdCreateRepairJob req).1 ∧
      (s.fsm.handleCmdCreateRepairJob req).1.repairJobRegistry.lookup req.jobID = _
    rw [result]
    refine ⟨⟨?_, fun _ listed => listed⟩, by simp [setJob]⟩
    intro chunkID _
    refine ⟨fun _ => rfl, rfl, ?_⟩
    intro id job found active chunk
    have other : id ≠ req.jobID := by
      intro here
      exact taken (Finmap.mem_of_lookup_eq_some (here ▸ found))
    exact ⟨job, by simpa [setJob, GoMap.lookup_insert, other] using found, active, chunk, rfl, rfl⟩

structure Filling (rs : RepairScheduler) (deadNodeID chkId : String) (chunks cleared repaired : List String)
    (live chosen handled : List NodeEntry) (m : FSM) : Prop where
  progress : Progress rs.replicationFactor deadNodeID chunks cleared repaired m
  located : liveIDs m chkId = live.map NodeEntry.nodeID
  alive : ∀ node ∈ chosen, statusOf m node.nodeID = some .alive
  jobs : ∀ node ∈ handled, RepairFrom m chkId node.nodeID (live.map NodeEntry.nodeID)

variable {live chosen handled : List NodeEntry}

theorem Filling.calm {m later : FSM}
    (filling : Filling rs deadNodeID chkId chunks cleared repaired live chosen handled m)
    (inside : chkId ∈ chunks) (reached : ∃ history, Reached history later)
    (calm : Calm deadNodeID chunks m later) :
    Filling rs deadNodeID chkId chunks cleared repaired live chosen handled later := by
  have progress := filling.progress.calm reached calm
  have kept := calm.kept chkId inside
  refine ⟨progress, ?_, ?_, ?_⟩
  · exact (kept.liveIDs filling.progress.keys progress.keys).trans filling.located
  · exact fun node member => (kept.statuses _).trans (filling.alive node member)
  · exact fun node member => kept.repairFrom (filling.jobs node member)

theorem Filling.rely (filling : Filling rs deadNodeID chkId chunks cleared repaired live chosen handled s.fsm)
    (inside : chkId ∈ chunks) (others : (repairing deadNodeID chunks).rely s later) :
    Filling rs deadNodeID chkId chunks cleared repaired live chosen handled later.fsm := by
  obtain ⟨reached, calm⟩ := others filling.progress.reached
  exact filling.calm inside reached calm

theorem Filling.handle {m : FSM} {node : NodeEntry}
    (filling : Filling rs deadNodeID chkId chunks cleared repaired live chosen handled m)
    (repair : RepairFrom m chkId node.nodeID (live.map NodeEntry.nodeID)) :
    Filling rs deadNodeID chkId chunks cleared repaired live chosen (handled ++ [node]) m where
  progress := filling.progress
  located := filling.located
  alive := filling.alive
  jobs other member := by
    rcases List.mem_append.mp member with member | member
    · exact filling.jobs other member
    · cases List.mem_singleton.mp member
      exact repair

theorem createJob_ensures {source : String} (from_ : source ∈ live.map NodeEntry.nodeID) {node : NodeEntry}
    (inside : chkId ∈ chunks)
    (filling : Filling rs deadNodeID chkId chunks cleared repaired live chosen handled s.fsm) :
    (repairing deadNodeID chunks).Ensures
      (fun _ s => Filling rs deadNodeID chkId chunks cleared repaired live chosen (handled ++ [node]) s.fsm)
      did (createJob chkId source node.nodeID false) s := by
  intro met others jid after ran
  obtain ⟨ran, _⟩ := ran
  cases ran
  have named := filling.rely inside others
  refine ⟨trivial, ?_⟩
  intro met others createdAt after ran
  obtain ⟨ran, _⟩ := ran
  cases ran
  have timed := named.rely inside others
  refine ⟨trivial, ?_⟩
  intro met others answer after ran
  obtain ⟨ran, accepted, _⟩ := ran
  cases accepted
  have proposed := timed.rely inside others
  obtain ⟨calm, created⟩ := createJob_applied deadNodeID chunks ran
  have stored := proposed.calm inside ((exec_fsmStep ran).reached proposed.progress.reached) calm
  have repair : RepairFrom after.fsm chkId node.nodeID (live.map NodeEntry.nodeID) :=
    ⟨jid, _, created, rfl, rfl, rfl, from_⟩
  have done := stored.handle repair
  refine ⟨trivial, ?_⟩
  intro met others _ after ran
  obtain ⟨ran, _⟩ := ran
  cases ran
  have queued := done.rely inside others
  rw [← enqueue_fsm met jid] at queued
  refine ⟨trivial, ?_⟩
  exact fun last others => queued.rely inside others

theorem fillTargets_ensures {source : String} (from_ : source ∈ live.map NodeEntry.nodeID)
    (inside : chkId ∈ chunks)
    (filling : Filling rs deadNodeID chkId chunks cleared repaired live chosen [] s.fsm) :
    (repairing deadNodeID chunks).Ensures
      (fun _ s => Filling rs deadNodeID chkId chunks cleared repaired live chosen chosen s.fsm) did
      (forEach (fun node : NodeEntry => scheduleCopy chkId source node.nodeID) chosen) s := by
  have stable (handled : List NodeEntry) (_ : List ((label : Label) × label.Result)) (s later : System)
      (others : (repairing deadNodeID chunks).rely s later)
      (filling : Filling rs deadNodeID chkId chunks cleared repaired live chosen handled s.fsm) :
      Filling rs deadNodeID chkId chunks cleared repaired live chosen handled later.fsm :=
    filling.rely inside others
  refine Setting.Ensures.forEach chosen [] stable ?_ filling
  intro handled node rest whole did s filling met others known after ran
  have member : node ∈ chosen := by
    rw [List.nil_append] at whole
    simp [whole]
  obtain ⟨ran, _, backed⟩ := ran
  have found := filling.rely inside others
  cases ran
  refine ⟨trivial, ?_⟩
  by_cases pending : chkId ++ ":" ++ node.nodeID ∈ met.pendingJobsSet
  · have located : liveIDs met.fsm chkId ≠ [] := by
      rw [found.located]
      exact List.ne_nil_of_mem from_
    have repair := backed pending chkId node.nodeID rfl (found.alive node member) located
    rw [found.located] at repair
    simp only [pending, decide_true]
    exact fun last others => (found.handle repair).rely inside others
  · simp only [pending, decide_false]
    exact createJob_ensures from_ inside found

theorem Filling.enoughRepairs {m : FSM}
    (filling : Filling rs deadNodeID chkId chunks cleared repaired live chosen chosen m)
    (distinct : (chosen.map NodeEntry.nodeID).Nodup)
    (count : chosen.length = (rs.replicationFactor - live.length).toNat) :
    EnoughRepairs rs.replicationFactor m chkId := by
  unfold EnoughRepairs
  rw [filling.located]
  intro _ _
  refine ⟨chosen.map NodeEntry.nodeID, distinct, ?_, ?_⟩
  · simp only [List.length_map]
    omega
  · intro target member
    obtain ⟨node, listed, rfl⟩ := List.mem_map.mp member
    exact ⟨filling.alive node listed, filling.jobs node listed⟩

theorem Progress.withRepaired {m : FSM}
    (progress : Progress rs.replicationFactor deadNodeID chunks cleared repaired m) (inside : chkId ∈ chunks)
    (enough : EnoughRepairs rs.replicationFactor m chkId) :
    Progress rs.replicationFactor deadNodeID chunks cleared (repaired ++ [chkId]) m where
  reached := progress.reached
  left := progress.left
  enough other member := by
    rcases List.mem_append.mp member with member | member
    · exact progress.enough other member
    · cases List.mem_singleton.mp member
      exact ⟨inside, enough⟩

theorem Progress.nothingMore (progress : Progress rs.replicationFactor deadNodeID chunks cleared repaired s.fsm)
    (inside : chkId ∈ chunks) (enough : EnoughRepairs rs.replicationFactor s.fsm chkId) :
    (repairing deadNodeID chunks).Ensures
      (fun _ s => Progress rs.replicationFactor deadNodeID chunks cleared (repaired ++ [chkId]) s.fsm) did done s :=
  fun _ others => (progress.withRepaired inside enough).rely others

theorem enoughRepairs_unlocated {m : FSM} {replicationFactor : Int} (unlocated : liveIDs m chkId = []) :
    EnoughRepairs replicationFactor m chkId :=
  fun located => absurd unlocated located

theorem selectNodes_targets (targetSound : rs.targetStrategy.Sound) {m : FSM} (keys : RegistryKeys m)
    {order : MapOrder} {minSpace count : Int} {chosen : List NodeEntry}
    (selected : rs.targetStrategy.selectNodes (m.getLiveNodes order) chkId minSpace count live =
      (chosen, none)) :
    (chosen.map NodeEntry.nodeID).Nodup ∧
      ∀ node ∈ chosen, statusOf m node.nodeID = some .alive := by
  obtain ⟨⟨ordered, perm, part⟩, _⟩ := targetSound.chosen _ _ _ _ _ _ selected
  have among := part.trans (candidates_sublist _ _ _)
  constructor
  · have distinct := (liveNodes_nodup keys.nodes order).sublist (among.map NodeEntry.nodeID)
    exact (perm.map _).nodup_iff.mp distinct
  · intro node member
    have eligible : node ∈ m.getLiveNodes order := among.subset (perm.mem_iff.mpr member)
    exact (mem_liveNodes keys.nodes order _).mp (List.mem_map_of_mem eligible)

theorem enoughRepairs_unselected (targetSound : rs.targetStrategy.Sound) {m later : FSM} (keys : RegistryKeys m)
    (laterKeys : RegistryKeys later) (kept : KeptFor chkId m later) (order : MapOrder)
    (located : live.map NodeEntry.nodeID = liveIDs m chkId) {found : List NodeEntry} {err : GoError}
    (selected : rs.targetStrategy.selectNodes (m.getLiveNodes order) chkId 0
      (rs.replicationFactor - live.length) live = (found, some err)) :
    EnoughRepairs rs.replicationFactor later chkId := by
  intro _ spare
  rw [kept.liveIDs keys laterKeys, ← located, List.length_map] at spare
  have candidates := kept.spareNodes_le_candidates keys laterKeys order located
  have success := targetSound.enough (m.getLiveNodes order) chkId 0
    (rs.replicationFactor - live.length) live (by omega)
  rw [selected] at success
  cases success

theorem chosenTargets_ensures (sourceSound : rs.sourceStrategy.Sound) (targetSound : rs.targetStrategy.Sound)
    (inside : chkId ∈ chunks) (served : live ≠ []) {m : FSM} (keys : RegistryKeys m)
    (kept : KeptFor chkId m s.fsm) {order : MapOrder}
    (selected : rs.targetStrategy.selectNodes (m.getLiveNodes order) chkId 0
      (rs.replicationFactor - live.length) live = (chosen, none))
    (progress : Progress rs.replicationFactor deadNodeID chunks cleared repaired s.fsm)
    (located : liveIDs s.fsm chkId = live.map NodeEntry.nodeID) :
    (repairing deadNodeID chunks).Ensures
      (fun _ s => Progress rs.replicationFactor deadNodeID chunks cleared (repaired ++ [chkId]) s.fsm) did
      (forEach (fun node : NodeEntry => scheduleCopy chkId (rs.sourceStrategy.selectPrimary live).nodeID node.nodeID) chosen) s := by
  obtain ⟨_, count⟩ := targetSound.chosen _ _ _ _ _ _ selected
  obtain ⟨distinct, alive⟩ := selectNodes_targets targetSound keys selected
  simp only [← kept.statuses] at alive
  have from_ : (rs.sourceStrategy.selectPrimary live).nodeID ∈ live.map NodeEntry.nodeID :=
    List.mem_map_of_mem (sourceSound.primary live served)
  have filling : Filling rs deadNodeID chkId chunks cleared repaired live chosen [] s.fsm :=
    ⟨progress, located, alive, fun _ member => (List.not_mem_nil member).elim⟩
  refine (fillTargets_ensures from_ inside filling).mono ?_
  intro _ s filled
  exact filled.progress.withRepaired inside (filled.enoughRepairs distinct count)

theorem scheduleRepairJobs_ensures (sourceSound : rs.sourceStrategy.Sound)
    (targetSound : rs.targetStrategy.Sound) (inside : chkId ∈ chunks)
    (progress : Progress rs.replicationFactor deadNodeID chunks cleared repaired s.fsm)
    (located : liveIDs s.fsm chkId = live.map NodeEntry.nodeID)
    (missing : rs.replicationFactor - live.length > 0) :
    (repairing deadNodeID chunks).Ensures
      (fun _ s => Progress rs.replicationFactor deadNodeID chunks cleared (repaired ++ [chkId]) s.fsm) did
      (scheduleRepairJobs rs chkId live (rs.replicationFactor - live.length)) s := by
  unfold scheduleRepairJobs
  rw [if_pos missing]
  split
  · rename_i none
    apply progress.nothingMore inside
    apply enoughRepairs_unlocated
    rw [located, List.length_eq_zero_iff.mp none]
    rfl
  · rename_i some
    have served : live ≠ [] := by simpa using some
    intro met others seen after ran
    obtain ⟨ran, _⟩ := ran
    obtain ⟨m, order⟩ := seen
    cases ran
    refine ⟨trivial, ?_⟩
    intro met' others' seen after ran
    obtain ⟨ran, _⟩ := ran
    obtain ⟨m', order'⟩ := seen
    cases ran
    refine ⟨trivial, ?_⟩
    have looked := progress.rely others
    have again := looked.rely others'
    have kept := (others progress.reached).2.kept chkId inside
    have kept' := (others' looked.reached).2.kept chkId inside
    have here : liveIDs met.fsm chkId = live.map NodeEntry.nodeID :=
      (kept.liveIDs progress.keys looked.keys).trans located
    dsimp only
    cases read : met'.fsm.getChunk chkId with
    | error err =>
      apply again.nothingMore inside
      apply enoughRepairs_unlocated
      simp [liveIDs, getChunkLocations, read]
    | ok chunk =>
      obtain ⟨_, reached⟩ := again.reached
      dsimp only
      rw [reached_chunkSizes reached chkId chunk ((getChunk_ok _).mp read)]
      split
      · rename_i selected
        apply again.nothingMore inside
        exact enoughRepairs_unselected targetSound looked.keys again.keys kept' order here.symm selected
      · rename_i chosen selected
        have here' := (kept'.liveIDs looked.keys again.keys).trans here
        exact chosenTargets_ensures sourceSound targetSound inside served looked.keys kept' selected again here'

theorem repairAfterDeath_ensures (sourceSound : rs.sourceStrategy.Sound)
    (targetSound : rs.targetStrategy.Sound) (inside : chkId ∈ chunks) (fresh : chkId ∉ repaired)
    (progress : Progress rs.replicationFactor deadNodeID chunks repaired repaired s.fsm) :
    (repairing deadNodeID chunks).Ensures (fun _ s => Progress rs.replicationFactor deadNodeID chunks
      (repaired ++ [chkId]) (repaired ++ [chkId]) s.fsm) did (repairAfterDeath rs deadNodeID chkId) s := by
  intro met others evictedAt after ran
  obtain ⟨ran, _⟩ := ran
  cases ran
  have timed := progress.rely others
  refine ⟨trivial, ?_⟩
  intro met others answer after ran
  obtain ⟨ran, accepted, _⟩ := ran
  cases accepted
  have evicted := (timed.rely others).evicted ran rfl fresh
  refine ⟨trivial, ?_⟩
  intro met others seen after ran
  obtain ⟨ran, _⟩ := ran
  obtain ⟨m, order⟩ := seen
  cases ran
  have looked := evicted.rely others
  refine ⟨trivial, ?_⟩
  dsimp only at looked ⊢
  cases read : met.fsm.getChunkLocations chkId with
  | error err =>
    apply looked.nothingMore inside
    apply enoughRepairs_unlocated
    simp [liveIDs, read]
  | ok live =>
    have located : liveIDs met.fsm chkId = live.map NodeEntry.nodeID := by simp [liveIDs, read]
    have without : excludeNode live deadNodeID = live := by
      apply List.filter_eq_self.mpr
      intro node member
      rw [decide_eq_true_eq]
      intro named
      have listed : deadNodeID ∈ liveIDs met.fsm chkId := by
        rw [located, ← named]
        exact List.mem_map_of_mem member
      rw [liveIDs_eq looked.keys.nodes] at listed
      exact (looked.left chkId (List.mem_filter.mp listed).1).2 (by simp)
    dsimp only
    rw [without]
    split
    · rename_i full
      apply looked.nothingMore inside
      intro _ _
      refine ⟨[], .nil, ?_, fun _ member => (List.not_mem_nil member).elim⟩
      rw [located, List.length_map]
      exact full
    · rename_i missing
      exact scheduleRepairJobs_ensures sourceSound targetSound inside looked located (by omega)

theorem chunksByNode_nodup {m : FSM} (keys : RegistryKeys m) (order : MapOrder) (nodeID : String) :
    (m.getChunksByNode order nodeID).Nodup := by
  have distinct := GoMap.range_ids_nodup order keys.chunks
  rw [List.map_map] at distinct
  exact distinct.sublist (List.filter_sublist.map _)

theorem triggerRepair_ensures (deadNodeID : String) (sourceSound : rs.sourceStrategy.Sound)
    (targetSound : rs.targetStrategy.Sound) (reached : ∃ history, Reached history s.fsm) (order : MapOrder) :
    (repairing deadNodeID (s.fsm.getChunksByNode order deadNodeID)).Ensures
      (fun _ last => Progress rs.replicationFactor deadNodeID (s.fsm.getChunksByNode order deadNodeID)
        (s.fsm.getChunksByNode order deadNodeID) (s.fsm.getChunksByNode order deadNodeID) last.fsm) []
      (forEach (repairAfterDeath rs deadNodeID) (s.fsm.getChunksByNode order deadNodeID)) s := by
  obtain ⟨history, known⟩ := reached
  have keys := reached_registryKeys known
  have distinct := chunksByNode_nodup keys order deadNodeID
  have listed := fun chunkID => mem_chunksByNode keys order chunkID deadNodeID
  generalize s.fsm.getChunksByNode order deadNodeID = chunks at distinct listed ⊢
  have start : Progress rs.replicationFactor deadNodeID chunks [] [] s.fsm := by
    refine ⟨⟨history, known⟩, ?_, fun _ member => (List.not_mem_nil member).elim⟩
    intro chunkID held
    exact ⟨(listed chunkID).mpr held, List.not_mem_nil⟩
  have stable (handled : List String) (_ : List ((label : Label) × label.Result)) (s later : System)
      (others : (repairing deadNodeID chunks).rely s later)
      (progress : Progress rs.replicationFactor deadNodeID chunks handled handled s.fsm) :
      Progress rs.replicationFactor deadNodeID chunks handled handled later.fsm :=
    progress.rely others
  refine Setting.Ensures.forEachDistinct distinct stable ?_ start
  intro handled chkId inside fresh did s progress
  exact repairAfterDeath_ensures sourceSound targetSound inside fresh progress

end Trigger

/-- `TriggerRepair` reads the state `s` and returns, with all its proposals accepted. If every pair
    that it skips as pending has an active job from a live location, and others leave the
    repairs of these chunks alone, then the node is in no replica list, and every chunk that
    listed it has the repairs it needs. -/
theorem node_death_repaired {parts : Components} {c last : Config} {i : Nat} {s : System} {order : MapOrder}
    {history : History} {events : List (Event System Label Label.Result)} (deadNodeID : String)
    (sourceSound : parts.scheduler.sourceStrategy.Sound) (targetSound : parts.scheduler.targetStrategy.Sound)
    (reached : Reached history s.fsm)
    (running : c.procs[i]? = some (triggerRepair parts.scheduler deadNodeID))
    (steps : Steps (world parts) c (⟨i, s, .look, (s.fsm, order), s⟩ :: events) last)
    (ended : last.procs[i]? = some .done)
    (answered : ∀ e ∈ events, e.proc = i → Answered e.label e.result)
    (backed : ∀ e ∈ events, e.proc = i → Backed e.before e.label)
    (others : ∀ e ∈ events, e.proc ≠ i →
      Calm deadNodeID (s.fsm.getChunksByNode order deadNodeID) e.before.fsm e.after.fsm) :
    (∀ chunkID, ¬ Lists last.state.fsm chunkID deadNodeID) ∧
      ∀ chunkID, Lists s.fsm chunkID deadNodeID →
        EnoughRepairs parts.scheduler.replicationFactor last.state.fsm chunkID := by
  have known : ∃ history, Reached history s.fsm := ⟨history, reached⟩
  have ensures := triggerRepair_ensures deadNodeID sourceSound targetSound known order
  obtain ⟨procs, resumed, rest⟩ := steps.begun running
  have own (e : Event System Label Label.Result) (member : e ∈ events) (mine : e.proc = i) :=
    And.intro (rest.exec e member) (And.intro (answered e member mine) (backed e member mine))
  have progress := Setting.Ensures.finished (c := ⟨s, procs⟩) ensures resumed rest ended own ?_ ?_
  · refine ⟨?_, ?_⟩
    · intro chunkID listed
      obtain ⟨inside, left⟩ := progress.left chunkID listed
      exact left inside
    · intro chunkID listed
      exact (progress.enough chunkID ((mem_chunksByNode (reached_registryKeys reached) _ _ _).mpr listed)).2
  · intro e member other reached
    exact ⟨(exec_fsmStep (rest.exec e member)).reached reached, others e member other⟩
  · intro s prog later allowed reached
    rw [spawn_fsm parts allowed]
    exact ⟨reached, .refl _ _ _⟩

def join (nodeID : String) (s : System) : System := (alone 0 (registerNode (newNode nodeID nodeID)) s).2

def written : System :=
  let joined := join "n4" (join "n3" (join "n2" (join "n1" System.empty)))
  let created := (alone 1 (propose newFile fun _ => done) joined).2
  let first := (alone 2 (act (.store "n1" "ck-1") fun _ => done) created).2
  (alone 2 (act (.store "n2" "ck-1") fun _ => done) first).2

def committed (parts : Components) : System :=
  (alone 3 (commitChunk parts ⟨"ck-1", ["n1", "n2"], [7]⟩) written).2

theorem committed_reachable (parts : Components) :
    Sequential parts (fun _ _ _ => True) (committed parts) := by
  have join {s : System} (before : Sequential parts (fun _ _ _ => True) s) (nodeID : String)
      (bare : s.disks nodeID = ∅) : Sequential parts (fun _ _ _ => True) (join nodeID s) :=
    before.andCall parts 0 (.component (.registerNode _ (newNode nodeID nodeID) (newNode_inventory _ bare)))
  have joined := join (join (join (join (.empty parts _) "n1" rfl) "n2" rfl) "n3" rfl) "n4" rfl
  have created := joined.andCall parts 1 (.component (.client _ newFile rfl))
  have first := created.andCall parts 2 (.component (.store _ "n1" "ck-1"))
  have second := first.andCall parts 2 (.component (.store _ "n2" "ck-1"))
  exact second.andCall parts 3 (.component (.commitChunk _ ⟨"ck-1", ["n1", "n2"], [7]⟩))

def dies (nodeID : String) (s : System) : System :=
  (alone 30 (propose (.markNodeDead ⟨nodeID, 30⟩) fun _ => done) s).2

def threeCopies : Components := cluster 3

/-- The commit has scheduled a job from `n1` to `n3`, and a worker has taken it, when `n1` dies. -/
def sourceDied : System :=
  dies "n1" (alone 5 (executeJob "job-") { committed threeCopies with jobs := [] }).2

def triggered : List (System × Label) × System :=
  alone 40 (triggerRepair threeCopies.scheduler "n1") sourceDied

theorem dead_source_counts :
    (∃ procs, Reachable (world threeCopies) empty ⟨sourceDied, procs⟩) ∧ Lists sourceDied.fsm "ck-1" "n1" ∧
      (∃ events procs, Steps (world threeCopies) ⟨sourceDied, [triggerRepair threeCopies.scheduler "n1"]⟩ events
        ⟨triggered.2, procs⟩ ∧ procs[0]? = some .done ∧ ∀ e ∈ events, Answered e.label e.result) ∧
      ¬ EnoughRepairs threeCopies.scheduler.replicationFactor triggered.2.fsm "ck-1" := by
  have answered : ∀ x ∈ triggered.1, Answered x.2 (execFresh 40 x.2 x.1).1 := by decide
  have located : liveIDs triggered.2.fsm "ck-1" = ["n2"] := by decide
  have spare : (spareNodes triggered.2.fsm "ck-1").length = 2 := by decide
  have factor : threeCopies.scheduler.replicationFactor = 3 := by decide
  have only : ∀ id job, triggered.2.fsm.repairJobRegistry.lookup id = some job →
    job.sourceNodeID ∈ ["n2"] → job.targetNodeID = "n4" := by decide
  refine ⟨?_, by decide, ?_, ?_⟩
  · have taken := (committed_reachable threeCopies).andCall threeCopies 5
      (.component (.executeJob _ "job-" [] rfl))
    have died := taken.andCall threeCopies 30 (.command _ (.markNodeDead ⟨"n1", 30⟩) rfl)
    obtain ⟨procs, _, reached⟩ := died
    exact ⟨procs, reached⟩
  · obtain ⟨events, procs, steps, ended, trace, own⟩ :=
      alone_steps threeCopies 40 (triggerRepair threeCopies.scheduler "n1") sourceDied
    refine ⟨events, procs, steps, ended, ?_⟩
    intro e member
    rw [(own e member).2.1]
    apply answered (e.before, e.label)
    rw [triggered, ← trace]
    exact List.mem_map_of_mem member
  · intro enough
    unfold EnoughRepairs at enough
    rw [located, spare, factor] at enough
    obtain ⟨targets, distinct, length, each⟩ := enough (by decide) (by decide)
    -- two different targets would both have to be `n4`
    have same (target : String) (member : target ∈ targets) : target = "n4" := by
      obtain ⟨_, id, job, found, _, _, aimed, source⟩ := each target member
      exact aimed.symm.trans (only id job found source)
    have single : targets.length ≤ 1 := by
      have all := List.eq_replicate_iff.mpr ⟨rfl, same⟩
      rw [all] at distinct
      exact List.nodup_replicate.mp distinct
    simp only [List.length_singleton] at length
    omega

def holderDied : System := dies "n1" (committed twoCopies)

def repairedAfter : List (System × Label) × System :=
  alone 40 (forEach (repairAfterDeath twoCopies.scheduler "n1")
    (holderDied.fsm.getChunksByNode default "n1")) holderDied

theorem node_death_repaired_without_jobs :
    ∃ events last, Steps (world twoCopies) ⟨holderDied, [triggerRepair twoCopies.scheduler "n1"]⟩
        (⟨0, holderDied, .look, (holderDied.fsm, default), holderDied⟩ :: events) last ∧
      ¬ Lists last.state.fsm "ck-1" "n1" ∧ ∃ target, RepairFrom last.state.fsm "ck-1" target ["n2"] := by
  have clear : ∀ x ∈ repairedAfter.1, Answered x.2 (execFresh 40 x.2 x.1).1 ∧ x.1.pendingJobsSet.keys = ∅ := by
    decide
  have located : liveIDs repairedAfter.2.fsm "ck-1" = ["n2"] := by decide
  have spare : (spareNodes repairedAfter.2.fsm "ck-1").length = 2 := by decide
  have factor : twoCopies.scheduler.replicationFactor = 2 := by decide
  obtain ⟨_, _, run⟩ := (committed_reachable twoCopies).andCall twoCopies 30
    (.command _ (.markNodeDead ⟨"n1", 30⟩) rfl)
  obtain ⟨history, reached⟩ : ∃ history, Reached history holderDied.fsm :=
    reached_fsm twoCopies ⟨[], .empty⟩ run
  have start : Steps (world twoCopies) ⟨holderDied, [triggerRepair twoCopies.scheduler "n1"]⟩ []
      ⟨holderDied, [triggerRepair twoCopies.scheduler "n1"]⟩ := .refl
  have first := start.act 0 .look _ rfl (holderDied.fsm, default) holderDied (.look _ default)
  obtain ⟨events, procs, steps, ended, trace, own⟩ := first.runAlone (execFresh_exec 40) (i := 0)
    (forEach (repairAfterDeath twoCopies.scheduler "n1") (holderDied.fsm.getChunksByNode default "n1")) rfl
  have each (e : Event System Label Label.Result) (member : e ∈ events) :
      Answered e.label (execFresh 40 e.label e.before).1 ∧ e.before.pendingJobsSet.keys = ∅ := by
    apply clear (e.before, e.label)
    rw [repairedAfter, alone, ← trace]
    exact List.mem_map_of_mem member
  have answered : ∀ e ∈ events, e.proc = 0 → Answered e.label e.result := by
    intro e member _
    rw [(own e member).2.1]
    exact (each e member).1
  have backed : ∀ e ∈ events, e.proc = 0 → Backed e.before e.label := by
    intro e member _
    have none := (each e member).2
    cases label : e.label with
    | pendingKey key =>
      intro held
      rw [← Finmap.mem_keys, none] at held
      cases held
    | _ => trivial
  have others : ∀ e ∈ events, e.proc ≠ 0 →
      Calm "n1" (holderDied.fsm.getChunksByNode default "n1") e.before.fsm e.after.fsm := by
    intro e member other
    exact absurd (own e member).1 other
  obtain ⟨unlisted, repaired⟩ := node_death_repaired "n1" (Placement.leastLoadedStrategy_sound _)
    (Placement.mostFreeSpaceStrategy_sound _) reached rfl steps ended answered backed others
  refine ⟨events, _, steps, unlisted "ck-1", ?_⟩
  have enough : EnoughRepairs twoCopies.scheduler.replicationFactor repairedAfter.2.fsm "ck-1" :=
    repaired "ck-1" (by decide)
  unfold EnoughRepairs at enough
  rw [located, spare, factor] at enough
  obtain ⟨targets, _, length, each⟩ := enough (by decide) (by decide)
  cases targets with
  | nil => simp at length
  | cons target rest => exact ⟨target, (each target (by simp)).2⟩

end DistributedFs.Scheduler
