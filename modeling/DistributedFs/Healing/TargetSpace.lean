import DistributedFs.Healing.ScheduledJobs

namespace DistributedFs.Healing

open Go Fsm MetadataFSM Scheduler Reconcile Placement
open Concurrency hiding Config Prog World Run

def byteLength (file : FileRecord) (chunk : ChunkRecord (List String)) : Int :=
  min (file.chunkSize.toNat : Int) (file.fileSize.toNat - chunk.chunkIndex * file.chunkSize.toNat)

/-- The length of a chunk in bytes, by the sizes that its file was created with. -/
def chunkBytes (m : FSM) (chunkID : String) : Int :=
  match m.chunkRegistry.lookup chunkID with
  | none => 0
  | some chunk =>
    match m.fileIndex.lookup chunk.fileID with
    | none => 0
    | some file => byteLength file chunk

def spaceOf (m : FSM) (nodeID : String) : Option (NodeStatus × UInt64) :=
  (m.nodeRegistry.lookup nodeID).map fun node => (node.status, node.freeSpace)

def HasRoom (m : FSM) (nodeID : String) (bytes : Int) : Prop :=
  ∃ node, m.nodeRegistry.lookup nodeID = some node ∧ bytes ≤ node.freeSpace.toNat

instance (m : FSM) (nodeID : String) (bytes : Int) : Decidable (HasRoom m nodeID bytes) :=
  inferInstanceAs (Decidable (∃ node ∈ m.nodeRegistry.lookup nodeID, _))

def Roomy (bytes : Int) (s : System) : Label → Prop
  | .propose (.createRepairJob req) => HasRoom s.fsm req.targetNode bytes
  | _ => True

instance (bytes : Int) (s : System) (label : Label) : Decidable (Roomy bytes s label) :=
  match label with
  | .propose (.createRepairJob req) => inferInstanceAs (Decidable (HasRoom s.fsm req.targetNode bytes))
  | .propose (.registerNode _) | .propose (.deregisterNode _) | .propose (.markNodeDead _)
  | .propose (.markNodeAlive _) | .propose (.updateNodeSpace _) | .propose (.createFile _)
  | .propose (.commitFile _) | .propose (.deleteFile _) | .propose (.commitChunk _)
  | .propose (.evictChunkFromNode _) | .propose (.markChunkLost _) | .propose (.updateRepairJob _)
  | .propose (.addChunkReplica _) | .propose (.registerMetadataNode _)
  | .propose (.deregisterMetadataNode _) | .look | .clock | .uuid | .pendingKey _ | .enqueue _
  | .publish _ | .retire .. | .cancelled | .send _ | .pendingFor _ | .updateLastSeen .. | .deliver ..
  | .arm .. | .deleteChunk .. | .store .. => .isTrue trivial

/-- If targets can be found at all, as many of the alive nodes beside the live locations have
    that much free space. -/
def EnoughRoom (m : FSM) (live : List NodeEntry) (deficit bytes : Int) : Prop :=
  deficit ≤ (eligible (m.getLiveNodes default) live 0).length →
    deficit ≤ (eligible (m.getLiveNodes default) live bytes).length

theorem HasRoom.congr {m later : FSM} {nodeID : String} {bytes : Int}
    (same : spaceOf later nodeID = spaceOf m nodeID) (room : HasRoom m nodeID bytes) :
    HasRoom later nodeID bytes := by
  obtain ⟨node, found, fits⟩ := room
  rw [spaceOf, spaceOf, found] at same
  obtain ⟨now, present, equal⟩ := Option.map_eq_some_iff.mp same
  have free : now.freeSpace = node.freeSpace := congrArg Prod.snd equal
  exact ⟨now, present, by rw [free]; exact fits⟩

theorem hasRoom_of_live {m : FSM} (keys : RegistryKeys m) {order : MapOrder} {node : NodeEntry}
    (alive : node ∈ m.getLiveNodes order) (bytes : Int) :
    HasRoom m node.nodeID bytes ↔ bytes ≤ node.freeSpace.toNat := by
  obtain ⟨⟨key, entry⟩, listed, same⟩ := List.mem_map.mp alive
  subst same
  have found := (GoMap.mem_range order _ _ _).mp (List.mem_filter.mp listed).1
  rw [keys.nodes key entry found]
  constructor
  · intro room
    obtain ⟨other, here, fits⟩ := room
    cases found.symm.trans here
    exact fits
  · exact fun fits => ⟨entry, found, fits⟩

theorem mem_eligible_ids {m : FSM}
    (keys : ∀ id node, m.nodeRegistry.lookup id = some node → node.nodeID = id) (order : MapOrder)
    (live : List NodeEntry) (bytes : Int) (id : String) :
    id ∈ (eligible (m.getLiveNodes order) live bytes).map NodeEntry.nodeID ↔
      ∃ free, spaceOf m id = some (.alive, free) ∧ id ∉ live.map NodeEntry.nodeID ∧
        (0 < bytes → bytes ≤ free.toNat) := by
  simp only [eligible, Eligible, getLiveNodes, spaceOf, List.mem_map, List.mem_filter, Prod.exists,
    GoMap.mem_range, decide_eq_true_eq, Option.map_eq_some_iff, Prod.mk.injEq]
  constructor
  · intro held
    obtain ⟨node, ⟨⟨key, _, ⟨found, alive⟩, rfl⟩, elsewhere, room⟩, rfl⟩ := held
    rw [← keys key _ found] at found
    exact ⟨_, ⟨_, found, alive, rfl⟩, elsewhere, room⟩
  · intro held
    obtain ⟨free, ⟨node, found, alive, rfl⟩, elsewhere, room⟩ := held
    cases keys id node found
    exact ⟨node, ⟨⟨_, _, ⟨found, alive⟩, rfl⟩, elsewhere, room⟩, rfl⟩

theorem eligible_length_congr {m later : FSM} (keys : RegistryKeys m) (laterKeys : RegistryKeys later)
    (same : ∀ id, spaceOf later id = spaceOf m id) (order order' : MapOrder) (live : List NodeEntry)
    (bytes : Int) :
    (eligible (later.getLiveNodes order) live bytes).length =
      (eligible (m.getLiveNodes order') live bytes).length := by
  have distinct {m : FSM} (keys : RegistryKeys m) (order : MapOrder) :
      ((eligible (m.getLiveNodes order) live bytes).map NodeEntry.nodeID).Nodup :=
    (List.filter_sublist.map NodeEntry.nodeID).nodup (liveNodes_nodup keys.nodes order)
  have perm : ((eligible (later.getLiveNodes order) live bytes).map NodeEntry.nodeID).Perm
      ((eligible (m.getLiveNodes order') live bytes).map NodeEntry.nodeID) := by
    apply (List.perm_ext_iff_of_nodup (distinct laterKeys order) (distinct keys order')).mpr
    intro id
    rw [mem_eligible_ids laterKeys.nodes, mem_eligible_ids keys.nodes, same]
  simpa only [List.length_map] using perm.length_eq

section Selected

variable {nodes live picked : List NodeEntry} {deficit bytes : Int}
  (selection : Selection MoreFree nodes live 0 deficit picked none)
  (distinct : (nodes.map NodeEntry.nodeID).Nodup)

include selection distinct

theorem selected_room (enough : deficit ≤ (eligible nodes live bytes).length) (node : NodeEntry)
    (chosen : node ∈ picked) : bytes ≤ node.freeSpace.toNat := by
  by_contra tight
  have covered : eligible nodes live bytes ⊆ picked.erase node := by
    intro other member
    obtain ⟨listed, fits⟩ := List.mem_filter.mp member
    obtain ⟨elsewhere, room⟩ := of_decide_eq_true fits
    have roomy : bytes ≤ other.freeSpace.toNat := room (by omega)
    have apart : other ≠ node := by
      intro same
      subst same
      exact tight roomy
    apply (List.mem_erase_of_ne apart).mpr
    by_contra left
    apply selection.best rfl other listed ⟨elsewhere, by omega⟩ left node chosen
    exact .inl (by omega)
  have single : (eligible nodes live bytes).Nodup := distinct.of_map.sublist List.filter_sublist
  have fewer := (List.subperm_of_subset single covered).length_le
  have count := selection.exact rfl
  have positive := List.length_pos_of_mem chosen
  rw [List.length_erase_of_mem chosen] at fewer
  omega

omit distinct in
theorem selected_tight (few : (eligible nodes live bytes).length < deficit) :
    ∃ node ∈ picked, ¬bytes ≤ node.freeSpace.toNat := by
  by_contra none
  have covered : picked ⊆ eligible nodes live bytes := by
    intro node member
    obtain ⟨listed, elsewhere, _⟩ := selection.sound node member
    have room : bytes ≤ node.freeSpace.toNat := by
      by_contra tight
      exact none ⟨node, member, tight⟩
    exact List.mem_filter.mpr ⟨listed, decide_eq_true ⟨elsewhere, fun _ => room⟩⟩
  have fewer := (List.subperm_of_subset selection.distinct.of_map covered).length_le
  have count := selection.exact rfl
  omega

end Selected

structure Alike (m later : FSM) : Prop where
  reached : ∃ history, Reached history later
  space : ∀ id, spaceOf later id = spaceOf m id

def sizing (bytes : Int) : Setting System Label Label.Result where
  exec := Exec
  promise label met _ _ := Roomy bytes met label
  rely s later := (∃ history, Reached history s.fsm) → Alike s.fsm later.fsm
  refl s reached := ⟨reached, fun _ => rfl⟩
  trans first second reached := by
    have mid := first reached
    have last := second mid.reached
    exact ⟨last.reached, fun id => (last.space id).trans (mid.space id)⟩

theorem Exec.scheduling_nodes {label : Label} {s later : System} {result : label.Result}
    (ran : Exec label s result later) (schedules : Scheduling label) :
    later.fsm.nodeRegistry = s.fsm.nodeRegistry := by
  have step := exec_fsmStep ran
  generalize later.fsm = after at step
  cases step with
  | command cmd orders =>
    cases cmd with
    | createRepairJob req =>
      have onJobs : jobCommand (.createRepairJob req) = true := rfl
      obtain ⟨registry, frame⟩ := jobCommand_frame onJobs s.fsm orders
      rw [frame]
    | _ => cases schedules
  | seen => cases schedules
  | same => rfl

section Pass

variable {m : FSM} {bytes : Int} {s met later after : System} {chunkID source : String} {did : Did}

theorem Alike.rely (alike : Alike m s.fsm) (others : (sizing bytes).rely s met) : Alike m met.fsm := by
  have kept := others alike.reached
  exact ⟨kept.reached, fun id => (kept.space id).trans (alike.space id)⟩

theorem Alike.acts (alike : Alike m s.fsm) {label : Label} {result : label.Result}
    (ran : Exec label s result later) (schedules : Scheduling label) : Alike m later.fsm := by
  refine ⟨(exec_fsmStep ran).reached alike.reached, ?_⟩
  intro id
  rw [spaceOf, ran.scheduling_nodes schedules]
  exact alike.space id

theorem createJob_room (alike : Alike m s.fsm) {target : String} (room : HasRoom m target bytes) :
    (sizing bytes).Ensures (fun _ s => Alike m s.fsm) did (createJob chunkID source target false) s := by
  intro met others jid after ran
  have named := (alike.rely others).acts ran trivial
  refine ⟨trivial, ?_⟩
  intro met others createdAt after ran
  have timed := (named.rely others).acts ran trivial
  refine ⟨trivial, ?_⟩
  intro met others answer after ran
  have proposed := timed.rely others
  have stored := proposed.acts ran trivial
  constructor
  · exact room.congr (proposed.space target)
  · cases answer with
    | some err => exact fun last others => stored.rely others
    | none =>
      intro met others _ after ran
      have queued := (stored.rely others).acts ran trivial
      exact ⟨trivial, fun last others => queued.rely others⟩

theorem orders_room (alike : Alike m s.fsm) {chosen : List NodeEntry}
    (room : ∀ node ∈ chosen, HasRoom m node.nodeID bytes) :
    (sizing bytes).Ensures (fun _ s => Alike m s.fsm) did
      (.forEach (fun node : NodeEntry => scheduleCopy chunkID source node.nodeID) chosen) s := by
  let inv (_ : List NodeEntry) (_ : Did) (later : System) : Prop := Alike m later.fsm
  have start : inv [] did s := alike
  refine Setting.Ensures.forEach chosen [] ?_ ?_ start
  · intro _ _ mid later others alike
    dsimp only [inv] at alike ⊢
    exact alike.rely others
  · intro before node rest whole did mid alike met others pending after ran
    dsimp only [inv] at alike
    have member : node ∈ chosen := by
      rw [List.nil_append] at whole
      simp [whole]
    have asked := (alike.rely others).acts ran trivial
    refine ⟨trivial, ?_⟩
    cases pending with
    | true => exact fun _ others => asked.rely others
    | false => exact createJob_room asked (room node member)

theorem chosen_room {start : FSM} (keys : RegistryKeys start) (looked : Alike start m) {sorter : Sorter NodeEntry}
    {order : MapOrder} {live chosen : List NodeEntry} {deficit : Int} (missing : 0 < deficit)
    (selected : (mostFreeSpaceStrategy sorter).selectNodes (m.getLiveNodes order) chunkID 0 deficit live =
      (chosen, none))
    (enough : EnoughRoom start live deficit bytes) (node : NodeEntry) (member : node ∈ chosen) :
    HasRoom start node.nodeID bytes := by
  obtain ⟨_, reached⟩ := looked.reached
  have now := reached_registryKeys reached
  have count := eligible_length_congr keys now looked.space order default live
  have selection := targets_selection now.nodes sorter order live 0 missing selected
  have candidates := selection.succeeds.mp rfl
  rw [count] at candidates
  have roomy := enough candidates
  rw [← count] at roomy
  have fits := selected_room selection (liveNodes_nodup now.nodes order) roomy node member
  have here := (hasRoom_of_live now (selection.sound node member).1 bytes).mpr fits
  exact here.congr (looked.space _).symm

theorem scheduleRepairJobs_room {rs : RepairScheduler} {sorter : Sorter NodeEntry}
    (mostFree : rs.targetStrategy = mostFreeSpaceStrategy sorter) {live : List NodeEntry} {deficit : Int}
    (missing : 0 < deficit) (reached : ∃ history, Reached history s.fsm)
    (enough : EnoughRoom s.fsm live deficit bytes) :
    (sizing bytes).Ensures (fun _ _ => True) did (scheduleRepairJobs rs chunkID live deficit) s := by
  have start : Alike s.fsm s.fsm := ⟨reached, fun _ => rfl⟩
  obtain ⟨history, known⟩ := reached
  unfold scheduleRepairJobs
  rw [if_pos missing]
  split
  · exact fun _ _ => trivial
  · intro met others seen after ran
    have looked := start.rely others
    obtain ⟨m, order⟩ := seen
    cases ran
    refine ⟨trivial, ?_⟩
    intro met' others' seen after ran
    have again := looked.rely others'
    obtain ⟨m', order'⟩ := seen
    cases ran
    refine ⟨trivial, ?_⟩
    dsimp only
    split
    · exact fun _ _ => trivial
    · rename_i chunk read
      obtain ⟨_, reached⟩ := again.reached
      rw [reached_chunkSizes reached chunkID chunk ((getChunk_ok _).mp read), mostFree]
      split
      · exact fun _ _ => trivial
      · rename_i chosen selected
        have room := chosen_room (reached_registryKeys known) looked missing selected enough
        exact (orders_room again room).mono fun _ _ _ => trivial

end Pass

theorem Scheduled.tight {rs : RepairScheduler} {sorter : Sorter NodeEntry}
    (mostFree : rs.targetStrategy = mostFreeSpaceStrategy sorter) {s after : System} (keys : RegistryKeys s.fsm)
    {chunkID : String} {live : List NodeEntry} {deficit bytes : Int} (missing : 0 < deficit)
    (idle : ∀ id : String, chunkID ++ ":" ++ id ∉ s.pendingJobsSet)
    (tight : ¬EnoughRoom s.fsm live deficit bytes)
    (scheduled : Scheduled rs chunkID 0 live deficit s after) :
    ∃ id job, after.fsm.repairJobRegistry.lookup id = some job ∧
      s.fsm.repairJobRegistry.lookup id = none ∧ ¬HasRoom s.fsm job.targetNodeID bytes := by
  obtain ⟨candidates, few⟩ := Classical.not_imp.mp tight
  have count := eligible_length_congr keys keys (fun _ => rfl) default
  cases scheduled with
  | short order found err selected same =>
    rw [mostFree] at selected
    rw [count order] at candidates
    cases (targets_selection keys.nodes sorter order live 0 missing selected).succeeds.mpr candidates
  | ordered order chosen selected copies =>
    rw [mostFree] at selected
    rw [count order] at few
    have selection := targets_selection keys.nodes sorter order live 0 missing selected
    obtain ⟨node, picked, small⟩ := selected_tight selection (Int.not_le.mp few)
    obtain ⟨jobs, issued, aimed, _⟩ := copies
    rw [unpended_all idle] at aimed
    have target : node.nodeID ∈ jobs.map RepairJob.targetNodeID := by
      rw [aimed]
      exact List.mem_map_of_mem picked
    obtain ⟨job, member, named⟩ := List.mem_map.mp target
    refine ⟨job.jobID, job, issued.found member, Finmap.lookup_eq_none.mpr (issued.unused job member), ?_⟩
    rw [named, hasRoom_of_live keys (selection.sound node picked).1]
    exact small

theorem steps_created {parts : Components} {c last : Scheduler.Config}
    {events : List (Event System Label Label.Result)} (steps : Steps (Scheduler.world parts) c events last)
    {id : String} {job : RepairJob} (found : last.state.fsm.repairJobRegistry.lookup id = some job)
    (absent : c.state.fsm.repairJobRegistry.lookup id = none) :
    ∃ e ∈ events, ∃ req, e.label = .propose (.createRepairJob req) ∧ req.targetNode = job.targetNodeID := by
  induction steps generalizing job with
  | refl => cases absent.symm.trans found
  | spawn _ prog later allowed ih =>
    rw [spawn_fsm parts allowed] at found
    exact ih found
  | act _ i label next running result later ran ih =>
    rcases (exec_fsmStep ran).jobs.origin found with older | ⟨req, created, _, rfl⟩ |
      ⟨req, old, _, _, older, rfl⟩
    · obtain ⟨e, member, proposed⟩ := ih older
      exact ⟨e, List.mem_append_left _ member, proposed⟩
    · exact ⟨_, List.mem_append_right _ List.mem_cons_self, req, created, rfl⟩
    · obtain ⟨e, member, proposed⟩ := ih older
      exact ⟨e, List.mem_append_left _ member, proposed⟩

/-- In every run from this configuration in which the other processes leave the states and the
    free space of the nodes alone, process `i` creates jobs only for targets with room. -/
def TargetsHaveRoom (parts : Components) (c : Scheduler.Config) (i : Nat) (bytes : Int) : Prop :=
  ∀ events last, Steps (Scheduler.world parts) c events last →
    (∀ e ∈ events, e.proc ≠ i → ∀ id, spaceOf e.after.fsm id = spaceOf e.before.fsm id) →
      ∀ e ∈ events, e.proc = i → Roomy bytes e.before e.label

section Runs

variable {parts : Components} {sorter : Sorter NodeEntry}
  (mostFree : parts.scheduler.targetStrategy = mostFreeSpaceStrategy sorter) {c : Scheduler.Config} {i : Nat}
  (reached : ∃ history, Reached history c.state.fsm) {chunkID : String} {live : List NodeEntry} {deficit : Int}
  (missing : 0 < deficit)
  (running : c.procs[i]? = some (scheduleRepairJobs parts.scheduler chunkID live deficit)) {bytes : Int}

include mostFree reached missing running

theorem targetsHaveRoom_of_enough (enough : EnoughRoom c.state.fsm live deficit bytes) :
    TargetsHaveRoom parts c i bytes := by
  intro events last steps others
  have ensures : (sizing bytes).Ensures (fun _ _ => True) []
      (scheduleRepairJobs parts.scheduler chunkID live deficit) c.state :=
    scheduleRepairJobs_room mostFree missing reached enough
  refine (ensures.steps running steps ?_ ?_ ?_).1
  · exact fun e member _ => steps.exec e member
  · intro e member apart before
    exact ⟨(exec_fsmStep (steps.exec e member)).reached before, others e member apart⟩
  · intro s prog later spawned before
    rw [spawn_fsm parts spawned]
    exact ⟨before, fun _ => rfl⟩

theorem not_targetsHaveRoom (served : live ≠ []) {chunk : ChunkRecord (List String)}
    (stored : c.state.fsm.chunkRegistry.lookup chunkID = some chunk)
    (idle : ∀ id : String, chunkID ++ ":" ++ id ∉ c.state.pendingJobsSet)
    (tight : ¬EnoughRoom c.state.fsm live deficit bytes) : ¬TargetsHaveRoom parts c i bytes := by
  obtain ⟨history, known⟩ := reached
  obtain ⟨⟨did, after, ran, succeeded⟩, each⟩ := undisturbed_run fun exec settled =>
    alone_scheduleRepairJobs settled parts.scheduler (fun _ member => (List.not_mem_nil member).elim) served
      missing stored
  have scheduled := each did after ran succeeded
  rw [reached_chunkSizes known chunkID chunk stored] at scheduled
  obtain ⟨id, job, found, unused, small⟩ :=
    scheduled.tight mostFree (reached_registryKeys known) missing idle tight
  have scheduling := scheduling_of_issuing (scheduleRepairJobs_issuing parts.scheduler chunkID live deficit none)
  have begun : Steps (Scheduler.world parts) c [] ⟨c.state, c.procs⟩ := .refl
  obtain ⟨events, procs, steps, own⟩ :=
    ran.steps .refl .trans scheduling_undisturbed synchronous_exec scheduling begun running
  obtain ⟨e, member, req, proposed, target⟩ := steps_created steps found unused
  intro roomy
  have room := roomy _ _ steps (fun other listed apart => absurd (own other listed).1 apart) e member
    (own e member).1
  rw [proposed] at room
  have same : spaceOf c.state.fsm req.targetNode = spaceOf e.before.fsm req.targetNode := by
    rw [spaceOf, spaceOf, (own e member).2.nodes]
  rw [← target] at small
  exact small (HasRoom.congr same room)

end Runs

section Loops

variable {parts : Components} {sorter : Sorter NodeEntry}
  (mostFree : parts.scheduler.targetStrategy = mostFreeSpaceStrategy sorter) {c : Scheduler.Config} {i : Nat}
  (reached : ∃ history, Reached history c.state.fsm) {chunkID : String} {live : List NodeEntry} {deficit : Int}
  (missing : 0 < deficit) {rest : Prog}
  (looping : c.procs[i]? = some (.andThen (scheduleRepairJobs parts.scheduler chunkID live deficit) rest))
  {bytes : Int}

include mostFree reached missing looping

/-- A pass with more behind it, as in the loops of `TriggerRepair` and `ReconcileNode`, has targets with
    room until it ends. -/
theorem pass_hasRoom (enough : EnoughRoom c.state.fsm live deficit bytes)
    {events : List (Event System Label Label.Result)} {last : Scheduler.Config}
    (steps : Steps (Scheduler.world parts) c events last)
    (others : ∀ e ∈ events, e.proc ≠ i → ∀ id, spaceOf e.after.fsm id = spaceOf e.before.fsm id) :
    ∃ pass more, events = pass ++ more ∧ (∀ e ∈ pass, e.proc = i → Roomy bytes e.before e.label) ∧
      (more = [] ∨ ∃ mid, mid.procs[i]? = some rest ∧ Steps (Scheduler.world parts) mid more last) := by
  have inside := (List.getElem?_eq_some_iff.mp looping).1
  let alone : Scheduler.Config :=
    ⟨c.state, c.procs.set i (scheduleRepairJobs parts.scheduler chunkID live deficit)⟩
  have running : alone.procs[i]? = some (scheduleRepairJobs parts.scheduler chunkID live deficit) :=
    List.getElem?_set_self inside
  have roomy : TargetsHaveRoom parts alone i bytes :=
    targetsHaveRoom_of_enough (c := alone) mostFree reached missing running enough
  rcases steps.cut looping with ⟨left, held, pass⟩ | ⟨pass, more, mid, rfl, held, begun, goes⟩
  · exact ⟨events, [], by simp, roomy events _ pass others, .inl rfl⟩
  · refine ⟨pass, more, rfl, roomy pass _ begun ?_, .inr ⟨mid, held, goes⟩⟩
    exact fun e member => others e (List.mem_append_left _ member)

theorem pass_lacksRoom (served : live ≠ []) {chunk : ChunkRecord (List String)}
    (stored : c.state.fsm.chunkRegistry.lookup chunkID = some chunk)
    (idle : ∀ id : String, chunkID ++ ":" ++ id ∉ c.state.pendingJobsSet)
    (tight : ¬EnoughRoom c.state.fsm live deficit bytes) :
    ∃ events last, Steps (Scheduler.world parts) c events last ∧
      (∀ e ∈ events, e.proc ≠ i → ∀ id, spaceOf e.after.fsm id = spaceOf e.before.fsm id) ∧
      ∃ e ∈ events, e.proc = i ∧ ¬Roomy bytes e.before e.label := by
  have inside := (List.getElem?_eq_some_iff.mp looping).1
  have misplaced := not_targetsHaveRoom mostFree (c := ⟨c.state, c.procs.set i _⟩) reached missing
    (List.getElem?_set_self inside) served stored idle tight
  simp only [TargetsHaveRoom, not_forall] at misplaced
  obtain ⟨events, last, steps, others, e, member, own, small⟩ := misplaced
  obtain ⟨left, -, goes⟩ := steps.continued (List.getElem?_set_self inside) rest
  have same : (c.procs.set i (scheduleRepairJobs parts.scheduler chunkID live deficit)).set i
      (.andThen (scheduleRepairJobs parts.scheduler chunkID live deficit) rest) = c.procs := by
    rw [List.set_set, ← (List.getElem?_eq_some_iff.mp looping).2, List.set_getElem_self]
  rw [same] at goes
  exact ⟨events, _, goes, others, e, member, own, small⟩

end Loops

/-- The targets of the jobs that a pass of the scheduler creates have room for the chunk if as many
    alive nodes have it as are chosen, and, where no job for the chunk is pending, only then. -/
theorem repair_target_room_iff {parts : Components} {sorter : Sorter NodeEntry}
    (mostFree : parts.scheduler.targetStrategy = mostFreeSpaceStrategy sorter) {c : Scheduler.Config} {i : Nat}
    (reached : ∃ history, Reached history c.state.fsm) {chunkID : String} {live : List NodeEntry}
    (served : live ≠ []) {deficit : Int} (missing : 0 < deficit)
    (running : c.procs[i]? = some (scheduleRepairJobs parts.scheduler chunkID live deficit))
    {chunk : ChunkRecord (List String)} (stored : c.state.fsm.chunkRegistry.lookup chunkID = some chunk) :
    (EnoughRoom c.state.fsm live deficit (chunkBytes c.state.fsm chunkID) →
      TargetsHaveRoom parts c i (chunkBytes c.state.fsm chunkID)) ∧
    ((∀ id : String, chunkID ++ ":" ++ id ∉ c.state.pendingJobsSet) →
      TargetsHaveRoom parts c i (chunkBytes c.state.fsm chunkID) →
        EnoughRoom c.state.fsm live deficit (chunkBytes c.state.fsm chunkID)) := by
  constructor
  · exact targetsHaveRoom_of_enough mostFree reached missing running
  · intro idle roomy
    by_contra tight
    exact not_targetsHaveRoom mostFree reached missing running served stored idle tight roomy

def secondCopy : Scheduler.Config :=
  ⟨joinedLate, [scheduleRepairJobs twoCopies.scheduler "ck-1"
    [⟨"n1", "10.0.0.1:9000", .alive, 100000, 0, 0, 0, 0⟩] 1]⟩

theorem repair_target_room_iff_secondCopy : chunkBytes joinedLate.fsm "ck-1" = 5 ∧
    TargetsHaveRoom twoCopies secondCopy 0 (chunkBytes joinedLate.fsm "ck-1") := by
  obtain ⟨procs, _, sequential⟩ := joinedLate_reachable
  have before := reached_fsm twoCopies ⟨[], Reached.empty⟩ sequential
  have reached : ∃ history, Reached history secondCopy.state.fsm := before
  have running : secondCopy.procs[0]? = some (scheduleRepairJobs twoCopies.scheduler "ck-1"
      [⟨"n1", "10.0.0.1:9000", .alive, 100000, 0, 0, 0, 0⟩] 1) := rfl
  have enough : EnoughRoom joinedLate.fsm [⟨"n1", "10.0.0.1:9000", .alive, 100000, 0, 0, 0, 0⟩] 1
      (chunkBytes joinedLate.fsm "ck-1") := by
    intro _
    decide +kernel
  refine ⟨by decide +kernel, ?_⟩
  exact (repair_target_room_iff rfl reached (List.cons_ne_nil _ _) (by decide) running joinedLate_stored).1 enough

/-- After a file of five bytes is created, a heartbeat of `n2` says that it has three bytes left; the chunk
    is committed on `n1`. -/
def tightUpload : List (System × Label) × System :=
  let first := alone 0 (registerNode (newNode "n1" "10.0.0.1:9000")) System.empty
  let second := alone 0 (registerNode (newNode "n2" "10.0.0.2:9000")) first.2
  let created := alone 1 (Prog.propose newFile fun _ => Prog.done) second.2
  let filled := alone 2 (heartbeat ⟨"n2", 3, 0⟩ 10) created.2
  let written := alone 2 (Prog.act (.store "n1" "ck-1") fun _ => Prog.done) filled.2
  alone 3 (commitChunk twoCopies ⟨"ck-1", ["n1"], [7]⟩) written.2

theorem tightUpload_misplaced : Sequential twoCopies (fun _ _ _ => True) tightUpload.2 ∧
    tightUpload.2.fsm.chunkRegistry.lookup "ck-1" = some stored ∧
    chunkBytes tightUpload.2.fsm "ck-1" = 5 ∧
    tightUpload.2.fsm.repairJobRegistry.lookup "job-" =
      some ⟨"job-", "ck-1", "", false, "n1", "n2", .pending, 0, 3, 3⟩ ∧
    tightUpload.2.fsm.nodeRegistry.lookup "n2" = some ⟨"n2", "10.0.0.2:9000", .alive, 3, 0, 2, 0, 2⟩ ∧
    ∃ x ∈ tightUpload.1, ¬Roomy 5 x.1 x.2 := by
  have start := Sequential.empty twoCopies fun _ _ _ => True
  have one := start.andCall twoCopies 0
    (.component (.registerNode _ (newNode "n1" "10.0.0.1:9000") (newNode_inventory _ rfl)))
  have two := one.andCall twoCopies 0
    (.component (.registerNode _ (newNode "n2" "10.0.0.2:9000") (newNode_inventory _ rfl)))
  have three := two.andCall twoCopies 1 (.component (.client _ newFile rfl))
  have four := three.andCall twoCopies 2 (.heartbeat _ ⟨"n2", 3, 0⟩ 10)
  have five := four.andCall twoCopies 2 (.component (.store _ "n1" "ck-1"))
  have six := five.andCall twoCopies 3 (.component (.commitChunk _ ⟨"ck-1", ["n1"], [7]⟩))
  exact ⟨six, by decide +kernel, by decide +kernel, by decide +kernel, by decide +kernel, by decide +kernel⟩

end DistributedFs.Healing
