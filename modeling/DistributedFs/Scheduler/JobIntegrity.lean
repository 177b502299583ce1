import DistributedFs.Concurrency.RelyGuarantee
import DistributedFs.Fsm.Nodes
import DistributedFs.Scheduler.HeartbeatReads
import DistributedFs.Scheduler.NodeDeath

namespace DistributedFs.Scheduler

open Go Fsm MetadataFSM Healing Healing.Prog Reconcile Placement Concurrency

structure Grows (m later : FSM) : Prop where
  nodes : ∀ id, id ∈ m.nodeRegistry → id ∈ later.nodeRegistry
  chunks : ∀ id, id ∈ m.chunkRegistry → id ∈ later.chunkRegistry
  jobs : ∀ id, id ∈ m.repairJobRegistry → id ∈ later.repairJobRegistry

namespace Grows

theorem refl (m : FSM) : Grows m m := ⟨fun _ => id, fun _ => id, fun _ => id⟩

theorem trans {m mid later : FSM} (first : Grows m mid) (second : Grows mid later) : Grows m later where
  nodes id known := second.nodes id (first.nodes id known)
  chunks id known := second.chunks id (first.chunks id known)
  jobs id known := second.jobs id (first.jobs id known)

end Grows

theorem mem_handle_nodes {m : FSM} (orders : Nat → MapOrder) (cmd : Command) {id : String}
    (known : id ∈ m.nodeRegistry) : id ∈ (m.handle orders cmd).1.nodeRegistry := by
  cases cmd with
  | registerNode req =>
    simp only [handle, handleCmdRegisterNode, getNode]
    cases m.nodeRegistry.lookup req.nodeID with
    | none => exact Finmap.mem_insert.mpr (.inr known)
    | some node => exact Finmap.mem_insert.mpr (.inr (Finmap.mem_insert.mpr (.inr known)))
  | deregisterNode req | markNodeDead req | markNodeAlive req | updateNodeSpace req =>
    simp only [handle, handleCmdDeregisterNode, handleCmdMarkNodeDead, handleCmdMarkNodeAlive,
      handleCmdUpdateNodeSpace, updateNode, getNode]
    cases m.nodeRegistry.lookup req.nodeID with
    | none => exact known
    | some node => exact Finmap.mem_insert.mpr (.inr known)
  | _ =>
    rw [handle_nodeRegistry m orders rfl]
    exact known

theorem mem_handle_chunks {m : FSM} (orders : Nat → MapOrder) (cmd : Command) {id : String}
    (known : id ∈ m.chunkRegistry) : id ∈ (m.handle orders cmd).1.chunkRegistry := by
  have step := handle_step m orders cmd
  generalize (m.handle orders cmd).1 = after at step
  generalize (m.handle orders cmd).2 = result at step
  cases step with
  | createFile req newID fresh =>
    obtain ⟨chunk, found⟩ := Finmap.mem_iff.mp known
    rcases lookup_insertChunks m.chunkRegistry (chunkStubs req) id with ⟨record, -, -, here⟩ | ⟨-, same⟩
    · exact Finmap.mem_iff.mpr ⟨record, here⟩
    · exact Finmap.mem_iff.mpr ⟨chunk, same.trans found⟩
  | commitChunk | evict | markLost | addReplica => exact Finmap.mem_insert.mpr (.inr known)
  | _ => exact known

theorem FsmStep.grows {m after : FSM} {label : Label} (step : FsmStep m label after) : Grows m after := by
  refine ⟨?_, ?_, ?_⟩
  · cases step with
    | command cmd orders => exact fun id => mem_handle_nodes orders cmd
    | seen nodeID ts =>
      intro id known
      unfold updateLastSeen
      cases m.nodeRegistry.lookup nodeID with
      | none => exact known
      | some node => exact Finmap.mem_insert.mpr (.inr known)
    | same => exact fun _ known => known
  · cases step with
    | command cmd orders => exact fun id => mem_handle_chunks orders cmd
    | seen nodeID ts =>
      obtain ⟨registry, same⟩ := updateLastSeen_nodes_only m nodeID ts
      rw [same]
      exact fun id known => known
    | same => exact fun _ known => known
  · intro id known
    obtain ⟨job, found⟩ := Finmap.mem_iff.mp known
    rcases step.jobs.kept found with same | ⟨req, -, -, here⟩
    · exact Finmap.mem_iff.mpr ⟨job, same⟩
    · exact Finmap.mem_iff.mpr ⟨_, here⟩

def Pending (s : System) (nodeID jobID : String) : Prop := jobID ∈ (s.pendingJobs.lookup nodeID).getD []

structure KnownJob (m : FSM) (jobID : String) (job : RepairJob) : Prop where
  named : job.jobID = jobID
  chunk : job.chunkID ∈ m.chunkRegistry
  source : job.sourceNodeID ∈ m.nodeRegistry
  target : job.targetNodeID ∈ m.nodeRegistry
  copies : job.deleteSource = false

theorem KnownJob.grows {m later : FSM} {jobID : String} {job : RepairJob} (known : KnownJob m jobID job)
    (grows : Grows m later) : KnownJob later jobID job :=
  ⟨known.named, grows.chunks _ known.chunk, grows.nodes _ known.source, grows.nodes _ known.target, known.copies⟩

structure Bookkept (s : System) : Prop where
  keys : NodeKeys s.fsm
  jobs : ∀ jobID job, s.fsm.repairJobRegistry.lookup jobID = some job → KnownJob s.fsm jobID job
  pending : ∀ nodeID jobID, Pending s nodeID jobID →
    jobID ∈ s.fsm.repairJobRegistry ∧ nodeID ∈ s.fsm.nodeRegistry

def AddressSeen (seen : FSM → Prop) (nodeID addr : String) : Prop :=
  ∃ m node, seen m ∧ m.nodeRegistry.lookup nodeID = some node ∧ (nodeID ≠ "" → addr = node.address)

/-- An instruction that passes on a job as it was seen: to copy a known chunk between two known nodes, each
    under an address that it was seen to have. The three may have been seen at different times. -/
structure Addressed (seen : FSM → Prop) (r : Server.RepairInstruction) : Prop where
  job : ∃ m job, seen m ∧ m.repairJobRegistry.lookup r.jobId = some job ∧ KnownJob m r.jobId job ∧
    job.chunkID = r.chunkId ∧ job.sourceNodeID = r.sourceNodeId ∧ job.targetNodeID = r.targetNodeId
  source : AddressSeen seen r.sourceNodeId r.sourceAddr
  target : AddressSeen seen r.targetNodeId r.targetAddr
  copies : r.deleteSource = false

def Promised (seen : FSM → Prop) (s : System) : Label → Prop
  | .propose (.createRepairJob req) =>
    req.chunkID ∈ s.fsm.chunkRegistry ∧ req.sourceNode ∈ s.fsm.nodeRegistry ∧
      req.targetNode ∈ s.fsm.nodeRegistry ∧ req.sourceNode ≠ req.targetNode ∧ req.deleteSource = false
  | .propose (.updateRepairJob req) => req.sourceNode = "" ∨ req.sourceNode ∈ s.fsm.nodeRegistry
  | .publish job => job.jobID ∈ s.fsm.repairJobRegistry ∧ job.sourceNodeID ∈ s.fsm.nodeRegistry
  | .deliver _ instructions => ∀ r ∈ instructions, Addressed seen r
  | _ => True

def bookkeeping (seen : FSM → Prop) : Setting System Label Label.Result where
  exec label s result later := seen s.fsm ∧ Exec label s result later
  promise label s _ _ := Promised seen s label
  rely s t := Grows s.fsm t.fsm ∧ (Bookkept s → Bookkept t)
  refl _ := ⟨.refl _, id⟩
  trans first second := ⟨first.1.trans second.1, second.2 ∘ first.2⟩

section Kept

variable {seen : FSM → Prop} {label : Label} {s later : System} {result : label.Result}

theorem exec_nodeKeys (ran : Exec label s result later) (keys : NodeKeys s.fsm) : NodeKeys later.fsm := by
  have step := exec_fsmStep ran
  generalize later.fsm = after at step
  cases step with
  | command cmd orders => exact handle_nodeKeys keys orders cmd
  | seen nodeID ts =>
    intro id node found
    obtain ⟨old, before, same, -⟩ := lookup_updateLastSeen found
    exact same.trans (keys id old before)
  | same => exact keys

theorem exec_knownJobs (ran : Exec label s result later) (promised : Promised seen s label)
    (jobs : ∀ jobID job, s.fsm.repairJobRegistry.lookup jobID = some job → KnownJob s.fsm jobID job)
    (jobID : String) (job : RepairJob) (found : later.fsm.repairJobRegistry.lookup jobID = some job) :
    KnownJob later.fsm jobID job := by
  have step := exec_fsmStep ran
  have grows := step.grows
  rcases step.jobs.origin found with old | ⟨req, rfl, rfl, rfl⟩ | ⟨req, old, rfl, rfl, before, rfl⟩
  · exact (jobs jobID job old).grows grows
  · obtain ⟨chunk, source, target, -, copies⟩ := promised
    exact KnownJob.grows ⟨rfl, chunk, source, target, copies⟩ grows
  · have known := (jobs _ old before).grows grows
    refine ⟨known.named, known.chunk, ?_, known.target, known.copies⟩
    unfold RepairJob.updated
    dsimp only
    split
    · rename_i given
      rcases promised with none | source
      · exact absurd none given
      · exact grows.nodes _ source
    · exact known.source

theorem mem_appendUnique {values : List String} {v x : String} :
    x ∈ System.appendUnique values v ↔ x ∈ values ∨ x = v := by
  unfold System.appendUnique
  split
  · rename_i listed
    exact ⟨.inl, fun either => either.elim id fun same => same ▸ listed⟩
  · simp

theorem pending_publish {job : RepairJob} {nodeID jobID : String} :
    Pending (s.publish job) nodeID jobID ↔
      Pending s nodeID jobID ∨ (nodeID = job.sourceNodeID ∧ jobID = job.jobID) := by
  unfold Pending System.publish
  dsimp only
  rw [GoMap.lookup_insert]
  split
  · rename_i same
    subst same
    simp [mem_appendUnique]
  · rename_i other
    simp [other]

theorem pendingFor_retire (s : System) (node done nodeID : String) :
    ((s.retire node done).pendingJobs.lookup nodeID).getD [] =
      if nodeID = node then ((s.pendingJobs.lookup nodeID).getD []).erase done
      else (s.pendingJobs.lookup nodeID).getD [] := by
  unfold System.retire
  cases found : s.pendingJobs.lookup node with
  | none =>
    dsimp only
    by_cases same : nodeID = node
    · rw [if_pos same, same, found]
      rfl
    · rw [if_neg same]
  | some jobs =>
    dsimp only
    by_cases same : nodeID = node
    · subst same
      rw [if_pos rfl, found]
      split
      · rename_i empty
        simpa using empty.symm
      · simp
    · rw [if_neg same]
      split
      · rw [Finmap.lookup_erase_ne same]
      · rw [GoMap.lookup_insert, if_neg same]

theorem pending_of_retire {node done nodeID jobID : String} (pending : Pending (s.retire node done) nodeID jobID) :
    Pending s nodeID jobID := by
  unfold Pending at *
  rw [pendingFor_retire] at pending
  split at pending
  · exact List.mem_of_mem_erase pending
  · exact pending

theorem exec_pending (ran : Exec label s result later) {nodeID jobID : String}
    (pending : Pending later nodeID jobID) :
    Pending s nodeID jobID ∨ ∃ job, label = .publish job ∧ nodeID = job.sourceNodeID ∧ jobID = job.jobID := by
  cases ran with
  | publish _ job =>
    rcases pending_publish.mp pending with before | same
    · exact .inl before
    · exact .inr ⟨job, rfl, same⟩
  | retire _ node done => exact .inl (pending_of_retire pending)
  | enqueue _ queued =>
    unfold System.enqueue at pending
    split at pending
    · exact .inl pending
    · exact .inl pending
  | _ => exact .inl pending

theorem exec_bookkeeping (acted : (bookkeeping seen).exec label s result later)
    (promised : Promised seen s label) : (bookkeeping seen).rely s later := by
  obtain ⟨-, ran⟩ := acted
  have grows := (exec_fsmStep ran).grows
  refine ⟨grows, fun kept => ⟨exec_nodeKeys ran kept.keys, exec_knownJobs ran promised kept.jobs, ?_⟩⟩
  intro nodeID jobID pending
  rcases exec_pending ran pending with before | ⟨job, rfl, rfl, rfl⟩
  · obtain ⟨onRecord, registered⟩ := kept.pending nodeID jobID before
    exact ⟨grows.jobs _ onRecord, grows.nodes _ registered⟩
  · exact ⟨grows.jobs _ promised.1, grows.nodes _ promised.2⟩

end Kept

section Programs

variable {seen : FSM → Prop} {s : System}

theorem keeps_seen {next : FSM → MapOrder → Prog}
    (rest : ∀ t order, (bookkeeping seen).rely s t → seen t.fsm → (bookkeeping seen).Keeps (next t.fsm order) t) :
    (bookkeeping seen).Keeps (look next) s := by
  intro met others result after acted
  obtain ⟨known, ran⟩ := acted
  cases ran with
  | look _ order => exact ⟨trivial, rest met order others known⟩

theorem keeps_look {next : FSM → MapOrder → Prog}
    (rest : ∀ t order, (bookkeeping seen).rely s t → (bookkeeping seen).Keeps (next t.fsm order) t) :
    (bookkeeping seen).Keeps (look next) s := keeps_seen fun t order others _ => rest t order others

theorem keeps_act {label : Label} {next : label.Result → Prog}
    (promised : ∀ t, (bookkeeping seen).rely s t → Promised seen t label)
    (rest : ∀ t result, (bookkeeping seen).rely s t → (bookkeeping seen).Keeps (next result) t) :
    (bookkeeping seen).Keeps (act label next) s :=
  Setting.Keeps.act exec_bookkeeping (fun t _ _ others _ => promised t others) rest

theorem keeps_clock {next : Time → Prog}
    (rest : ∀ t now, (bookkeeping seen).rely s t → (bookkeeping seen).Keeps (next now) t) :
    (bookkeeping seen).Keeps (clock next) s := keeps_act (fun _ _ => trivial) rest

structure Located (s : System) (chunkID : String) (live : List NodeEntry) : Prop where
  kept : Bookkept s
  chunk : chunkID ∈ s.fsm.chunkRegistry
  nodes : ∀ node ∈ live, node.nodeID ∈ s.fsm.nodeRegistry

theorem Located.rely {t : System} {chunkID : String} {live : List NodeEntry} (located : Located s chunkID live)
    (others : (bookkeeping seen).rely s t) : Located t chunkID live :=
  ⟨others.2 located.kept, others.1.chunks _ located.chunk, fun node member => others.1.nodes _ (located.nodes node member)⟩

theorem mem_of_status {m : FSM} {id : String} {status : NodeStatus} (known : statusOf m id = some status) :
    id ∈ m.nodeRegistry := by
  obtain ⟨node, found, -⟩ := Option.map_eq_some_iff.mp known
  exact Finmap.mem_iff.mpr ⟨node, found⟩

theorem located_of_serving (kept : Bookkept s) {chunkID : String} {live : List NodeEntry}
    (serving : Serving s.fsm chunkID live) : Located s chunkID live := by
  obtain ⟨all, found, listed⟩ := serving
  unfold getChunkLocations at found
  cases chunk : s.fsm.getChunk chunkID with
  | error err => simp [chunk] at found
  | ok record =>
    simp only [chunk, Except.ok.injEq] at found
    subst found
    refine ⟨kept, Finmap.mem_iff.mpr ⟨record, (getChunk_ok _).mp chunk⟩, fun node member => ?_⟩
    have listed : node.nodeID ∈ (liveEntries s.fsm.nodeRegistry record.replicas).map NodeEntry.nodeID :=
      List.mem_map_of_mem (listed node member)
    rw [liveEntries_ids kept.keys] at listed
    obtain ⟨-, live⟩ := List.mem_filter.mp listed
    cases known : statusOf s.fsm node.nodeID with
    | none => simp [known] at live
    | some status => exact mem_of_status known

theorem Chosen.known {rs : RepairScheduler} (target : rs.targetStrategy.Sound) {m : FSM} (keys : NodeKeys m)
    {chunkID : String} {live : List NodeEntry} {node : NodeEntry} (chosen : Chosen rs chunkID live m node) :
    node.nodeID ∈ m.nodeRegistry ∧ node.nodeID ∉ live.map NodeEntry.nodeID := by
  obtain ⟨order, size, deficit, nodes, picked, member⟩ := chosen.picked
  have candidate := (target.chosen _ _ _ _ _ _ picked).1.subset member
  have free : node ∈ filterNodes (m.getLiveNodes order) live := by
    unfold candidates filterByMinSpace at candidate
    split at candidate
    · exact candidate
    · exact List.mem_of_mem_filter candidate
  unfold filterNodes at free
  obtain ⟨alive, excluded⟩ : node ∈ m.getLiveNodes order ∧ node.nodeID ∉ live.map NodeEntry.nodeID := by
    simpa using List.mem_filter.mp free
  exact ⟨mem_of_status ((mem_liveNodes keys order _).mp (List.mem_map_of_mem alive)), excluded⟩

theorem createJob_keeps {chunkID source target : String} (chunk : chunkID ∈ s.fsm.chunkRegistry)
    (from_ : source ∈ s.fsm.nodeRegistry) (to_ : target ∈ s.fsm.nodeRegistry) (other : source ≠ target) :
    (bookkeeping seen).Keeps (createJob chunkID source target false) s := by
  refine keeps_act (fun _ _ => trivial) fun t jid first => keeps_clock fun u createdAt second => ?_
  have grows := first.1.trans second.1
  refine keeps_act (fun v third => ?_) fun v answer third => ?_
  · have more := grows.trans third.1
    exact ⟨more.chunks _ chunk, more.nodes _ from_, more.nodes _ to_, other, rfl⟩
  · cases answer with
    | some err => trivial
    | none => exact keeps_act (fun _ _ => trivial) fun _ _ _ => trivial

theorem scheduleCopy_keeps {chunkID source target : String} (chunk : chunkID ∈ s.fsm.chunkRegistry)
    (from_ : source ∈ s.fsm.nodeRegistry) (to_ : target ∈ s.fsm.nodeRegistry) (other : source ≠ target) :
    (bookkeeping seen).Keeps (scheduleCopy chunkID source target) s := by
  refine keeps_act (fun _ _ => trivial) fun t pending since => ?_
  cases pending with
  | true => trivial
  | false => exact createJob_keeps (since.1.chunks _ chunk) (since.1.nodes _ from_) (since.1.nodes _ to_) other

end Programs

section Calls

variable {seen : FSM → Prop} {s : System}

theorem KnownJob.addressed {m : FSM} {jobID : String} {job : RepairJob} (known : KnownJob m jobID job)
    (found : m.repairJobRegistry.lookup jobID = some job) (here : seen m) {sourceAddr targetAddr : String}
    (source : AddressSeen seen job.sourceNodeID sourceAddr) (target : AddressSeen seen job.targetNodeID targetAddr) :
    Addressed seen ⟨job.jobID, job.chunkID, job.sourceNodeID, sourceAddr, job.targetNodeID, targetAddr,
      job.deleteSource⟩ := by
  refine ⟨⟨m, job, here, ?_, ?_, rfl, rfl, rfl⟩, source, target, known.copies⟩
  · rw [known.named]
    exact found
  · rw [known.named]
    exact known

theorem addressSeen_of_mem {m : FSM} {nodeID : String} (known : nodeID ∈ m.nodeRegistry) (here : seen m) :
    AddressSeen seen nodeID (Server.instructionAddr m nodeID) := by
  obtain ⟨node, found⟩ := Finmap.mem_iff.mp known
  refine ⟨m, node, here, found, fun named => ?_⟩
  unfold Server.instructionAddr getNode
  rw [if_pos named, found]

theorem build_addressed {m : FSM} {pjobs : List String} (here : seen m)
    (onRecord : ∀ jobID ∈ pjobs, ∃ job, m.repairJobRegistry.lookup jobID = some job ∧ KnownJob m jobID job) :
    ∀ r ∈ Server.buildRepairInstructions m pjobs, Addressed seen r := by
  intro r member
  obtain ⟨jobID, listed, built⟩ := List.mem_filterMap.mp member
  obtain ⟨job, found, known⟩ := onRecord jobID listed
  rw [getRepairJob_ok found] at built
  cases built
  exact known.addressed found here (addressSeen_of_mem known.source here) (addressSeen_of_mem known.target here)

theorem answerHeartbeat_keeps (kept : Bookkept s) (nodeID : String) :
    (bookkeeping seen).Keeps (answerHeartbeat nodeID) s := by
  intro met others pjobs after acted
  obtain ⟨-, ran⟩ := acted
  cases ran with
  | pendingFor =>
    refine ⟨trivial, keeps_seen fun u _ first known => keeps_act (fun _ _ => ?_) fun _ _ _ => trivial⟩
    have before := others.2 kept
    refine build_addressed known fun jobID member => ?_
    obtain ⟨job, found⟩ := Finmap.mem_iff.mp (first.1.jobs _ (before.pending nodeID jobID member).1)
    exact ⟨job, found, (first.2 before).jobs jobID job found⟩

section Reads

theorem readAddr_keeps {nodeID : String} {next : String → Prog} (known : nodeID ∈ s.fsm.nodeRegistry)
    (unnamed : nodeID = "" → AddressSeen seen nodeID "")
    (rest : ∀ t addr, (bookkeeping seen).rely s t → AddressSeen seen nodeID addr →
      (bookkeeping seen).Keeps (next addr) t) : (bookkeeping seen).Keeps (readAddr nodeID next) s := by
  unfold readAddr
  split
  · refine keeps_seen fun t _ others here => ?_
    obtain ⟨node, found⟩ := Finmap.mem_iff.mp (others.1.nodes _ known)
    simp only [getNode, found]
    exact rest t node.address others ⟨t.fsm, node, here, found, fun _ => rfl⟩
  · rename_i empty
    exact rest s "" ((bookkeeping seen).refl s) (unnamed (not_not.mp empty))

theorem unnamed_seen {m : FSM} {nodeID : String} (known : nodeID ∈ m.nodeRegistry) (here : seen m)
    (empty : nodeID = "") : AddressSeen seen nodeID "" := by
  obtain ⟨node, found⟩ := Finmap.mem_iff.mp known
  exact ⟨m, node, here, found, fun named => absurd empty named⟩

theorem readInstruction_keeps {jobID : String} {next : Option Server.RepairInstruction → Prog} (kept : Bookkept s)
    (onRecord : jobID ∈ s.fsm.repairJobRegistry)
    (rest : ∀ t r, (bookkeeping seen).rely s t → Addressed seen r → (bookkeeping seen).Keeps (next (some r)) t) :
    (bookkeeping seen).Keeps (readInstruction jobID next) s := by
  refine keeps_seen fun t _ first here => ?_
  obtain ⟨job, found⟩ := Finmap.mem_iff.mp (first.1.jobs _ onRecord)
  have known := (first.2 kept).jobs jobID job found
  rw [getRepairJob_ok found]
  refine readAddr_keeps known.source (unnamed_seen known.source here) fun u sourceAddr second source => ?_
  refine readAddr_keeps (second.1.nodes _ known.target) (unnamed_seen known.target here)
    fun v targetAddr third target => ?_
  have since := (bookkeeping seen).trans first ((bookkeeping seen).trans second third)
  exact rest v _ since (known.addressed found here source target)

theorem readInstructions_keeps {next : List Server.RepairInstruction → Prog} (pjobs : List String)
    (ins : List Server.RepairInstruction) (kept : Bookkept s)
    (onRecord : ∀ jobID ∈ pjobs, jobID ∈ s.fsm.repairJobRegistry) (soFar : ∀ r ∈ ins, Addressed seen r)
    (rest : ∀ t ins, (bookkeeping seen).rely s t → (∀ r ∈ ins, Addressed seen r) →
      (bookkeeping seen).Keeps (next ins) t) : (bookkeeping seen).Keeps (readInstructions next pjobs ins) s := by
  induction pjobs generalizing s ins with
  | nil => exact rest s ins ((bookkeeping seen).refl s) soFar
  | cons jobID others ih =>
    refine readInstruction_keeps kept (onRecord jobID (by simp)) fun t r since addressed => ?_
    refine ih _ (since.2 kept) (fun other member => since.1.jobs _ (onRecord other (by simp [member]))) ?_ ?_
    · intro other member
      rcases List.mem_append.mp member with before | new
      · exact soFar other before
      · rw [List.mem_singleton.mp new]
        exact addressed
    · exact fun u ins more => rest u ins ((bookkeeping seen).trans since more)

theorem answerReads_keeps (kept : Bookkept s) (nodeID : String) : (bookkeeping seen).Keeps (answerReads nodeID) s := by
  intro met others pjobs after acted
  obtain ⟨-, ran⟩ := acted
  cases ran with
  | pendingFor =>
    have before := others.2 kept
    refine ⟨trivial, readInstructions_keeps _ [] before ?_ (by simp) fun t ins _ addressed => ?_⟩
    · exact fun jobID member => (before.pending nodeID jobID member).1
    · exact keeps_act (fun _ _ => addressed) fun _ _ _ => trivial

theorem heartbeatReads_keeps (kept : Bookkept s) (req : Server.HeartbeatRequest) (count : Nat) :
    (bookkeeping seen).Keeps (heartbeatReads req count) s := by
  refine keeps_look fun t _ first => ?_
  cases t.fsm.getNode req.nodeId with
  | error err => trivial
  | ok node =>
    refine keeps_clock fun u _ second => keeps_act (fun _ _ => trivial) fun v _ third => ?_
    have here := third.2 (second.2 (first.2 kept))
    split
    · refine keeps_clock fun w _ fourth => keeps_act (fun _ _ => trivial) fun x _ fifth => ?_
      exact answerReads_keeps (fifth.2 (fourth.2 here)) req.nodeId
    · exact answerReads_keeps here req.nodeId

end Reads

theorem command_keeps {cmd : Command} (other : jobCommand cmd = false) :
    (bookkeeping seen).Keeps (propose cmd fun _ => done) s := by
  refine keeps_act (fun _ _ => ?_) fun _ _ _ => trivial
  cases cmd with
  | createRepairJob | updateRepairJob => cases other
  | _ => trivial

end Calls

section Runs

variable {seen : FSM → Prop} {parts : Components} (source : parts.scheduler.sourceStrategy.Sound)
  (target : parts.scheduler.targetStrategy.Sound)

theorem Bookkept.congr {s later : System} (kept : Bookkept s) (fsm : later.fsm = s.fsm)
    (pending : ∀ nodeID jobID, Pending later nodeID jobID → Pending s nodeID jobID) : Bookkept later := by
  refine ⟨by rw [fsm]; exact kept.keys, by rw [fsm]; exact kept.jobs, fun nodeID jobID waits => ?_⟩
  rw [fsm]
  exact kept.pending nodeID jobID (pending nodeID jobID waits)

theorem spawn_pending {s later : System} {prog : Prog} (spawned : Spawn parts s prog later) {nodeID jobID : String}
    (pending : Pending later nodeID jobID) : Pending s nodeID jobID := by
  cases spawned with
  | component call => cases call <;> exact pending
  | newLeader => simp [Pending] at pending
  | _ => exact pending

theorem spawn_rely {s later : System} {prog : Prog} (spawned : SpawnReads parts s prog later) :
    (bookkeeping seen).rely s later := by
  have fsm := spawnReads_fsm parts spawned
  refine ⟨by rw [fsm]; exact .refl _, fun kept => ?_⟩
  cases spawned with
  | call spawned => exact kept.congr fsm fun _ _ => spawn_pending spawned
  | heartbeat => exact kept

theorem looks_kept :
    Looks ((bookkeeping seen).keeping Bookkept) (fun s m => m = s.1.fsm ∧ seen m) where
  look {s _} _ rest := keeps_seen fun t order others here => rest ⟨t, others.2 s.2⟩ t.fsm order others ⟨rfl, here⟩

theorem takes_promised {s : {s // Bookkept s}} (label : Label)
    (promised : ∀ t : {t // Bookkept t}, (bookkeeping seen).rely s t → Promised seen t label) :
    ((bookkeeping seen).keeping Bookkept).Takes s label :=
  Setting.takes exec_bookkeeping (fun others kept => others.2 kept) fun t others _ _ _ => promised t others

theorem executeJob_kept (s : {s // Bookkept s}) (jobID : String) :
    ((bookkeeping seen).keeping Bookkept).holds s (executeJob jobID) := by
  refine looks_kept.executeJob (fun t => takes_promised .clock fun _ _ => trivial) ?_ ?_
  · rintro t m job _ ⟨rfl, -⟩ read
    have found := lookup_of_getRepairJob read
    have known := t.2.jobs jobID job found
    refine takes_promised _ fun u others => ⟨others.1.jobs _ ?_, others.1.nodes _ known.source⟩
    exact Finmap.mem_iff.mpr ⟨job, found⟩
  · exact fun t req _ _ _ _ sourceless => takes_promised _ fun _ _ => .inl sourceless

include source

theorem recoverStuckJobs_kept (s : {s // Bookkept s}) :
    ((bookkeeping seen).keeping Bookkept).holds s (recoverStuckJobs parts.scheduler) := by
  refine looks_kept.look (fun _ _ _ => rfl) fun t m order _ _ => ?_
  refine looks_kept.recoverJobs (fun t => takes_promised .clock fun _ _ => trivial)
    (fun t => takes_promised .cancelled fun _ _ => trivial) _ (fun _ _ t _ => takes_promised _ fun _ _ => trivial) ?_
  rintro job _ u v m live req _ ⟨rfl, -⟩ found served since _ _ _ primary
  have located := located_of_serving u.2 ⟨live, found, fun _ member => member⟩
  refine takes_promised _ fun w others => .inr ?_
  rw [primary]
  have member := source.primary live fun empty => served (congrArg List.length empty)
  exact others.1.nodes _ (since.1.nodes _ (located.nodes _ member))

include target

theorem kept_rules :
    Rules ((bookkeeping seen).keeping Bookkept) (fun s m => m = s.1.fsm ∧ seen m) parts.scheduler :=
  { Setting.sequences exec_bookkeeping (fun others kept => others.2 kept), looks_kept with
    plain := by
      intro s label plain
      refine takes_promised label fun t _ => ?_
      cases label with
      | propose cmd =>
        cases cmd with
        | createRepairJob => exact plain.elim
        | updateRepairJob req => exact .inl plain.2.2
        | _ => trivial
      | publish | deliver => exact plain.elim
      | _ => trivial
    copies := by
      rintro s t u m now chunkID live node ⟨rfl, -⟩ serving (first : (bookkeeping seen).rely s t) ⟨rfl, -⟩ chosen second
      have located := (located_of_serving s.2 serving).rely first
      have primary := source.primary live fun empty => chosen.served (congrArg List.length empty)
      obtain ⟨known, excluded⟩ := chosen.known target t.2.keys
      refine scheduleCopy_keeps (second.1.chunks _ located.chunk) (second.1.nodes _ (located.nodes _ primary))
        (second.1.nodes _ known) fun same => excluded ?_
      rw [← same]
      exact List.mem_map_of_mem primary
    answers := fun s => answerHeartbeat_keeps s.2 }

theorem spawn_keeps {s later : System} {prog : Prog} (spawned : Spawn parts s prog later) (kept : Bookkept s) :
    (bookkeeping seen).Keeps prog later := by
  have here : Bookkept later := kept.congr (spawn_fsm parts spawned) fun _ _ => spawn_pending spawned
  rcases (kept_rules source target).spawned (c := ⟨later, here⟩) spawned
    (fun _ _ => takes_promised _ fun _ _ => trivial) (fun jobID _ _ => executeJob_kept _ jobID)
    (recoverStuckJobs_kept source _) with keeps | ⟨cmd, other, -, rfl⟩
  · exact keeps
  · exact command_keeps other

theorem spawnReads_keeps {s later : System} {prog : Prog} (spawned : SpawnReads parts s prog later)
    (kept : Bookkept s) : (bookkeeping seen).Keeps prog later := by
  cases spawned with
  | call spawned => exact spawn_keeps source target spawned kept
  | heartbeat req count => exact heartbeatReads_keeps kept req count

omit source target in
theorem bookkept_empty : Bookkept System.empty where
  keys id node found := by simp [System.empty, newEmptyMetadataFsm] at found
  jobs jobID job found := by simp [System.empty, newEmptyMetadataFsm] at found
  pending nodeID jobID waits := by simp [Pending, System.empty] at waits

/-- The rule for programs side by side, for a run of the leader that has met only the states `seen`. -/
theorem run_bookkept (seen : FSM → Prop) {c : Config} {events : List (Event System Label Label.Result)}
    (run : Steps (worldReads parts) empty events c) (met : ∀ e ∈ events, seen e.before.fsm) :
    Bookkept c.state ∧ ∀ e ∈ events, Promised seen e.before e.label := by
  have acted : ∀ e ∈ events, (bookkeeping seen).exec e.label e.before e.result e.after :=
    fun e member => ⟨met e member, run.exec e member⟩
  obtain ⟨kept, -, promises⟩ := Setting.parallel exec_bookkeeping (fun others kept => others.2 kept)
    (fun spawned kept => ⟨spawn_rely spawned, spawnReads_keeps source target spawned kept⟩) run acted
    bookkept_empty (by simp [empty])
  exact ⟨kept, fun e member => (promises e member).2⟩

def Met (events : List (Event System Label Label.Result)) (m : FSM) : Prop := ∃ e ∈ events, e.before.fsm = m

/-- In every run, every repair job on record copies a known chunk from one known node to another, every
    job that waits for a heartbeat is on record, a job is only created between two different nodes, and
    what a heartbeat hands out was addressed by what the run had met by then. -/
theorem repair_instructions_addressed {c : Config} {events : List (Event System Label Label.Result)}
    (run : Steps (worldReads parts) empty events c) :
    Bookkept c.state ∧
      (∀ e ∈ events, ∀ req, e.label = .propose (.createRepairJob req) → req.sourceNode ≠ req.targetNode) ∧
      ∀ pre e post nodeID instructions, events = pre ++ e :: post → e.label = .deliver nodeID instructions →
        ∀ r ∈ instructions, Addressed (Met (pre ++ [e])) r := by
  obtain ⟨kept, promises⟩ := run_bookkept source target (fun _ => True) run fun _ _ => trivial
  refine ⟨kept, fun e member req made => ?_, fun pre e post nodeID instructions split handed => ?_⟩
  · have promised := promises e member
    rw [made] at promised
    exact promised.2.2.2.1
  · -- a prefix of the run is a run, and can speak only of what was met by its end
    obtain ⟨mid, upto⟩ := run.through split
    obtain ⟨-, promises⟩ := run_bookkept source target (Met (pre ++ [e])) upto fun other member => ⟨other, member, rfl⟩
    have promised := promises e (by simp)
    rw [handed] at promised
    exact promised

end Runs

def handedOut : List (System × Label) × System := alone 7 (heartbeatReads ⟨"n1", 900, 1⟩ 1) executed.2

deriving instance DecidableEq for Server.RepairInstruction

def deliveryOf : Label → Option (String × List Server.RepairInstruction)
  | .deliver nodeID instructions => some (nodeID, instructions)
  | _ => none

theorem deliveryOf_eq_some {label : Label} {nodeID : String} {instructions : List Server.RepairInstruction}
    (handed : deliveryOf label = some (nodeID, instructions)) : label = .deliver nodeID instructions := by
  cases label with
  | deliver => cases handed; rfl
  | _ => cases handed

def handedInstruction : Server.RepairInstruction :=
  ⟨"job-", "ck-1", "n1", "10.0.0.1:9000", "n2", "10.0.0.2:9000", false⟩

theorem handedOut_last : handedOut.1.getLast?.bind (deliveryOf ·.2) = some ("n1", [handedInstruction]) := by
  decide +kernel

theorem repair_instructions_addressed_handedOut :
    ∃ c pre e, Steps (worldReads twoCopies) empty (pre ++ [e]) c ∧
      e.label = .deliver "n1" [handedInstruction] ∧ Bookkept c.state ∧
      Addressed (Met (pre ++ [e])) handedInstruction := by
  obtain ⟨procs, -, reached⟩ := executed_reachable
  obtain ⟨events, before⟩ := reached.steps
  obtain ⟨more, later, run, trace, -⟩ :=
    (steps_reads twoCopies before).call (execFresh_exec 7) (.heartbeat _ ⟨"n1", 900, 1⟩ 1)
  have last : (more.map fun e => (e.before, e.label)).getLast?.bind (deliveryOf ·.2) =
      some ("n1", [handedInstruction]) := by
    rw [trace]
    exact handedOut_last
  rw [List.getLast?_map] at last
  obtain ⟨pair, found, handed⟩ := Option.bind_eq_some_iff.mp last
  obtain ⟨e, ends, rfl⟩ := Option.map_eq_some_iff.mp found
  obtain ⟨own, rfl⟩ := List.getLast?_eq_some_iff.mp ends
  have label := deliveryOf_eq_some handed
  rw [← List.append_assoc] at run
  obtain ⟨kept, -, addressed⟩ := repair_instructions_addressed (Placement.leastLoadedStrategy_sound _)
    (Placement.mostFreeSpaceStrategy_sound _) run
  exact ⟨_, events ++ own, e, run, label, kept, addressed _ e [] "n1" _ rfl label _ (by simp)⟩

end DistributedFs.Scheduler
