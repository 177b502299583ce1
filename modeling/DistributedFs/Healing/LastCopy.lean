import DistributedFs.Fsm.Integrity
import DistributedFs.Reconcile.Reconciler
import DistributedFs.Server.NodeHandler
import DistributedFs.Watcher.NodeWatcher

namespace DistributedFs.Healing

open Go Fsm MetadataFSM Prog Scheduler Reconcile

structure Components where
  scheduler : RepairScheduler
  replicationFactor : Int
  suspectTimeout : Duration

variable (parts : Components)

/-- `CommitChunk`, as `PutChunk` calls it on the metadata leader. -/
def commitChunk (req : CommandCommitChunk) : Prog :=
  propose (.commitChunk req) fun
    | some _ => done
    | none =>
      look fun m _ =>
        match m.getChunkLocations req.chunkID with
        | .error _ => done
        | .ok locations =>
          if locations.length < parts.replicationFactor then
            scheduleRepairForChunk parts.scheduler req.chunkID
          else done

def registerNode (req : Server.RegisterNodeRequest) : Prog :=
  clock fun createdAt =>
    propose (.registerNode ⟨req.nodeId, req.address, req.freeSpace.toUInt64,
      UInt64.ofNat req.chunkIds.length, createdAt⟩) fun
      | some _ => done
      | none => act (.arm req.nodeId req.chunkIds) fun _ => done

def deregisterNode (nodeID : String) : Prog :=
  look fun m _ =>
    match m.getNode nodeID with
    | .error _ => done
    | .ok _ =>
      clock fun updatedAt => propose (.deregisterNode ⟨nodeID, updatedAt⟩) fun
        | some _ => done
        | none => triggerRepair parts.scheduler nodeID

def sweep : Prog :=
  clock fun now => look fun m order =>
    forEach (fun nodeID => propose (.markNodeDead ⟨nodeID, now⟩) fun
      | some _ => done
      | none => triggerRepair parts.scheduler nodeID)
      (Watcher.staleNodes parts.suspectTimeout now (m.getAllNodes order))

def reportRepairResult (nodeID jobID : String) (success : Bool) : Prog :=
  clock fun updatedAt =>
    propose (.updateRepairJob
      { jobID := jobID, status := if success then .done else .failed, updatedAt := updatedAt }) fun
      | some _ => done
      | none => onJobComplete parts.scheduler nodeID jobID success

def fileCommand : Command → Bool
  | .createFile _ | .commitFile _ | .deleteFile _ => true
  | _ => false

inductive Spawn : System → Prog → System → Prop where
  | client (s : System) (cmd : Command) (onFiles : fileCommand cmd = true) :
    Spawn s (propose cmd fun _ => done) s
  | store (s : System) (nodeID chunkID : String) :
    Spawn s (act (.store nodeID chunkID) fun _ => done) s
  | commitChunk (s : System) (req : CommandCommitChunk) : Spawn s (commitChunk parts req) s
  | registerNode (s : System) (req : Server.RegisterNodeRequest)
    (inventory : ∀ cid, cid ∈ req.chunkIds ↔ cid ∈ s.disks req.nodeId) :
    Spawn s (registerNode req) s
  | deregisterNode (s : System) (nodeID : String) : Spawn s (deregisterNode parts nodeID) s
  | sweep (s : System) : Spawn s (sweep parts) s
  | executeJob (s : System) (jobID : String) (rest : List String) (next : s.jobs = jobID :: rest) :
    Spawn s (executeJob jobID) { s with jobs := rest }
  | reportRepairResult (s : System) (nodeID jobID : String) (success : Bool) :
    Spawn s (reportRepairResult parts nodeID jobID success) s
  | reconcile (s : System) (nodeID : String) (reported : List String)
    (timer : (nodeID, reported) ∈ s.armed) :
    Spawn s (reconcileNode parts.scheduler parts.replicationFactor nodeID reported)
      { s with armed := s.armed.erase (nodeID, reported) }
  | stopTimer (s : System) (nodeID : String) (reported : List String) :
    Spawn s done { s with armed := s.armed.erase (nodeID, reported) }
  -- a storage server binds an address, or leaves it
  | listen (s : System) (addr : String) (server : Option String) :
    Spawn s done { s with listening := Function.update s.listening addr server }

def world : Concurrency.World System Label Label.Result := ⟨Exec, Spawn parts⟩

abbrev Run := Concurrency.Run (world parts) System.empty

def Committed (m : FSM) (cid : String) (chunk : ChunkRecord (List String)) : Prop :=
  m.chunkRegistry.lookup cid = some chunk ∧ chunk.status = .complete ∧
    ∃ file, m.fileIndex.lookup chunk.fileID = some file ∧ file.status ≠ .deleted

def HeldBeside (s : System) (cid : String) (chunk : ChunkRecord (List String))
    (except : List String) : Prop :=
  ∃ holder ∈ chunk.replicas, holder ∉ except ∧ cid ∈ s.disks holder

/-- The node that a `DeleteChunk` call is meant for, and the one whose server it reaches. -/
def callees (s : System) (nodeID addr : String) : List String :=
  nodeID :: (s.listening addr).toList

def Careful (s : System) : Label → Prop
  | .propose (.evictChunkFromNode req) =>
    ∀ chunk, Committed s.fsm req.chunkID chunk → req.nodeID ∈ chunk.replicas →
      HeldBeside s req.chunkID chunk [req.nodeID]
  | .deleteChunk nodeID addr chunkID =>
    ∀ chunk, Committed s.fsm chunkID chunk → ∀ node ∈ callees s nodeID addr, node ∉ chunk.replicas
  | .propose (.commitChunk req) =>
    ∃ primary ∈ req.nodeIDs.head?, primary ∈ s.fsm.nodeRegistry ∧ req.chunkID ∈ s.disks primary
  | .propose (.commitFile req) =>
    ∀ file, s.fsm.fileIndex.lookup req.fileID = some file → file.status ≠ .deleted
  | _ => True

instance (m : FSM) (cid : String) (chunk : ChunkRecord (List String)) :
    Decidable (Committed m cid chunk) :=
  inferInstanceAs (Decidable (_ ∧ _ ∧ ∃ file ∈ m.fileIndex.lookup chunk.fileID, file.status ≠ .deleted))

instance (s : System) (cid : String) (chunk : ChunkRecord (List String)) (except : List String) :
    Decidable (HeldBeside s cid chunk except) :=
  inferInstanceAs (Decidable (∃ holder ∈ chunk.replicas, _))

instance (m : FSM) (cid : String) (P : ChunkRecord (List String) → Prop) [DecidablePred P] :
    Decidable (∀ chunk, Committed m cid chunk → P chunk) :=
  decidable_of_iff (∀ chunk ∈ m.chunkRegistry.lookup cid, Committed m cid chunk → P chunk)
    ⟨fun all chunk committed => all chunk committed.1 committed, fun all chunk _ => all chunk⟩

instance (s : System) (label : Label) : Decidable (Careful s label) := by
  cases label with
  | propose cmd =>
    cases cmd <;> unfold Careful <;> infer_instance
  | _ => unfold Careful; infer_instance

structure Survives (s : System) : Prop where
  intact : ReferentialIntegrity s.fsm
  held : ∀ cid chunk, Committed s.fsm cid chunk → ∃ holder ∈ chunk.replicas, cid ∈ s.disks holder

theorem normalizeLoop_keeps (nodes : GoMap NodeEntry) (orders : Nat → MapOrder)
    (rawIDs : List String) (k : Nat) (normalized seen : List String) (id : String)
    (member : id ∈ normalized) : id ∈ normalizeLoop nodes orders rawIDs k normalized seen := by
  induction rawIDs generalizing k normalized seen with
  | nil => exact member
  | cons entry rest ih =>
    have longer (other : String) : id ∈ normalized ++ [other] := List.mem_append_left _ member
    simp only [normalizeLoop]
    split
    · exact ih _ _ _ member
    · split
      · exact ih _ _ _ (longer entry)
      · split
        · split
          · exact ih _ _ _ member
          · exact ih _ _ _ (longer _)
        · exact ih _ _ _ (longer entry)

theorem mem_normalizeReplicaNodeIDs {nodes : GoMap NodeEntry} (orders : Nat → MapOrder)
    {confirmed : List String} {primary : String} (first : primary ∈ confirmed.head?)
    (registered : primary ∈ nodes) : primary ∈ normalizeReplicaNodeIDs nodes orders confirmed := by
  obtain ⟨others, rfl⟩ := List.head?_eq_some_iff.mp first
  simp only [normalizeReplicaNodeIDs, normalizeLoop, List.not_mem_nil, if_false, registered, if_true]
  exact normalizeLoop_keeps _ _ _ _ _ _ _ (by simp)

theorem mem_eraseIdx_of_ne {values : List String} {value evicted : String} {idx : Nat}
    (listed : values.findIdx? (· = evicted) = some idx) (member : value ∈ values)
    (other : value ≠ evicted) : value ∈ values.eraseIdx idx := by
  obtain ⟨i, found⟩ := List.getElem?_of_mem member
  obtain ⟨inside, matched, _⟩ := List.findIdx?_eq_some_iff_getElem.mp listed
  refine List.mem_eraseIdx_iff_getElem?.mpr ⟨i, ?_, found⟩
  intro same
  subst same
  rw [List.getElem?_eq_getElem inside] at found
  cases found
  exact other (of_decide_eq_true matched)

theorem Survives.of_committed {s : System} (survives : Survives s) {after : FSM}
    (intact : ReferentialIntegrity after)
    (before : ∀ cid chunk, Committed after cid chunk → Committed s.fsm cid chunk) :
    Survives { s with fsm := after } :=
  ⟨intact, fun cid chunk committed => survives.held cid chunk (before cid chunk committed)⟩

theorem Survives.setChunk {s : System} (survives : Survives s) {cid : String}
    {later : ChunkRecord (List String)} (intact : ReferentialIntegrity (s.fsm.setChunk cid later))
    (held : later.status = .complete →
      (∃ file, s.fsm.fileIndex.lookup later.fileID = some file ∧ file.status ≠ .deleted) →
      ∃ holder ∈ later.replicas, cid ∈ s.disks holder) :
    Survives { s with fsm := s.fsm.setChunk cid later } where
  intact := intact
  held other chunk committed := by
    obtain ⟨stored, complete, file⟩ := committed
    simp only [MetadataFSM.setChunk, GoMap.lookup_insert] at stored
    split at stored
    · rename_i here
      subst here
      cases stored
      exact held complete file
    · exact survives.held other chunk ⟨stored, complete, file⟩

theorem committed_of_setFile {m : FSM} {id : String} {later : FileRecord} {cid : String}
    {chunk : ChunkRecord (List String)} (committed : Committed (m.setFile id later) cid chunk)
    (existed : later.status ≠ .deleted →
      ∃ file, m.fileIndex.lookup id = some file ∧ file.status ≠ .deleted) : Committed m cid chunk := by
  obtain ⟨stored, complete, owner, present, kept⟩ := committed
  refine ⟨stored, complete, ?_⟩
  simp only [setFile, GoMap.lookup_insert] at present
  split at present
  · rename_i here
    cases present
    rw [here]
    exact existed kept
  · exact ⟨owner, present, kept⟩

theorem committed_of_createFile {m : FSM} (intact : ReferentialIntegrity m) {req : CommandCreateFile}
    (newID : m.fileIndex.lookup req.fileID = none) {cid : String} {chunk : ChunkRecord (List String)}
    (committed : Committed { m with
      chunkRegistry := insertChunks m.chunkRegistry (chunkStubs req)
      fileIndex := m.fileIndex.insert req.fileID (MetadataFSM.newFile req) } cid chunk) :
    Committed m cid chunk := by
  obtain ⟨stored, complete, file, present, kept⟩ := committed
  rcases lookup_created m req cid with ⟨index, _, stub⟩ | ⟨_, same⟩
  · cases stub.symm.trans stored
    cases complete
  · -- the file of an older chunk exists already, so it is not the new one
    have older := same.symm.trans stored
    obtain ⟨owner, owned, _⟩ := intact.fileOfChunk cid chunk older
    have elsewhere : chunk.fileID ≠ req.fileID := by
      intro here
      rw [here, newID] at owned
      cases owned
    rw [GoMap.lookup_insert, if_neg elsewhere] at present
    exact ⟨older, complete, file, present, kept⟩

theorem Survives.handle {s : System} (survives : Survives s) {cmd : Command}
    (careful : Careful s (.propose cmd)) {orders : Nat → MapOrder} {after : FSM}
    {result : Option GoError} (step : Step s.fsm orders cmd after result) :
    Survives { s with fsm := after } := by
  have intact := step_integrity survives.intact step
  cases step with
  | failed | alreadyListed => exact survives
  | nodes | jobs | mdNodes => exact ⟨intact, survives.held⟩
  | createFile req newID fresh =>
    apply survives.of_committed intact
    intro cid chunk committed
    exact committed_of_createFile survives.intact newID committed
  | commitFile req file found =>
    apply survives.of_committed intact
    intro cid chunk committed
    exact committed_of_setFile committed fun _ => ⟨file, found, careful file found⟩
  | deleteFile req file found =>
    apply survives.of_committed intact
    intro cid chunk committed
    exact committed_of_setFile committed fun kept => absurd rfl kept
  | commitChunk req chunk found guard =>
    apply survives.setChunk intact
    intro _ _
    obtain ⟨primary, first, registered, holds⟩ := careful
    exact ⟨primary, mem_normalizeReplicaNodeIDs orders first registered, holds⟩
  | evict req chunk idx found listed =>
    apply survives.setChunk intact
    intro complete file
    have member : req.nodeID ∈ chunk.replicas := mem_of_findIdx? listed
    obtain ⟨holder, among, other, holds⟩ := careful chunk ⟨found, complete, file⟩ member
    exact ⟨holder, mem_eraseIdx_of_ne listed among (by simpa using other), holds⟩
  | markLost req chunk found =>
    apply survives.setChunk intact
    intro complete
    cases complete
  | addReplica req chunk found =>
    apply survives.setChunk intact
    intro complete file
    obtain ⟨holder, among, holds⟩ := survives.held _ chunk ⟨found, complete, file⟩
    exact ⟨holder, List.mem_append_left _ among, holds⟩

theorem Survives.deleteChunk {s : System} (survives : Survives s) {nodeID addr chunkID : String}
    (careful : Careful s (.deleteChunk nodeID addr chunkID)) :
    Survives (s.deleteChunk addr chunkID) where
  intact := survives.intact
  held cid chunk committed := by
    obtain ⟨holder, listed, holds⟩ := survives.held cid chunk committed
    refine ⟨holder, listed, ?_⟩
    simp only [System.deleteChunk]
    split
    · rename_i here
      refine Finset.mem_erase.mpr ⟨?_, holds⟩
      intro same
      subst same
      exact careful chunk committed holder (by simp [callees, here]) listed
    · exact holds

theorem Survives.store {s : System} (survives : Survives s) (nodeID chunkID : String) :
    Survives (s.store nodeID chunkID) where
  intact := survives.intact
  held cid chunk committed := by
    obtain ⟨holder, listed, holds⟩ := survives.held cid chunk committed
    refine ⟨holder, listed, ?_⟩
    simp only [System.store]
    split
    · exact Finset.mem_insert_of_mem holds
    · exact holds

theorem Survives.congr {s later : System} (survives : Survives s) (fsm : later.fsm = s.fsm)
    (disks : later.disks = s.disks) : Survives later where
  intact := fsm ▸ survives.intact
  held := by
    rw [fsm, disks]
    exact survives.held

def execAt (now : Time) : (label : Label) → System → label.Result × System
  | .look, s => ((s.fsm, default), s)
  | .propose cmd, s =>
    ((s.fsm.handle (fun _ => default) cmd).2, { s with fsm := (s.fsm.handle (fun _ => default) cmd).1 })
  | .clock, s => (now, s)
  | .uuid, s => ("job", s)
  | .pendingKey key, s => (decide (key ∈ s.pendingJobsSet), s)
  | .enqueue jobID, s => ((), s.enqueue jobID)
  | .publish job, s => ((), s.publish job)
  | .retire nodeID jobID, s => ((), s.retire nodeID jobID)
  | .cancelled, s => (false, s)
  | .send jobID, s =>
    if s.jobs.length < System.repairQueueCapacity then (true, s.send jobID) else (false, s)
  | .pendingFor nodeID, s => ((s.pendingJobs.lookup nodeID).getD [], s)
  | .updateLastSeen nodeID ts, s => ((), { s with fsm := (s.fsm.updateLastSeen nodeID ts).1 })
  | .deliver _ _, s => ((), s)
  | .arm nodeID reported, s => ((), { s with armed := s.armed ++ [(nodeID, reported)] })
  | .deleteChunk _ addr chunkID, s =>
    if (s.listening addr).isSome then (true, s.deleteChunk addr chunkID) else (false, s)
  | .store nodeID chunkID, s => ((), s.store nodeID chunkID)

theorem execAt_exec (now : Time) (label : Label) (s : System) :
    Exec label s (execAt now label s).1 (execAt now label s).2 := by
  cases label with
  | send jobID =>
    by_cases room : s.jobs.length < System.repairQueueCapacity
    · simp only [execAt, room, if_true]
      exact .sent s jobID room
    · simp only [execAt, room, if_false]
      exact .notSent s jobID
  | deleteChunk nodeID addr chunkID =>
    by_cases answers : (s.listening addr).isSome
    · simp only [execAt, answers, if_true]
      exact .deleted s nodeID addr chunkID answers true
    · simp only [execAt, answers]
      exact .deleteFailed s nodeID addr chunkID
  | _ => constructor

def call (now : Time) (prog : Prog) (s : System) : List (System × Label) × System :=
  prog.runAlone (execAt now) s

def Reaches (trace : List (System × Label)) (s : System) : Prop := ∃ procs, Run parts trace ⟨s, procs⟩

theorem Reaches.call {trace : List (System × Label)} {s later : System} {prog : Prog}
    (reaches : Reaches parts trace s) (now : Time) (allowed : Spawn parts s prog later) :
    Reaches parts (trace ++ (call now prog later).1) (call now prog later).2 :=
  Concurrency.Run.call (execAt_exec now) reaches allowed

def oneReplica : Components where
  scheduler := newRepairScheduler ⟨fun _ _ _ _ _ => ([], none), fun _ _ _ _ _ => ([], none),
    fun _ => default⟩ ⟨fun _ _ _ _ _ => ([], none), fun _ _ _ _ _ => ([], none), fun _ => default⟩ 1
  replicationFactor := 1
  suspectTimeout := 30

def restarted (nodeID addr : String) (chunkIds : List String) : Server.RegisterNodeRequest :=
  ⟨nodeID, addr, 100000, chunkIds⟩

def newFile : Command := .createFile ⟨"file-1", "notes.txt", ["ck-1"], 5, 65536, [], 1⟩

def stored : ChunkRecord (List String) := ⟨"ck-1", "file-1", 0, 0, [7], ["n1"], .complete⟩

def started : System :=
  let first := Function.update System.empty.listening "10.0.0.1:9000" (some "n1")
  { System.empty with listening := Function.update first "10.0.0.2:9000" (some "n2") }

def upload : List (System × Label) × System :=
  let joined := call 0 (registerNode (restarted "n1" "10.0.0.1:9000" [])) started
  let created := call 1 (propose newFile fun _ => done) joined.2
  let written := call 2 (act (.store "n1" "ck-1") fun _ => done) created.2
  let committed := call 3 (commitChunk oneReplica ⟨"ck-1", ["n1"], [7]⟩) written.2
  (joined.1 ++ created.1 ++ written.1 ++ committed.1, committed.2)

def comeBack (nodeID addr : String) (s : System) : List (System × Label) × System :=
  let joined := call 200 (registerNode (restarted nodeID addr ["ck-1"])) s
  let reconciled := call 300 (reconcileNode oneReplica.scheduler 1 nodeID ["ck-1"])
    { joined.2 with armed := joined.2.armed.erase (nodeID, ["ck-1"]) }
  (joined.1 ++ reconciled.1, reconciled.2)

/-- The watcher finds `n1` silent, which leaves the chunk without a replica. -/
def declaredDead : List (System × Label) × System := call 100 (sweep oneReplica) upload.2

def erased : List (System × Label) × System := comeBack "n1" "10.0.0.1:9000" declaredDead.2

end DistributedFs.Healing
