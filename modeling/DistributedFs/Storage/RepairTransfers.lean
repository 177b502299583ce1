import DistributedFs.Server.NodeHandler
import DistributedFs.Storage.RepairQueue
import DistributedFs.Storage.Transfers

namespace DistributedFs.Storage

open Go Fsm MetadataFSM Server DiskStore Internal ReplicationManager Relation StorageServer

section Reading

variable {source peer : DiskStore} {chunkId : String} {content : List UInt8} {sourceDisk peerDisk : Disk}

theorem newChunkReader_reads {ds : DiskStore} {fault : Option GoError} {id : GoString} {frameSize : Int}
    {disk : Disk} {cr : ChunkReader} (opened : newChunkReader ds fault id frameSize disk = .ok cr) :
    ds.read none id disk = .ok cr.remaining := by
  unfold newChunkReader at opened
  split at opened
  · cases opened
  · split at opened
    · cases opened
    · rename_i present
      obtain ⟨p, path, opened⟩ := bind_eq_ok opened
      obtain ⟨_, _, opened⟩ := bind_eq_ok opened
      have valid := pathForChunk_valid path
      have listed : disk.indexed id = true := by
        rw [exists_of_valid valid] at present
        simpa using present
      rw [read_indexed path listed]
      split at opened
      · cases opened
      · rename_i stored
        rw [stored]
        split at opened
        · cases opened
          rfl
        · cases opened
          rfl

/-- The sender looks at the file and at whether the chunk is listed, not at its checksum. -/
theorem replicateToSingleNode_relabelled (reads : source.read none (bytes chunkId) sourceDisk = .ok content)
    (peer : DiskStore) (env : LinkEnv) (peerDisk : Disk) :
    replicateToSingleNode source peer env chunkId sourceDisk peerDisk =
      replicateToSingleNode source peer env chunkId
        { sourceDisk with checksums := sourceDisk.checksums.insert (bytes chunkId) (Sha256.sum256 content) }
        peerDisk := by
  obtain ⟨p, path, listed, _⟩ := read_eq_ok reads
  have valid := pathForChunk_valid path
  have same : newChunkReader source env.openFile (bytes chunkId) 0 sourceDisk =
      newChunkReader source env.openFile (bytes chunkId) 0
        { sourceDisk with checksums := sourceDisk.checksums.insert (bytes chunkId) (Sha256.sum256 content) } := by
    simp only [newChunkReader, exists_of_valid valid, listed, path]
    simp only [Disk.indexed, Finmap.lookup_insert, Option.isSome_some]
  simp only [replicateToSingleNode, same]

theorem holding_relabelled (reads : source.read none (bytes chunkId) sourceDisk = .ok content) :
    Holding source chunkId content
      { sourceDisk with checksums := sourceDisk.checksums.insert (bytes chunkId) (Sha256.sum256 content) } := by
  obtain ⟨p, path, listed, present⟩ := read_eq_ok reads
  refine ⟨?_, Finmap.lookup_insert _⟩
  rw [read_indexed path (by simp [Disk.indexed, Finmap.lookup_insert])]
  simp only [present]
  rfl

theorem replicateToSingleNode_copies {env : LinkEnv} (apart : Apart peer chunkId env.peer.others)
    (ran : (replicateToSingleNode source peer env chunkId sourceDisk peerDisk).1 = none) :
    ∃ content, content ≠ [] ∧ source.read none (bytes chunkId) sourceDisk = .ok content ∧
      Holding peer chunkId content (replicateToSingleNode source peer env chunkId sourceDisk peerDisk).2 := by
  cases opened : newChunkReader source env.openFile (bytes chunkId) 0 sourceDisk with
  | error err =>
    simp only [replicateToSingleNode, opened] at ran
    split at ran <;> cases ran
  | ok reader =>
    have reads := newChunkReader_reads opened
    rw [replicateToSingleNode_relabelled reads] at ran ⊢
    obtain ⟨nonempty, held⟩ := replicateToSingleNode_ok (holding_relabelled reads) apart ran
    exact ⟨_, nonempty, reads, held⟩

theorem verifyChunk_of_read {server : StorageServer} {disk : Disk} {stored : List UInt8}
    (reads : server.store.read none (bytes chunkId) disk = .ok content)
    (listed : disk.checksums.lookup (bytes chunkId) = some stored) (checksum : List UInt8) :
    server.verifyChunk none chunkId checksum disk = .ok ⟨200, "verification complete",
      decide (Sha256.sum256 content = stored ∧ (checksum = [] ∨ checksum = stored))⟩ := by
  obtain ⟨p, path, indexed, _⟩ := read_eq_ok reads
  have valid := pathForChunk_valid path
  have named : chunkId ≠ "" := by
    intro empty
    subst empty
    cases valid
  have verified : server.store.verify none (bytes chunkId) disk =
      if Sha256.sum256 content ≠ stored then .error errVerifyFailed else .ok stored := by
    simp only [DiskStore.verify, valid, listed, reads]
    rfl
  simp only [verifyChunk, named, if_false, exists_of_valid valid, indexed, Bool.true_eq_false, verified]
  by_cases matched : Sha256.sum256 content = stored
  · by_cases empty : checksum = []
    · simp [matched, empty]
    · have some : 0 < checksum.length := List.length_pos_iff.mpr empty
      by_cases same : stored = checksum
      · simp [matched, same]
      · simp [matched, some, same, empty, Ne.symm same]
  · simp [matched]

/-- The sender does not look at its checksum: a chunk that `VerifyChunk` calls corrupted on the source is
    copied, and on the peer it passes `VerifyChunk` and is what `GetChunk` sends. -/
theorem transfer_spreads_corruption (sender receiver : StorageServer) {chunkId : String} {content : List UInt8}
    {sourceDisk peerDisk : Disk} {checksum : List UInt8}
    (reads : sender.store.read none (bytes chunkId) sourceDisk = .ok content) (nonempty : content ≠ [])
    (listed : sourceDisk.checksums.lookup (bytes chunkId) = some checksum)
    (corrupt : Sha256.sum256 content ≠ checksum) (room : HasRoom receiver.store chunkId content peerDisk) :
    ∃ after, replicateToSingleNode sender.store receiver.store .reliable chunkId sourceDisk peerDisk =
        (none, after) ∧
      sender.verifyChunk none chunkId [] sourceDisk = .ok ⟨200, "verification complete", false⟩ ∧
      receiver.verifyChunk none chunkId [] after = .ok ⟨200, "verification complete", true⟩ ∧
      (receiver.getChunk reliable chunkId after).1.flatMap Frame.data = content ∧
      (receiver.getChunk reliable chunkId after).2 = none := by
  have held := holding_relabelled reads
  have idle := Apart.idle receiver.store chunkId
  have ran : (replicateToSingleNode sender.store receiver.store .reliable chunkId sourceDisk peerDisk).1 =
      none := by
    rw [replicateToSingleNode_relabelled reads]
    exact replicateToSingleNode_reliable held nonempty idle (fun _ _ room => room) room
  obtain ⟨other, _, same, copy⟩ := replicateToSingleNode_copies idle ran
  cases reads.symm.trans same
  have served := getChunk_stored copy.reads
  refine ⟨_, Prod.ext ran rfl, ?_, ?_, ?_, served.2⟩
  · simp [verifyChunk_of_read reads listed, corrupt]
  · simp [verifyChunk_of_read copy.reads copy.checksum]
  · exact served.1 reliable _ (Prod.ext rfl served.2)

/-- The file of a chunk is overwritten behind the back of the store. -/
def rottenDisk : Disk :=
  match store.pathForChunk (bytes "ab12cd") with
  | .error _ => oneChunkDisk [1, 2, 3]
  | .ok p => { oneChunkDisk [1, 2, 3] with files := (oneChunkDisk [1, 2, 3]).files.writeFile p [1, 2, 4] }

theorem transfer_spreads_corruption_rotten :
    ∃ after, replicateToSingleNode store store .reliable "ab12cd" rottenDisk emptyDisk = (none, after) ∧
      loneServer.verifyChunk none "ab12cd" [] rottenDisk = .ok ⟨200, "verification complete", false⟩ ∧
      loneServer.verifyChunk none "ab12cd" [] after = .ok ⟨200, "verification complete", true⟩ := by
  have room : HasRoom store "ab12cd" [1, 2, 4] emptyDisk := ⟨_, rfl, by decide +kernel⟩
  have reads : store.read none (bytes "ab12cd") rottenDisk = .ok [1, 2, 4] := by rfl
  obtain ⟨after, copied, before, passed, _⟩ := transfer_spreads_corruption loneServer loneServer reads
    (by decide) (show rottenDisk.checksums.lookup (bytes "ab12cd") = some (Sha256.sum256 [1, 2, 3]) from rfl)
    (by decide +kernel) room
  exact ⟨after, copied, before, passed⟩

end Reading

namespace RepairQueue

/-- `processHeartbeatResponse` makes a job of every instruction. -/
def repairJob (instruction : RepairInstruction) : RepairJob :=
  ⟨instruction.jobId, instruction.chunkId, instruction.sourceAddr, instruction.targetAddr⟩

structure World where
  queue : State
  retrying : Nat → Retrying
  disks : Disks

def World.begin (disks : Disks) : World := ⟨start, fun _ => .start, disks⟩

def World.retried (w : World) (worker : Nat) (r : Retrying) : Nat → Retrying :=
  fun other => if other = worker then r else w.retrying other

/-- A step of the manager while its context is live: of a call of `EnqueueRepair`, of a worker that
    is not in its retries, of a worker in them, or of anybody else on the disks. While a worker sends a
    chunk, no other session of the target writes it. -/
inductive Progress (site : Site) (nodeID : String) (jobs : Set RepairJob) : World → World → Prop where
  | call {w : World} {job : RepairJob} (member : job ∈ jobs) :
    Progress site nodeID jobs w
      { w with queue := { w.queue with callers := w.queue.callers ++ [.calling job] } }
  | enqueue {w : World} {later : Manager} {x y : Caller} {before after : List Caller}
    (calls : w.queue.callers = before ++ x :: after) (steps : enqueueStep w.queue.manager x = some (later, y)) :
    Progress site nodeID jobs w
      { w with queue := ⟨later, before ++ y :: after, w.queue.workers⟩ }
  | work {w : World} {later : Manager} {x y : Worker} {before after : List Worker}
    (works : w.queue.workers = before ++ x :: after) (elsewhere : ∀ job, x ≠ .executing job)
    (steps : workerStep nodeID none w.queue.manager x = some (later, y)) :
    Progress site nodeID jobs w
      ⟨⟨later, w.queue.callers, before ++ y :: after⟩, w.retried before.length .start, w.disks⟩
  | stop {w : World} {before after : List Worker} {job : RepairJob} {err : GoError}
    (works : w.queue.workers = before ++ .executing job :: after)
    (ends : site.policy.enter none (w.retrying before.length) = some err) :
    Progress site nodeID jobs w
      { w with queue := { w.queue with workers := before ++ .reporting job (some err) :: after } }
  | retry {w : World} {before after : List Worker} {job : RepairJob} {r : Retrying}
    (works : w.queue.workers = before ++ .executing job :: after)
    (goes : site.policy.enter none (w.retrying before.length) = none) (env : LinkEnv)
    (apart : Apart (site.stores job.target) job.chunkID env.peer.others)
    (again : site.policy.leave (w.retrying before.length)
      (site.transfer env job.chunkID job.target w.disks).1 = .ok r) :
    Progress site nodeID jobs w
      ⟨w.queue, w.retried before.length r, (site.transfer env job.chunkID job.target w.disks).2⟩
  | finish {w : World} {before after : List Worker} {job : RepairJob} {result : Option GoError}
    (works : w.queue.workers = before ++ .executing job :: after)
    (goes : site.policy.enter none (w.retrying before.length) = none) (env : LinkEnv)
    (apart : Apart (site.stores job.target) job.chunkID env.peer.others)
    (ends : site.policy.leave (w.retrying before.length)
      (site.transfer env job.chunkID job.target w.disks).1 = .error result) :
    Progress site nodeID jobs w
      ⟨{ w.queue with workers := before ++ .reporting job result :: after }, w.retrying,
        (site.transfer env job.chunkID job.target w.disks).2⟩
  | others {w : World} (disks : Disks) : Progress site nodeID jobs w { w with disks := disks }

def Reach (site : Site) (nodeID : String) (jobs : Set RepairJob) : World → World → Prop :=
  ReflTransGen (Progress site nodeID jobs)

def Delivered (site : Site) (job : RepairJob) (disks : Disks) : Prop :=
  ∃ content, content ≠ [] ∧ site.source.read none (bytes job.chunkID) disks.source = .ok content ∧
    Holding (site.stores job.target) job.chunkID content (disks.peers job.target)

section

variable {site : Site} {nodeID : String} {jobs : Set RepairJob} {w later : World}

theorem Progress.queue_step (next : Progress site nodeID jobs w later) :
    Step nodeID jobs w.queue later.queue ∨ later.queue = w.queue := by
  obtain ⟨⟨m, callers, workers⟩, retrying, disks⟩ := w
  cases next with
  | call member => exact .inl (.call _ member)
  | enqueue calls steps =>
    dsimp only at calls
    subst calls
    exact .inl (.enqueue _ _ _ steps)
  | work works elsewhere steps =>
    dsimp only at works
    subst works
    exact .inl (.work _ _ _ none steps)
  | stop works ends =>
    dsimp only at works
    subst works
    exact .inl (.work _ _ _ (some _) rfl)
  | retry works goes env apart again => exact .inr rfl
  | finish works goes env apart ends =>
    dsimp only at works
    subst works
    exact .inl (.work _ _ _ _ rfl)
  | others disks => exact .inr rfl

theorem Reach.queue {disks : Disks} (reached : Reach site nodeID jobs (.begin disks) w) :
    Reachable nodeID jobs w.queue := by
  induction reached with
  | refl => exact .refl
  | tail _ next ih =>
    rcases next.queue_step with stepped | same
    · exact ih.tail stepped
    · rw [same]
      exact ih

theorem Reachable.worker_mem {s : State} (reached : Reachable nodeID jobs s) {worker : Worker}
    (member : worker ∈ s.workers) {job : RepairJob} (held : job ∈ worker.held) : job ∈ jobs := by
  have tracks : Register.Tracks RepairJob.key jobs s.register := Register.tracks_empty.steps reached.register
  apply tracks.drawn
  obtain ⟨before, after, split⟩ := List.append_of_mem member
  have among : job ∈ (s.workers.map Worker.held).sum := by
    rw [split, sum_map_middle]
    exact Multiset.mem_add.mpr (.inl held)
  show job ∈ (s.callers.map Caller.held).sum + (↑s.manager.repairQ + (s.workers.map Worker.held).sum)
  exact Multiset.mem_add.mpr (.inr (Multiset.mem_add.mpr (.inr among)))

theorem delivered_of_transfer {env : LinkEnv} {job : RepairJob} {disks : Disks}
    (apart : Apart (site.stores job.target) job.chunkID env.peer.others)
    (copied : (site.transfer env job.chunkID job.target disks).1 = none) :
    Delivered site job (site.transfer env job.chunkID job.target disks).2 := by
  obtain ⟨content, nonempty, reads, held⟩ := replicateToSingleNode_copies apart (Option.map_eq_none_iff.mp copied)
  refine ⟨content, nonempty, reads, ?_⟩
  simp only [Site.transfer, if_true]
  exact held

def Earlier (site : Site) (nodeID : String) (jobs : Set RepairJob) (first w : World) (job : RepairJob) : Prop :=
  ∃ earlier, Reach site nodeID jobs first earlier ∧ Reach site nodeID jobs earlier w ∧
    Delivered site job earlier.disks

structure Honest (site : Site) (nodeID : String) (jobs : Set RepairJob) (first w : World) : Prop where
  reporting : ∀ job, .reporting job none ∈ w.queue.workers → Earlier site nodeID jobs first w job
  reports : ∀ r ∈ w.queue.manager.reports, r.jobSucceed = true →
    ∃ job ∈ jobs, job.jobID = r.jobId ∧ Earlier site nodeID jobs first w job

theorem enqueueStep_reports {m after : Manager} {x y : Caller} (steps : enqueueStep m x = some (after, y)) :
    after.reports = m.reports := by
  cases x with
  | returned job accepted => cases steps
  | _ =>
    simp only [enqueueStep] at steps
    try split at steps
    all_goals
      cases steps
      rfl

theorem Earlier.tail {first : World} {job : RepairJob} (earlier : Earlier site nodeID jobs first w job)
    (next : Progress site nodeID jobs w later) : Earlier site nodeID jobs first later job := by
  obtain ⟨moment, before, after, delivered⟩ := earlier
  exact ⟨moment, before, after.tail next, delivered⟩

section

variable {first : World} (honest : Honest site nodeID jobs first w) (next : Progress site nodeID jobs w later)

include honest next

theorem Honest.still_reporting (job : RepairJob) (member : .reporting job none ∈ w.queue.workers) :
    Earlier site nodeID jobs first later job :=
  (honest.reporting job member).tail next

theorem Honest.still_reported (r : ReportRepairResultRequest) (member : r ∈ w.queue.manager.reports)
    (success : r.jobSucceed = true) :
    ∃ job ∈ jobs, job.jobID = r.jobId ∧ Earlier site nodeID jobs first later job := by
  obtain ⟨job, listed, same, earlier⟩ := honest.reports r member success
  exact ⟨job, listed, same, earlier.tail next⟩

/-- A worker other than the one that moves is where it was. -/
theorem Honest.moved {before after : List Worker} {x y : Worker} (works : w.queue.workers = before ++ x :: after)
    (moved : ∀ job, .reporting job none = y → Earlier site nodeID jobs first later job) (job : RepairJob)
    (member : .reporting job none ∈ before ++ y :: after) : Earlier site nodeID jobs first later job := by
  have stays : .reporting job none = y ∨ .reporting job none ∈ w.queue.workers := by
    rw [works]
    simp only [List.mem_append, List.mem_cons] at member ⊢
    tauto
  rcases stays with here | there
  · exact moved job here
  · exact honest.still_reporting next job there

end

theorem Honest.step {disks : Disks} (reached : Reach site nodeID jobs (.begin disks) w)
    (honest : Honest site nodeID jobs (.begin disks) w) (next : Progress site nodeID jobs w later) :
    Honest site nodeID jobs (.begin disks) later := by
  have stays := honest.still_reporting next
  have kept := honest.still_reported next
  have moves := next
  cases next with
  | call member => exact ⟨stays, kept⟩
  | enqueue calls steps =>
    exact ⟨stays, by rwa [← enqueueStep_reports steps] at kept⟩
  | work works elsewhere steps =>
    rename_i after x y before rest
    cases x with
    | idle =>
      simp only [workerStep] at steps
      split at steps
      · cases steps
      · cases steps
        exact ⟨honest.moved moves works (by simp), kept⟩
    | executing job => exact absurd rfl (elsewhere job)
    | reporting job err =>
      cases steps
      refine ⟨honest.moved moves works (by simp), ?_⟩
      intro r member success
      rcases List.mem_append.mp member with old | new
      · exact kept r old success
      · cases List.mem_singleton.mp new
        cases err with
        | some err => cases success
        | none =>
          have here : .reporting job none ∈ w.queue.workers := by
            rw [works]
            simp
          have listed := (Reach.queue reached).worker_mem here (Multiset.mem_singleton_self job)
          exact ⟨job, listed, rfl, stays job here⟩
    | releasing job =>
      cases steps
      exact ⟨honest.moved moves works (by simp), kept⟩
  | stop works ends =>
    refine ⟨honest.moved moves works ?_, kept⟩
    intro other same
    cases same
  | retry works going env apart again => exact ⟨stays, kept⟩
  | finish works going env apart ends =>
    refine ⟨honest.moved moves works ?_, kept⟩
    intro other same
    cases same
    have delivered := delivered_of_transfer apart (Policy.leave_nil ends)
    exact ⟨_, reached.tail (.finish works going env apart ends), .refl, delivered⟩
  | others disks => exact ⟨stays, kept⟩

theorem Reach.honest {disks : Disks} (reached : Reach site nodeID jobs (.begin disks) w) :
    Honest site nodeID jobs (.begin disks) w := by
  induction reached with
  | refl =>
    refine ⟨?_, fun r member => (nomatch member)⟩
    intro job member
    cases List.eq_of_mem_replicate member
  | tail before next ih => exact ih.step before next

end

def instructed (states : Set FSM) : Set RepairJob :=
  { job | ∃ m ∈ states, ∃ pending, ∃ instruction ∈ buildRepairInstructions m pending,
    job = repairJob instruction }

theorem mem_instructed {states : Set FSM} {job : RepairJob} (member : job ∈ instructed states) :
    ∃ m ∈ states, ∃ id record, m.repairJobRegistry.lookup id = some record ∧
      job = ⟨record.jobID, record.chunkID, instructionAddr m record.sourceNodeID,
        instructionAddr m record.targetNodeID⟩ := by
  obtain ⟨m, reached, pending, instruction, listed, rfl⟩ := member
  obtain ⟨id, _, built⟩ := List.mem_filterMap.mp listed
  refine ⟨m, reached, id, ?_⟩
  cases found : m.repairJobRegistry.lookup id with
  | none =>
    simp only [getRepairJob, found] at built
    cases built
  | some record =>
    simp only [getRepairJob, found, Option.some.injEq] at built
    subst built
    exact ⟨record, rfl, rfl⟩

/-- In every run of the repair workers on jobs that heartbeats delivered, whatever fails, is retried or
    lost, and whatever others do to the disks between two transfers, a success is reported only for a
    job of the state machine whose target held, at some moment of the run, exactly the bytes that the
    source then read for the chunk. -/
theorem reported_repairs_delivered (site : Site) (nodeID : String) (states : Set FSM) (disks : Disks)
    {w : World} (reached : Reach site nodeID (instructed states) (.begin disks) w)
    {r : ReportRepairResultRequest} (reported : r ∈ w.queue.manager.reports) (success : r.jobSucceed = true) :
    ∃ m ∈ states, ∃ id record, m.repairJobRegistry.lookup id = some record ∧ record.jobID = r.jobId ∧
      ∃ earlier content, Reach site nodeID (instructed states) (.begin disks) earlier ∧
        Reach site nodeID (instructed states) earlier w ∧ content ≠ [] ∧
        site.source.read none (bytes record.chunkID) earlier.disks.source = .ok content ∧
        Holding (site.stores (instructionAddr m record.targetNodeID)) record.chunkID content
          (earlier.disks.peers (instructionAddr m record.targetNodeID)) := by
  obtain ⟨job, member, same, earlier, before, after, content, nonempty, reads, held⟩ :=
    reached.honest.reports r reported success
  obtain ⟨m, among, id, record, found, rfl⟩ := mem_instructed member
  exact ⟨m, among, id, record, found, same, earlier, content, before, after, nonempty, reads, held⟩

def repairFsm : FSM :=
  (pairFsm.handle (fun _ => default) (.createRepairJob ⟨"job-1", 1, "ab12cd", false, "n1", "n2"⟩)).1

def pairJob : RepairJob := ⟨"job-1", "ab12cd", "10.0.0.1:9000", "10.0.0.2:9000"⟩

theorem pairJob_instructed : pairJob ∈ instructed {repairFsm} := by
  have built : buildRepairInstructions repairFsm ["job-1"] =
      [⟨"job-1", "ab12cd", "n1", "10.0.0.1:9000", "n2", "10.0.0.2:9000", false⟩] := rfl
  refine ⟨repairFsm, rfl, ["job-1"], ⟨"job-1", "ab12cd", "n1", "10.0.0.1:9000", "n2", "10.0.0.2:9000", false⟩,
    ?_, rfl⟩
  rw [built]
  exact List.mem_singleton_self _

theorem pairJob_taken : ∃ w, Reach pairSite "n1" (instructed {repairFsm}) (.begin pairBegun) w ∧
      w.queue.workers = [] ++ .executing pairJob :: List.replicate 3 .idle ∧
      w.retrying 0 = .start ∧ w.disks = pairBegun := by
  have called : Reach pairSite "n1" (instructed {repairFsm}) (.begin pairBegun) _ :=
    .tail .refl (.call pairJob_instructed)
  have entered := called.tail (.enqueue (List.nil_append _).symm rfl)
  have queued := entered.tail (.enqueue (List.nil_append _).symm rfl)
  have taken := queued.tail (.work (List.nil_append _).symm nofun rfl)
  exact ⟨_, taken, rfl, rfl, rfl⟩

theorem pairJob_missed : ∃ w, Reach pairSite "n1" (instructed {repairFsm}) (.begin pairBegun) w ∧
    w.queue.workers = [] ++ .executing pairJob :: List.replicate 3 .idle ∧
    (∃ err, w.retrying 0 = ⟨1, some err⟩) ∧ w.disks = pairMissed := by
  obtain ⟨w, taken, works, fresh, disks⟩ := pairJob_taken
  have goes : pairSite.policy.enter none (w.retrying ([] : List Worker).length) = none := by
    rw [List.length_nil, fresh]
    rfl
  have again : pairSite.policy.leave (w.retrying ([] : List Worker).length)
      (pairSite.transfer unreachable pairJob.chunkID pairJob.target w.disks).1 =
        .ok ⟨1, some (.new "dial 10.0.0.2:9000: connection refused")⟩ := by
    rw [List.length_nil, fresh]
    rfl
  refine ⟨_, taken.tail (.retry works goes unreachable (Apart.idle store "ab12cd") again), works, ⟨_, rfl⟩, ?_⟩
  simp only [disks, pairMissed]
  rfl

theorem pairJob_reported : ∃ w, Reach pairSite "n1" (instructed {repairFsm}) (.begin pairBegun) w ∧
    ⟨"job-1", true, "", "n1"⟩ ∈ w.queue.manager.reports := by
  obtain ⟨w, missed, works, ⟨err, again⟩, disks⟩ := pairJob_missed
  have goes : pairSite.policy.enter none (w.retrying ([] : List Worker).length) = none := by
    rw [List.length_nil, again]
    rfl
  have ends : pairSite.policy.leave (w.retrying ([] : List Worker).length)
      (pairSite.transfer (.beside otherUpload) pairJob.chunkID pairJob.target w.disks).1 = .error none := by
    have copied : (pairSite.transfer (.beside otherUpload) pairJob.chunkID pairJob.target w.disks).1 = none := by
      rw [disks]
      exact pair_transfer
    rw [copied]
    rfl
  have copied := missed.tail (.finish works goes (.beside otherUpload) otherUpload_apart ends)
  refine ⟨_, copied.tail (.work (List.nil_append _).symm nofun rfl), ?_⟩
  exact List.mem_append_right _ (List.mem_singleton_self _)

theorem reported_repairs_delivered_pair : ∃ (record : Fsm.RepairJob) (earlier : World) (content : List UInt8),
    record.jobID = "job-1" ∧ content ≠ [] ∧
      store.read none (bytes record.chunkID) earlier.disks.source = .ok content ∧
      Holding store record.chunkID content
        (earlier.disks.peers (instructionAddr repairFsm record.targetNodeID)) := by
  obtain ⟨w, reached, reported⟩ := pairJob_reported
  obtain ⟨m, among, id, record, _, same, earlier, content, _, _, nonempty, reads, held⟩ :=
    reported_repairs_delivered pairSite "n1" {repairFsm} _ reached reported rfl
  cases Set.mem_singleton_iff.mp among
  exact ⟨record, earlier, content, same, nonempty, reads, held⟩

end RepairQueue

end DistributedFs.Storage
