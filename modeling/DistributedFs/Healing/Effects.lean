import DistributedFs.Concurrency.Prog
import DistributedFs.Server.NodeHandler

namespace DistributedFs.Healing

open Go Fsm

/-- The atomic actions of the scheduler, the reconciler, the watcher and the handlers that
    call them: reads of the state machine, proposals, the scheduler's own maps and queue,
    the timers of the reconciler, and what happens on storage nodes. -/
inductive Label where
  | look
  | propose (cmd : Command)
  | clock
  | uuid
  | pendingKey (key : String)
  | enqueue (jobID : String)
  | publish (job : RepairJob)
  | retire (nodeID jobID : String)
  | cancelled
  | send (jobID : String)
  | pendingFor (nodeID : String)
  | updateLastSeen (nodeID : String) (ts : Time)
  | deliver (nodeID : String) (instructions : List Server.RepairInstruction)
  | arm (nodeID : String) (reported : List String)
  | deleteChunk (nodeID addr chunkID : String)
  | store (nodeID chunkID : String)

/-- What an action returns to its program. A read comes with the iteration order of its
    map loop, a proposal with the error or nil that `Propose` returns, and a blocking send
    with whether the job was sent before the context ended. -/
abbrev Label.Result : Label → Type
  | .look => FSM × MapOrder
  | .propose _ => Option GoError
  | .clock => Time
  | .uuid => String
  | .pendingKey _ | .cancelled | .send _ => Bool
  | .pendingFor _ => List String
  | .deleteChunk .. => Bool
  | .enqueue _ | .publish _ | .retire .. | .updateLastSeen .. | .deliver .. | .arm .. | .store .. => Unit

abbrev Prog := Concurrency.Prog Label Label.Result

namespace Prog

export Concurrency.Prog (done act andThen forEach)

def look (next : FSM → MapOrder → Prog) : Prog := act .look fun seen => next seen.1 seen.2

def propose (cmd : Command) (next : Option GoError → Prog) : Prog := act (.propose cmd) next

def clock (next : Time → Prog) : Prog := act .clock next

end Prog

/-- The leader and the storage nodes: `disks` is what each node holds physically, `listening`
    the node whose server answers at an address, and `armed` the reconciliations that wait for
    their timer. -/
structure System where
  fsm : FSM
  disks : String → Finset String
  listening : String → Option String
  pendingJobs : GoMap (List String)
  pendingJobsSet : GoMap String
  jobs : List String
  armed : List (String × List String)

namespace System

def empty : System := ⟨newEmptyMetadataFsm, fun _ => ∅, fun _ => none, ∅, ∅, [], []⟩

def repairQueueCapacity : Nat := 1024

/-- The non-blocking send: a full queue drops the job. -/
def enqueue (s : System) (jobID : String) : System :=
  if s.jobs.length < repairQueueCapacity then { s with jobs := s.jobs ++ [jobID] } else s

def send (s : System) (jobID : String) : System := { s with jobs := s.jobs ++ [jobID] }

def appendUnique (values : List String) (v : String) : List String :=
  if v ∈ values then values else values ++ [v]

def publish (s : System) (job : RepairJob) : System :=
  { s with
    pendingJobs := s.pendingJobs.insert job.sourceNodeID
      (appendUnique ((s.pendingJobs.lookup job.sourceNodeID).getD []) job.jobID)
    pendingJobsSet := s.pendingJobsSet.insert (job.chunkID ++ ":" ++ job.targetNodeID) job.jobID }

/-- The locked section of `OnJobComplete`; `removeJob` removes the first occurrence. -/
def retire (s : System) (nodeID jobID : String) : System :=
  match s.pendingJobs.lookup nodeID with
  | none => s
  | some jobsForNode =>
    let removed := jobsForNode.erase jobID
    { s with
      pendingJobsSet := s.pendingJobsSet.filterValues (· ≠ jobID)
      pendingJobs :=
        if removed = [] then s.pendingJobs.erase nodeID else s.pendingJobs.insert nodeID removed }

/-- The call reaches the server that listens at the address, whichever node it is meant for. -/
def deleteChunk (s : System) (addr chunkID : String) : System :=
  { s with disks := fun n => if s.listening addr = some n then (s.disks n).erase chunkID else s.disks n }

def store (s : System) (nodeID chunkID : String) : System :=
  { s with disks := fun n => if n = nodeID then insert chunkID (s.disks n) else s.disks n }

end System

/-- What the actions do. `Propose` returns the result of `Apply` on the leader; without a
    quorum it fails, and when the answer is lost the entry may have been applied. A
    `DeleteChunk` call may fail likewise. -/
inductive Exec : (label : Label) → System → label.Result → System → Prop where
  | look (s : System) (order : MapOrder) : Exec .look s (s.fsm, order) s
  | applied (s : System) (cmd : Command) (orders : Nat → MapOrder) :
    Exec (.propose cmd) s (s.fsm.handle orders cmd).2 { s with fsm := (s.fsm.handle orders cmd).1 }
  | refused (s : System) (cmd : Command) (err : GoError) : Exec (.propose cmd) s (some err) s
  | unconfirmed (s : System) (cmd : Command) (orders : Nat → MapOrder) (err : GoError) :
    Exec (.propose cmd) s (some err) { s with fsm := (s.fsm.handle orders cmd).1 }
  | clock (s : System) (now : Time) : Exec .clock s now s
  | uuid (s : System) (id : String) : Exec .uuid s id s
  | pendingKey (s : System) (key : String) :
    Exec (.pendingKey key) s (decide (key ∈ s.pendingJobsSet)) s
  | enqueue (s : System) (jobID : String) : Exec (.enqueue jobID) s () (s.enqueue jobID)
  | publish (s : System) (job : RepairJob) : Exec (.publish job) s () (s.publish job)
  | retire (s : System) (nodeID jobID : String) :
    Exec (.retire nodeID jobID) s () (s.retire nodeID jobID)
  | cancelled (s : System) (ended : Bool) : Exec .cancelled s ended s
  | sent (s : System) (jobID : String) (room : s.jobs.length < System.repairQueueCapacity) :
    Exec (.send jobID) s true (s.send jobID)
  | notSent (s : System) (jobID : String) : Exec (.send jobID) s false s
  | pendingFor (s : System) (nodeID : String) :
    Exec (.pendingFor nodeID) s ((s.pendingJobs.lookup nodeID).getD []) s
  | updateLastSeen (s : System) (nodeID : String) (ts : Time) :
    Exec (.updateLastSeen nodeID ts) s () { s with fsm := (s.fsm.updateLastSeen nodeID ts).1 }
  | deliver (s : System) (nodeID : String) (instructions : List Server.RepairInstruction) :
    Exec (.deliver nodeID instructions) s () s
  | arm (s : System) (nodeID : String) (reported : List String) :
    Exec (.arm nodeID reported) s () { s with armed := s.armed ++ [(nodeID, reported)] }
  | deleted (s : System) (nodeID addr chunkID : String) (answers : (s.listening addr).isSome)
    (acknowledged : Bool) :
    Exec (.deleteChunk nodeID addr chunkID) s acknowledged (s.deleteChunk addr chunkID)
  | deleteFailed (s : System) (nodeID addr chunkID : String) :
    Exec (.deleteChunk nodeID addr chunkID) s false s
  | store (s : System) (nodeID chunkID : String) :
    Exec (.store nodeID chunkID) s () (s.store nodeID chunkID)

theorem Exec.accepted {cmd : Command} {s later : System} {answer : Option GoError}
    (ran : Exec (.propose cmd) s answer later) (nil : answer = none) :
    ∃ orders, (s.fsm.handle orders cmd).2 = none ∧ later = { s with fsm := (s.fsm.handle orders cmd).1 } := by
  cases ran with
  | applied _ _ orders => exact ⟨orders, nil, rfl⟩
  | refused | unconfirmed => cases nil

end DistributedFs.Healing
