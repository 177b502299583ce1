import DistributedFs.Fsm.Replicas
import DistributedFs.Scheduler.Calls
import DistributedFs.Server.FileHandler

namespace DistributedFs.Scheduler

open Go Fsm MetadataFSM Healing Healing.Prog Reconcile

variable (parts : Components)

def world : Concurrency.World System Label Label.Result := ⟨Exec, Spawn parts⟩

abbrev Config := Concurrency.Config System Label Label.Result

def empty : Config := ⟨System.empty, []⟩

theorem spawn_fsm {s later : System} {prog : Prog} (spawned : Spawn parts s prog later) :
    later.fsm = s.fsm := by
  cases spawned with
  | component call => cases call <;> rfl
  | _ => rfl

inductive FsmStep (m : FSM) : Label → FSM → Prop where
  | command (cmd : Command) (orders : Nat → MapOrder) : FsmStep m (.propose cmd) (m.handle orders cmd).1
  | seen (nodeID : String) (ts : Time) : FsmStep m (.updateLastSeen nodeID ts) (m.updateLastSeen nodeID ts).1
  | same (label : Label) : FsmStep m label m

theorem exec_fsmStep {label : Label} {s later : System} {result : label.Result}
    (ran : Exec label s result later) : FsmStep s.fsm label later.fsm := by
  cases ran with
  | applied _ cmd orders | unconfirmed _ cmd orders => exact .command cmd orders
  | updateLastSeen _ nodeID ts => exact .seen nodeID ts
  | enqueue _ jobID =>
    simp only [System.enqueue]
    split <;> exact .same _
  | retire _ nodeID jobID =>
    simp only [System.retire]
    split <;> exact .same _
  | _ => exact .same _

theorem FsmStep.reached {m after : FSM} {label : Label} (step : FsmStep m label after)
    (reached : ∃ history, Reached history m) : ∃ history, Reached history after := by
  obtain ⟨history, reached⟩ := reached
  cases step with
  | command cmd orders => exact ⟨_, reached.command orders cmd⟩
  | seen nodeID ts => exact ⟨_, reached.heartbeat nodeID ts⟩
  | same => exact ⟨history, reached⟩

theorem reached_fsm {ok : Config → Nat → Label → Prop} {start c : Config}
    (initially : ∃ history, Reached history start.state.fsm)
    (reached : Concurrency.ReachedUnder (world parts) ok start c) :
    ∃ history, Reached history c.state.fsm := by
  induction reached with
  | start => exact initially
  | spawn _ prog later allowed ih => exact spawn_fsm parts allowed ▸ ih
  | act _ i label next running met result later ran ih => exact (exec_fsmStep ran).reached ih

theorem steps_reached {c last : Config} {events : List (Concurrency.Event System Label Label.Result)}
    (steps : Concurrency.Steps (world parts) c events last) (reached : ∃ history, Reached history c.state.fsm) :
    (∃ history, Reached history last.state.fsm) ∧ ∀ e ∈ events, ∃ history, Reached history e.before.fsm := by
  obtain ⟨now, earlier⟩ := steps.keeps (P := fun c : Config => ∃ history, Reached history c.state.fsm)
    (fun _ _ _ known spawned => spawn_fsm parts spawned ▸ known)
    (fun _ _ _ _ _ _ known _ ran => (exec_fsmStep ran).reached known) reached
  exact ⟨now, fun e member => (earlier e member).choose_spec⟩

theorem jobCommand_frame {cmd : Command} (onJobs : jobCommand cmd = true) (m : FSM) (orders : Nat → MapOrder) :
    ∃ registry, (m.handle orders cmd).1 = { m with repairJobRegistry := registry } := by
  cases cmd with
  | createRepairJob req =>
    simp only [handle, handleCmdCreateRepairJob]
    split
    · exact ⟨_, rfl⟩
    · exact ⟨_, rfl⟩
  | updateRepairJob req =>
    simp only [handle, handleCmdUpdateRepairJob]
    cases m.repairJobRegistry.lookup req.jobID with
    | none => exact ⟨_, rfl⟩
    | some job => exact ⟨_, rfl⟩
  | _ => cases onJobs

theorem exec_jobCommand {cmd : Command} (onJobs : jobCommand cmd = true) {s later : System}
    {answer : Option GoError} (ran : Exec (.propose cmd) s answer later) :
    later.fsm.chunkRegistry = s.fsm.chunkRegistry ∧ later.fsm.nodeRegistry = s.fsm.nodeRegistry := by
  cases ran with
  | applied _ _ orders | unconfirmed _ _ orders =>
    obtain ⟨registry, same⟩ := jobCommand_frame onJobs s.fsm orders
    dsimp only
    rw [same]
    exact ⟨rfl, rfl⟩
  | refused => exact ⟨rfl, rfl⟩

inductive JobStep (m : FSM) : Label → FSM → Prop where
  | created (req : CommandCreateRepairJob) (fresh : m.repairJobRegistry.lookup req.jobID = none) :
    JobStep m (.propose (.createRepairJob req)) (m.setJob req.jobID (newJob req))
  | updated (req : CommandUpdateRepairJob) (job : RepairJob)
    (found : m.repairJobRegistry.lookup req.jobID = some job) :
    JobStep m (.propose (.updateRepairJob req)) (m.setJob req.jobID (job.updated req))
  | untouched (label : Label) (after : FSM) (same : after.repairJobRegistry = m.repairJobRegistry) :
    JobStep m label after

theorem FsmStep.jobs {m after : FSM} {label : Label} (step : FsmStep m label after) :
    JobStep m label after := by
  cases step with
  | command cmd orders =>
    have writes := handle_writes m orders cmd
    generalize (m.handle orders cmd).1 = after at writes
    cases writes with
    | createJob req fresh => exact .created req fresh
    | updateJob req job found => exact .updated req job found
    | _ => exact .untouched _ _ rfl
  | seen nodeID ts =>
    obtain ⟨registry, same⟩ := m.updateLastSeen_nodes_only nodeID ts
    rw [same]
    exact .untouched _ _ rfl
  | same => exact .untouched _ _ rfl

theorem JobStep.kept {m after : FSM} {label : Label} (step : JobStep m label after) {jobID : String}
    {job : RepairJob} (found : m.repairJobRegistry.lookup jobID = some job) :
    after.repairJobRegistry.lookup jobID = some job ∨
      ∃ req, label = .propose (.updateRepairJob req) ∧ req.jobID = jobID ∧
        after.repairJobRegistry.lookup jobID = some (job.updated req) := by
  cases step with
  | created req fresh =>
    have other : jobID ≠ req.jobID := by
      intro here
      subst here
      cases fresh.symm.trans found
    exact .inl (by simpa [setJob, GoMap.lookup_insert, other] using found)
  | updated req old present =>
    by_cases here : jobID = req.jobID
    · subst here
      cases present.symm.trans found
      exact .inr ⟨req, rfl, rfl, by simp [setJob]⟩
    · exact .inl (by simpa [setJob, GoMap.lookup_insert, here] using found)
  | untouched _ _ same => exact .inl (same ▸ found)

theorem JobStep.origin {m after : FSM} {label : Label} (step : JobStep m label after) {jobID : String}
    {job : RepairJob} (found : after.repairJobRegistry.lookup jobID = some job) :
    m.repairJobRegistry.lookup jobID = some job ∨
      (∃ req, label = .propose (.createRepairJob req) ∧ req.jobID = jobID ∧ job = newJob req) ∨
      ∃ req old, label = .propose (.updateRepairJob req) ∧ req.jobID = jobID ∧
        m.repairJobRegistry.lookup jobID = some old ∧ job = old.updated req := by
  cases step with
  | created req fresh =>
    rcases lookup_setJob found with ⟨here, same⟩ | ⟨_, older⟩
    · exact .inr (.inl ⟨req, rfl, here.symm, same⟩)
    · exact .inl older
  | updated req old present =>
    rcases lookup_setJob found with ⟨here, same⟩ | ⟨_, older⟩
    · exact .inr (.inr ⟨req, old, rfl, here.symm, here ▸ present, same⟩)
    · exact .inl older
  | untouched _ _ same => exact .inl (same ▸ found)

theorem retire_fsm (s : System) (nodeID jobID : String) : (s.retire nodeID jobID).fsm = s.fsm := by
  unfold System.retire
  split <;> rfl

theorem getRepairJob_ok {m : FSM} {jobID : String} {job : RepairJob}
    (found : m.repairJobRegistry.lookup jobID = some job) : m.getRepairJob jobID = .ok job := by
  simp only [getRepairJob, found]

theorem lookup_of_getRepairJob {m : FSM} {jobID : String} {job : RepairJob} (read : m.getRepairJob jobID = .ok job) :
    m.repairJobRegistry.lookup jobID = some job := by
  cases found : m.repairJobRegistry.lookup jobID with
  | none => simp [getRepairJob, found] at read
  | some known =>
    rw [getRepairJob_ok found] at read
    cases read
    rfl

def replicasOf (m : FSM) (chunkID : String) : Option (List String) :=
  (m.chunkRegistry.lookup chunkID).map ChunkRecord.replicas

def Lists (m : FSM) (chunkID nodeID : String) : Prop := nodeID ∈ (replicasOf m chunkID).getD []

instance (m : FSM) (chunkID nodeID : String) : Decidable (Lists m chunkID nodeID) :=
  inferInstanceAs (Decidable (nodeID ∈ (replicasOf m chunkID).getD []))

theorem lists_found {m : FSM} {chunkID : String} {chunk : ChunkRecord (List String)}
    (found : m.chunkRegistry.lookup chunkID = some chunk) (nodeID : String) :
    Lists m chunkID nodeID ↔ nodeID ∈ chunk.replicas := by
  simp [Lists, replicasOf, found]

theorem lists_setChunk (m : FSM) (cid other nodeID : String) (chunk : ChunkRecord (List String)) :
    Lists (m.setChunk cid chunk) other nodeID ↔
      if other = cid then nodeID ∈ chunk.replicas else Lists m other nodeID := by
  simp only [Lists, replicasOf, setChunk, GoMap.lookup_insert]
  split <;> simp

theorem mem_chunksByNode {m : FSM} (keys : RegistryKeys m) (order : MapOrder) (chunkID nodeID : String) :
    chunkID ∈ m.getChunksByNode order nodeID ↔ Lists m chunkID nodeID := by
  rw [mem_getChunksByNode keys.chunks, Lists, replicasOf]
  cases m.chunkRegistry.lookup chunkID <;> simp

def Answered : (label : Label) → label.Result → Prop
  | .propose _, answer => answer = none
  | _, _ => True

instance (label : Label) (result : label.Result) : Decidable (Answered label result) :=
  decidable_of_iff ((match label, result with
    | .propose _, answer => decide (answer = none)
    | _, _ => true) = true) (by unfold Answered; split <;> simp)

def Free : Label → Prop
  | .propose (.createRepairJob _) | .enqueue _ | .send _ => False
  | .propose (.updateRepairJob req) => req.status.active = false
  | _ => True

def Routine : Label → Prop
  | .propose (.updateRepairJob req) => req.status.active = false ∧ req.attempts = 0
  | label => Free label

/-- What workers and the recovery of stuck jobs do: they neither create nor finish a job. -/
def Working : Label → Prop
  | .propose (.createRepairJob _) => False
  | .propose (.updateRepairJob req) => req.status.active = true
  | _ => True

theorem routine_propose {cmd : Command} (other : jobCommand cmd = false) : Routine (.propose cmd) := by
  cases cmd with
  | createRepairJob | updateRepairJob => cases other
  | _ => trivial

theorem Plain.routine {label : Label} (plain : Plain label) : Routine label := by
  cases label with
  | propose cmd =>
    cases cmd with
    | createRepairJob => exact plain.elim
    | updateRepairJob req => exact ⟨plain.1, plain.2.1⟩
    | _ => trivial
  | enqueue | send => exact plain.elim
  | _ => trivial

section Protocols

open Concurrency.Protocol

variable {Q : Type} {protocol : Concurrency.Protocol Q Label Label.Result} {stages : Q → Prop}

theorem looks_within (allowed : ∀ stage, protocol.allowed stage .look)
    (kept : ∀ stage result later, stages stage → protocol.next stage .look result later → stages later) :
    Looks (protocol.within stages) fun _ _ => True where
  look {stage _} _ rest := Concurrency.Protocol.takes (allowed stage) (fun result later => kept stage result later stage.2)
    _ fun d seen _ => rest d seen.1 seen.2 trivial trivial

def Scheduling : Label → Prop
  | .look | .clock | .uuid | .pendingKey _ | .enqueue _ | .propose (.createRepairJob _) => True
  | _ => False

def Issues (chunkID : String) (drawn : Option String) : Label → Prop
  | .propose (.createRepairJob req) => drawn = some req.jobID ∧ req.chunkID = chunkID
  | label => Scheduling label

def draw (drawn : Option String) : (label : Label) → label.Result → Option String
  | .uuid, jid => some jid
  | .clock, _ => drawn
  | _, _ => none

def issuing (chunkID : String) : Concurrency.Protocol (Option String) Label Label.Result where
  allowed := Issues chunkID
  next drawn label result later := later = draw drawn label result

theorem createJob_issuing (chunkID source target : String) (deleteSource : Bool) (drawn : Option String) :
    (issuing chunkID).Follows drawn (createJob chunkID source target deleteSource) := by
  refine ⟨trivial, ?_⟩
  intro jid drawn now
  cases now
  refine ⟨trivial, ?_⟩
  intro createdAt drawn now
  cases now
  refine ⟨⟨rfl, rfl⟩, ?_⟩
  intro answer drawn _
  cases answer with
  | some err => trivial
  | none => exact Follows.act (by trivial) fun _ _ => trivial

theorem follows_scheduleCopy {chunkID source target : String}
    (pending : ∀ stage, protocol.allowed stage (.pendingKey (chunkID ++ ":" ++ target)))
    (creates : ∀ stage, protocol.Follows stage (createJob chunkID source target false)) (stage : Q) :
    protocol.Follows stage (scheduleCopy chunkID source target) := by
  refine Follows.act (pending stage) ?_
  intro known stage
  cases known with
  | true => trivial
  | false => exact creates stage

theorem scheduleRepairJobs_issuing (rs : RepairScheduler) (chunkID : String) (live : List NodeEntry)
    (deficit : Int) (drawn : Option String) :
    (issuing chunkID).Follows drawn (scheduleRepairJobs rs chunkID live deficit) := by
  have looks : Looks ((issuing chunkID).within fun _ => True) fun _ _ => True :=
    looks_within (fun _ => trivial) fun _ _ _ _ _ => trivial
  exact looks.scheduleRepairJobs (c := ⟨drawn, trivial⟩) (sequences _)
    (fun _ _ _ _ => follows_scheduleCopy (fun _ => trivial) (createJob_issuing _ _ _ _) _)
    fun _ d source _ => createJob_issuing chunkID source "" true d

theorem scheduling_of_issuing {chunkID : String} {drawn : Option String} {prog : Prog}
    (follows : (issuing chunkID).Follows drawn prog) : (only Scheduling).Follows () prog := by
  refine follows.onlyAllowed (fun _ _ _ => ⟨_, rfl⟩) ?_
  intro drawn label issues
  cases label with
  | propose cmd =>
    cases cmd with
    | createRepairJob => trivial
    | _ => exact issues
  | _ => exact issues

theorem scheduleRepairForChunk_scheduling (rs : RepairScheduler) (chunkID : String) :
    (only Scheduling).Follows () (scheduleRepairForChunk rs chunkID) := by
  refine Follows.act trivial ?_
  intro seen _
  dsimp only
  split
  · trivial
  · exact Follows.ite trivial (scheduling_of_issuing (scheduleRepairJobs_issuing rs chunkID _ _ none))

section Working

variable (free : ∀ label, Routine label → ∀ stage, protocol.allowed stage label)
  (kept : ∀ stage label result later, stages stage → Working label → protocol.next stage label result later →
    stages later)
include kept

theorem takes_working (label : Label) (working : Working label) (stage : {q // stages q})
    (allowed : protocol.allowed stage label) : (protocol.within stages).Takes stage label :=
  Concurrency.Protocol.takes allowed fun result later => kept stage label result later stage.2 working

include free

theorem follows_executeJob (jobID : String)
    (marks : ∀ stage req, stages stage → req.jobID = jobID → req.attempts = 0 →
      protocol.allowed stage (.propose (.updateRepairJob req))) (stage : Q) (inside : stages stage) :
    protocol.Follows stage (executeJob jobID) := by
  have looks : Looks (protocol.within stages) fun _ _ => True :=
    looks_within (free .look trivial) fun stage result later inside => kept stage .look result later inside trivial
  have clock (stage : {q // stages q}) : (protocol.within stages).Takes stage .clock :=
    takes_working kept .clock trivial stage (free .clock trivial stage)
  refine looks.executeJob (c := ⟨stage, inside⟩) clock ?_ ?_
  · intro stage m job _ _ _
    exact takes_working kept _ (by trivial) stage (free _ (by trivial) stage)
  · intro stage req _ named active untried _
    exact takes_working kept (.propose (.updateRepairJob req)) active stage (marks stage req stage.2 named untried)

theorem follows_recoverJobs (rs : RepairScheduler) (jobs : List RepairJob)
    (sends : ∀ job ∈ jobs, ∀ stage, stages stage → protocol.allowed stage (.send job.jobID))
    (resets : ∀ job ∈ jobs, ∀ stage req, stages stage → req.jobID = job.jobID → req.attempts = 0 →
      protocol.allowed stage (.propose (.updateRepairJob req))) (stage : Q) (inside : stages stage) :
    protocol.Follows stage (recoverJobs rs jobs) := by
  have looks : Looks (protocol.within stages) fun _ _ => True :=
    looks_within (free .look trivial) fun stage result later inside => kept stage .look result later inside trivial
  change (protocol.within stages).holds ⟨stage, inside⟩ (recoverJobs rs jobs)
  refine looks.recoverJobs ?_ ?_ jobs ?_ ?_
  · exact fun stage => takes_working kept .clock trivial stage (free .clock trivial stage)
  · exact fun stage => takes_working kept .cancelled trivial stage (free .cancelled trivial stage)
  · exact fun job member stage _ => takes_working kept _ (by trivial) stage (sends job member stage stage.2)
  · intro job member _ stage _ _ req _ _ _ _ _ named active untried _
    exact takes_working kept (.propose (.updateRepairJob req)) active stage
      (resets job member stage req stage.2 named untried)

end Working

/-- The rules for a protocol that allows what leaves repair jobs alone, but for deaths, and orders of copies. -/
theorem follow_rules (rs : RepairScheduler)
    (free : ∀ label, Routine label → (∀ req, label ≠ .propose (.markNodeDead req)) → ∀ stage,
      protocol.allowed stage label)
    (copies : ∀ chunkID source target stage, protocol.Follows stage (scheduleCopy chunkID source target)) :
    Rules (protocol.within fun _ => True) (fun _ _ => True) rs :=
  { sequences protocol, looks_within (free .look trivial (by simp)) fun _ _ _ _ _ => trivial with
    plain := by
      intro stage label plain
      refine Concurrency.Protocol.takes (free label plain.routine ?_ stage) fun _ _ _ => trivial
      rintro req rfl
      exact plain
    copies := fun _ _ _ _ _ _ => copies _ _ _ _
    answers := fun stage nodeID => Follows.act (free _ (by trivial) (by simp) stage) fun _ stage =>
      Follows.act (free .look trivial (by simp) stage) fun _ stage =>
        Follows.act (free _ (by trivial) (by simp) stage) fun _ _ => trivial }

theorem spawn_follows (free : ∀ label, Routine label → ∀ stage, protocol.allowed stage label)
    (copies : ∀ chunkID source target stage, protocol.Follows stage (scheduleCopy chunkID source target))
    {s later : System} {prog : Prog} (stage : Q) (spawned : Spawn parts s prog later)
    (executed : ∀ jobID rest, s.jobs = jobID :: rest → protocol.Follows stage (executeJob jobID))
    (recovered : protocol.Follows stage (recoverStuckJobs parts.scheduler)) :
    protocol.Follows stage prog := by
  have rules := follow_rules parts.scheduler (fun label routine _ => free label routine) copies
  have deaths (stage : {_q : Q // True}) (req : CommandMarkNodeDead) :
      (protocol.within fun _ => True).Takes stage (.propose (.markNodeDead req)) :=
    Concurrency.Protocol.takes (free _ (by trivial) stage) fun _ _ _ => trivial
  rcases rules.spawned (c := (⟨stage, trivial⟩ : {_q : Q // True})) spawned deaths executed recovered with
    follows | ⟨cmd, other, -, rfl⟩
  · exact follows
  · exact Follows.act (free _ (routine_propose other) stage) fun _ _ => trivial

section Only

variable {allowed : Label → Prop}

theorem follows_createJob (uuid : allowed .uuid) (clock : allowed .clock) (queues : ∀ id, allowed (.enqueue id))
    {chunkID source target : String} {deleteSource : Bool}
    (creates : ∀ req, req.deleteSource = deleteSource → allowed (.propose (.createRepairJob req))) :
    (only allowed).Follows () (createJob chunkID source target deleteSource) := by
  refine Follows.act uuid ?_
  intro jid _
  refine Follows.act clock ?_
  intro createdAt _
  refine Follows.act (creates _ rfl) ?_
  intro answer _
  cases answer with
  | some err => trivial
  | none => exact Follows.act (queues jid) fun _ _ => trivial

theorem spawn_only (free : ∀ label, Routine label → allowed label) (queues : ∀ id, allowed (.enqueue id))
    (sends : ∀ id, allowed (.send id))
    (creates : ∀ req, req.deleteSource = false → allowed (.propose (.createRepairJob req)))
    (updates : ∀ req, req.attempts = 0 → allowed (.propose (.updateRepairJob req)))
    {s later : System} {prog : Prog} (spawned : Spawn parts s prog later) : (only allowed).Follows () prog := by
  have anywhere : ∀ (stage : Unit) (label : Label) (result : label.Result) (after : Unit), True →
      Working label → (only allowed).next stage label result after → True := fun _ _ _ _ _ _ _ => trivial
  apply spawn_follows parts (fun label routine _ => free label routine) ?_ () spawned
  · intro jobID _ _
    exact follows_executeJob (fun label routine _ => free label routine) anywhere jobID
      (fun _ req _ _ untried => updates req untried) () trivial
  · refine Follows.act (free .look trivial) ?_
    intro seen _
    exact follows_recoverJobs (fun label routine _ => free label routine) anywhere parts.scheduler _
      (fun _ _ _ _ => sends _) (fun _ _ _ req _ _ untried => updates req untried) () trivial
  · intro chunkID source target _
    exact follows_scheduleCopy (fun _ => free _ (by trivial))
      (fun _ => follows_createJob (free .uuid trivial) (free .clock trivial) queues creates) ()

end Only

end Protocols

/-- The actions with results of their own choice: map loops in sorted order, a clock that
    stands still, ids that are new, and nothing lost or refused. -/
def execFresh (now : Time) : (label : Label) → System → label.Result × System
  | .uuid, s => ("job-" ++ String.ofList (List.replicate s.fsm.repairJobRegistry.keys.card 'i'), s)
  | label, s => execAt now label s

theorem execFresh_exec (now : Time) (label : Label) (s : System) :
    Exec label s (execFresh now label s).1 (execFresh now label s).2 := by
  cases label with
  | uuid => exact .uuid s _
  | _ => exact execAt_exec now _ s

def alone (now : Time) (prog : Prog) (s : System) : List (System × Label) × System :=
  prog.runAlone (execFresh now) s

theorem alone_steps (now : Time) (prog : Prog) (s : System) :
    ∃ events procs, Concurrency.Steps (world parts) ⟨s, [prog]⟩ events ⟨(alone now prog s).2, procs⟩ ∧
      procs[0]? = some .done ∧ (events.map fun e => (e.before, e.label)) = (alone now prog s).1 ∧
      ∀ e ∈ events, e.proc = 0 ∧ e.result = (execFresh now e.label e.before).1 ∧
        e.after = (execFresh now e.label e.before).2 := by
  have start : Concurrency.Steps (world parts) ⟨s, [prog]⟩ [] ⟨s, [prog]⟩ := .refl
  exact start.runAlone (execFresh_exec now) prog rfl

/-- Reached by calls that each ran to their end before the next one began. -/
def Sequential (ok : Config → Nat → Label → Prop) (s : System) : Prop :=
  ∃ procs, Concurrency.Config.Idle (⟨s, procs⟩ : Config) ∧
    Concurrency.ReachedUnder (world parts) ok empty ⟨s, procs⟩

theorem Sequential.empty (ok : Config → Nat → Label → Prop) : Sequential parts ok System.empty :=
  ⟨[], fun _ member => (List.not_mem_nil member).elim, .start⟩

theorem Sequential.call {ok : Config → Nat → Label → Prop} {s later : System} {prog : Prog}
    (before : Sequential parts ok s) (now : Time) (spawned : Spawn parts s prog later)
    (met : ∀ x ∈ (alone now prog later).1, ∀ i procs,
      (∀ j other, j ≠ i → procs[j]? = some other → other = .done) → ok ⟨x.1, procs⟩ i x.2) :
    Sequential parts ok (alone now prog later).2 := by
  obtain ⟨procs, idle, reached⟩ := before
  refine reached.call (execFresh_exec now) idle spawned ?_
  intro s label member procs others
  exact met (s, label) member _ procs others

theorem Sequential.andCall {s later : System} {prog : Prog} (before : Sequential parts (fun _ _ _ => True) s)
    (now : Time) (spawned : Spawn parts s prog later) :
    Sequential parts (fun _ _ _ => True) (alone now prog later).2 :=
  before.call parts now spawned fun _ _ _ _ _ => trivial

def Beside (c : Config) : Prop :=
  ∃ settled, Concurrency.Reachable (world parts) empty ⟨c.state, settled ++ c.procs⟩

theorem Sequential.beside {s : System} (before : Sequential parts (fun _ _ _ => True) s) :
    Beside parts ⟨s, []⟩ := by
  obtain ⟨procs, _, reached⟩ := before
  exact ⟨procs, by simpa using reached⟩

theorem Beside.spawn {c : Config} {prog : Prog} {later : System} (before : Beside parts c)
    (spawned : Spawn parts c.state prog later) : Beside parts (c.spawned prog later) := by
  obtain ⟨settled, reached⟩ := before
  refine ⟨settled, ?_⟩
  simpa [Concurrency.Config.spawned] using reached.spawn prog later spawned

theorem Beside.turns {c : Config} (before : Beside parts c) (now : Time) (order : List Nat) :
    Beside parts (c.turns (execFresh now) order) := by
  obtain ⟨settled, reached⟩ := before
  exact ⟨settled, reached.turns_beside (execFresh_exec now) order⟩

/-- A cluster with the strategies that the metadata server is started with. -/
def cluster (replicationFactor : Int) : Components where
  scheduler := newRepairScheduler (Placement.leastLoadedStrategy (insertionSorter _))
    (Placement.mostFreeSpaceStrategy (insertionSorter _)) replicationFactor
  replicationFactor := replicationFactor
  suspectTimeout := 30

def twoCopies : Components := cluster 2

def newNode (nodeID address : String) : Server.RegisterNodeRequest := ⟨nodeID, address, 100000, []⟩

theorem newNode_inventory {s : System} {nodeID : String} (address : String) (bare : s.disks nodeID = ∅)
    (cid : String) :
    cid ∈ (newNode nodeID address).chunkIds ↔ cid ∈ s.disks (newNode nodeID address).nodeId := by
  simp [newNode, bare]

/-- Two nodes join, and `n1` receives the chunk of a new file. -/
def uploaded : List (System × Label) × System :=
  let first := alone 0 (registerNode (newNode "n1" "10.0.0.1:9000")) System.empty
  let second := alone 0 (registerNode (newNode "n2" "10.0.0.2:9000")) first.2
  let created := alone 1 (propose newFile fun _ => done) second.2
  let written := alone 2 (act (.store "n1" "ck-1") fun _ => done) created.2
  let committed := alone 3 (commitChunk twoCopies ⟨"ck-1", ["n1"], [7]⟩) written.2
  (first.1 ++ (second.1 ++ (created.1 ++ (written.1 ++ committed.1))), committed.2)

-- two such nodes are enough for `CreateFile` to propose the new file
example : ∃ response, (Server.createFile ⟨true, ""⟩ (alone 0 (registerNode (newNode "n2" "10.0.0.2:9000"))
      (alone 0 (registerNode (newNode "n1" "10.0.0.1:9000")) System.empty).2).2.fsm default
    twoCopies.scheduler.targetStrategy 2 "" 1 ⟨"file-1", "notes.txt", 5, 65536, ["ck-1"]⟩).map
      (fun answer => (Command.createFile answer.1, answer.2)) = .ok (newFile, response) :=
  ⟨_, rfl⟩

theorem uploaded_sequential {ok : Config → Nat → Label → Prop} (met : ∀ x ∈ uploaded.1, ∀ i procs,
    (∀ j other, j ≠ i → procs[j]? = some other → other = .done) → ok ⟨x.1, procs⟩ i x.2) :
    Sequential twoCopies ok uploaded.2 := by
  simp only [uploaded, List.mem_append, or_imp, forall_and] at met
  obtain ⟨first, second, created, written, committed⟩ := met
  have start := Sequential.empty twoCopies ok
  have one := start.call twoCopies 0
    (.component (.registerNode _ (newNode "n1" "10.0.0.1:9000") (newNode_inventory _ rfl))) first
  have two := one.call twoCopies 0
    (.component (.registerNode _ (newNode "n2" "10.0.0.2:9000") (newNode_inventory _ rfl))) second
  have three := two.call twoCopies 1 (.component (.client _ newFile rfl)) created
  have four := three.call twoCopies 2 (.component (.store _ "n1" "ck-1")) written
  exact four.call twoCopies 3 (.component (.commitChunk _ ⟨"ck-1", ["n1"], [7]⟩)) committed

def executed : List (System × Label) × System :=
  alone 5 (executeJob "job-") { uploaded.2 with jobs := [] }

def confirmed : List (System × Label) × System :=
  alone 6 (reportRepairResult twoCopies "n1" "job-" true) executed.2

section Conditions

variable {ok : Config → Nat → Label → Prop} {fits : System → Label → Prop}
  (lift : ∀ s label i procs, fits s label →
    (∀ j other, j ≠ i → procs[j]? = some other → other = .done) → ok ⟨s, procs⟩ i label)

include lift

theorem Sequential.check {parts : Components} {s later : System} {prog : Prog}
    (before : Sequential parts ok s) (now : Time) (spawned : Spawn parts s prog later)
    (met : ∀ x ∈ (alone now prog later).1, fits x.1 x.2) : Sequential parts ok (alone now prog later).2 :=
  before.call parts now spawned fun x member i procs others => lift x.1 x.2 i procs (met x member) others

theorem executed_sequential (first : ∀ x ∈ uploaded.1, fits x.1 x.2)
    (second : ∀ x ∈ executed.1, fits x.1 x.2) : Sequential twoCopies ok executed.2 := by
  have before : Sequential twoCopies ok uploaded.2 :=
    uploaded_sequential fun x member i procs others => lift x.1 x.2 i procs (first x member) others
  exact before.check lift 5 (.component (.executeJob _ "job-" [] rfl)) second

theorem confirmed_sequential (first : ∀ x ∈ uploaded.1, fits x.1 x.2)
    (second : ∀ x ∈ executed.1, fits x.1 x.2) (third : ∀ x ∈ confirmed.1, fits x.1 x.2) :
    Sequential twoCopies ok confirmed.2 :=
  (executed_sequential lift first second).check lift 6
    (.component (.reportRepairResult _ "n1" "job-" true)) third

end Conditions

theorem uploaded_reachable : Sequential twoCopies (fun _ _ _ => True) uploaded.2 :=
  uploaded_sequential fun _ _ _ _ _ => trivial

theorem executed_reachable : Sequential twoCopies (fun _ _ _ => True) executed.2 :=
  uploaded_reachable.andCall twoCopies 5 (.component (.executeJob _ "job-" [] rfl))

theorem confirmed_reachable : Sequential twoCopies (fun _ _ _ => True) confirmed.2 :=
  executed_reachable.andCall twoCopies 6 (.component (.reportRepairResult _ "n1" "job-" true))

end DistributedFs.Scheduler
