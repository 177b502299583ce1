import DistributedFs.Scheduler.Runs

namespace DistributedFs.Scheduler

open Go Fsm MetadataFSM Healing Healing.Prog
open Concurrency (Event Steps)

def backoff (k : Nat) : Duration := min (2 ^ min k 6) 60 * second

theorem retryDelay_eq_backoff (attempt : UInt64) : retryDelay attempt = backoff attempt.toNat := by
  have exponent : (min attempt 6).toNat = min attempt.toNat 6 := by
    show (if attempt ≤ 6 then attempt else 6).toNat = min attempt.toNat 6
    split
    · rename_i small
      exact (min_eq_left (UInt64.le_iff_toNat_le.mp small)).symm
    · rename_i large
      rw [UInt64.le_iff_toNat_le] at large
      exact (min_eq_right (by omega)).symm
  have bound : min attempt.toNat 6 ≤ 6 := Nat.min_le_right _ _
  rw [retryDelay, backoff, exponent]
  generalize min attempt.toNat 6 = n at bound
  have cases : n = 0 ∨ n = 1 ∨ n = 2 ∨ n = 3 ∨ n = 4 ∨ n = 5 ∨ n = 6 := by omega
  rcases cases with rfl | rfl | rfl | rfl | rfl | rfl | rfl <;> decide

theorem backoff_eq_first {k : Nat} (positive : 1 ≤ k) : 2 * second = backoff k ↔ k = 1 := by
  have cases : min k 6 = 1 ∨ min k 6 = 2 ∨ min k 6 = 3 ∨ min k 6 = 4 ∨ min k 6 = 5 ∨ min k 6 = 6 := by omega
  have first : min k 6 = 1 ↔ k = 1 := by omega
  rw [← first, backoff]
  rcases cases with same | same | same | same | same | same <;> rw [same] <;> decide

theorem retryDelay_first : retryDelay (0 + 1) = 2 * second := by
  rw [retryDelay_eq_backoff]
  rfl

def looked (trace : List (System × Label)) : List FSM :=
  trace.filterMap fun entry =>
    match entry.2 with
    | .look => some entry.1.fsm
    | _ => none

def ownTrace (i : Nat) (events : List (Event System Label Label.Result)) : List (System × Label) :=
  (events.filter (·.proc = i)).map fun e => (e.before, e.label)

/-- The delay that the report of a failure has led to, by what its process did so far: it looks
    at the state for the first time when it reads the job. -/
def chosenDelay (rs : RepairScheduler) (jobID : String) (trace : List (System × Label)) : Option Duration :=
  match looked trace with
  | m :: later :: _ =>
    match m.getRepairJob jobID with
    | .error _ => none
    | .ok job => retryAfter rs job later
  | _ => none

def creates (jobID chunkID : String) : Label → Bool
  | .propose (.createRepairJob req) => req.jobID = jobID ∧ req.chunkID = chunkID ∧ req.deleteSource = false
  | _ => false

/-- In a run, the repair of the chunk has failed `k` times in a row: in this configuration process
    `i` starts to handle the report of the last failure, of this job. Each job after the first
    was created by the process that handled the failure of the one before. -/
inductive FailedInARow (parts : Components) (chunkID : String) : Nat → Config → Nat → String → Prop where
  | first {c : Config} (reached : Concurrency.Reachable (world parts) empty c) {i : Nat}
    {nodeID jobID : String} (running : c.procs[i]? = some (reportRepairResult parts nodeID jobID false))
    {job : RepairJob} (known : c.state.fsm.repairJobRegistry.lookup jobID = some job)
    (copied : job.chunkID = chunkID) (copies : job.deleteSource = false) :
    FailedInARow parts chunkID 1 c i jobID
  | again {k : Nat} {c : Config} {i : Nat} {failed : String} (before : FailedInARow parts chunkID k c i failed)
    {events : List (Event System Label Label.Result)} {last : Config}
    (steps : Steps (world parts) c events last) {jobID : String} {e : Event System Label Label.Result}
    (member : e ∈ events) (own : e.proc = i) (created : creates jobID chunkID e.label = true) {j : Nat}
    {nodeID : String} (running : last.procs[j]? = some (reportRepairResult parts nodeID jobID false))
    {job : RepairJob} (known : last.state.fsm.repairJobRegistry.lookup jobID = some job) :
    FailedInARow parts chunkID (k + 1) last j jobID

def Untried (m : FSM) : Prop := ∀ id job, m.repairJobRegistry.lookup id = some job → job.attempts = 0

def Uncounted : Label → Prop
  | .propose (.updateRepairJob req) => req.attempts = 0
  | _ => True

theorem JobStep.untried {m after : FSM} {label : Label} (step : JobStep m label after) (untried : Untried m)
    (uncounted : Uncounted label) : Untried after := by
  intro id job found
  rcases step.origin found with older | ⟨req, _, _, same⟩ | ⟨req, old, updates, _, _, same⟩
  · exact untried id job older
  · rw [same]
    rfl
  · subst updates same
    exact uncounted

def uncounting : Concurrency.Protocol Unit Label Label.Result := .only Uncounted

section Programs

open Concurrency.Protocol

theorem uncounted_routine (label : Label) (routine : Routine label) (stage : Unit) :
    uncounting.allowed stage label := by
  cases label with
  | propose cmd =>
    cases cmd with
    | updateRepairJob req => exact routine.2
    | _ => trivial
  | _ => trivial

theorem spawn_uncounted {parts : Components} {s later : System} {prog : Prog}
    (spawned : Spawn parts s prog later) : uncounting.Follows () prog :=
  spawn_only parts (fun label routine => uncounted_routine label routine ()) (fun _ => trivial) (fun _ => trivial)
    (fun _ _ => trivial) (fun _ untried => untried) spawned

end Programs

structure NeverCounted (c : Config) : Prop where
  follows : ∀ (i : Nat) prog, c.procs[i]? = some prog → uncounting.Follows () prog
  untried : Untried c.state.fsm

namespace NeverCounted

open Concurrency (getElem?_set_cases getElem?_spawned)

theorem spawn {parts : Components} (c : Config) (prog : Prog) (later : System) (before : NeverCounted c)
    (spawned : Spawn parts c.state prog later) : NeverCounted ⟨later, c.procs ++ [prog]⟩ where
  follows i other listed := by
    rcases getElem?_spawned listed with same | listed
    · rw [same]
      exact spawn_uncounted spawned
    · exact before.follows i other listed
  untried := by
    rw [spawn_fsm parts spawned]
    exact before.untried

theorem act (c : Config) (i : Nat) (label : Label) (next : label.Result → Prog) (result : label.Result)
    (later : System) (before : NeverCounted c) (running : c.procs[i]? = some (.act label next))
    (ran : Exec label c.state result later) : NeverCounted ⟨later, c.procs.set i (next result)⟩ := by
  obtain ⟨uncounted, rest⟩ := before.follows i _ running
  refine ⟨?_, (exec_fsmStep ran).jobs.untried before.untried uncounted⟩
  intro j prog listed
  rcases getElem?_set_cases listed with ⟨_, same⟩ | ⟨_, listed⟩
  · rw [same]
    exact rest result () trivial
  · exact before.follows j prog listed

theorem reached {parts : Components} {c : Config} (reached : Concurrency.Reachable (world parts) empty c) :
    NeverCounted c := by
  induction reached with
  | start =>
    constructor
    · intro i prog listed
      cases listed
    · intro id job found
      cases found
  | spawn _ prog later allowed ih => exact ih.spawn _ prog later allowed
  | act _ i label next running _ result later ran ih => exact ih.act _ i label next result later running ran

theorem steps {parts : Components} {c last : Config} {events : List (Event System Label Label.Result)}
    (steps : Steps (world parts) c events last) (before : NeverCounted c) :
    NeverCounted last ∧ ∀ e ∈ events, Untried e.before.fsm := by
  obtain ⟨now, earlier⟩ := steps.keeps spawn act before
  refine ⟨now, ?_⟩
  intro e member
  obtain ⟨procs, then_⟩ := earlier e member
  exact then_.untried

end NeverCounted

section Chains

variable {parts : Components} {chunkID jobID : String} {k i : Nat} {c : Config}

theorem FailedInARow.positive (failed : FailedInARow parts chunkID k c i jobID) : 1 ≤ k := by
  cases failed with
  | first => exact Nat.le_refl 1
  | again => exact Nat.le_add_left 1 _

theorem FailedInARow.neverCounted (failed : FailedInARow parts chunkID k c i jobID) : NeverCounted c := by
  induction failed with
  | first reached => exact .reached reached
  | again _ steps _ _ _ _ _ ih => exact (NeverCounted.steps steps ih).1

theorem mem_looked {trace : List (System × Label)} {m : FSM} (seen : m ∈ looked trace) :
    ∃ entry ∈ trace, entry.1.fsm = m := by
  obtain ⟨entry, member, found⟩ := List.mem_filterMap.mp seen
  split at found
  · exact ⟨entry, member, Option.some.inj found⟩
  · cases found

theorem retryAfter_untried {rs : RepairScheduler} {job : RepairJob} (untried : job.attempts = 0) {later : FSM}
    {delay : Duration} (chosen : retryAfter rs job later = some delay) : delay = 2 * second := by
  unfold retryAfter at chosen
  rw [untried, retryDelay_first] at chosen
  split at chosen
  · cases chosen
  · split at chosen
    · exact (Option.some.inj chosen).symm
    · cases chosen

/-- The delay after the failure number `k` in a row is the one for the first failure, so that it is
    the one that is meant exactly if `k` is one. -/
theorem backoff_iff (failed : FailedInARow parts chunkID k c i jobID)
    {events : List (Event System Label Label.Result)} {last : Config} (steps : Steps (world parts) c events last)
    {delay : Duration} (chosen : chosenDelay parts.scheduler jobID (ownTrace i events) = some delay) :
    delay = 2 * second ∧ (delay = backoff k ↔ k = 1) := by
  obtain ⟨_, before⟩ := NeverCounted.steps steps failed.neverCounted
  have same : delay = 2 * second := by
    unfold chosenDelay at chosen
    split at chosen
    · rename_i m later rest order
      have seen : m ∈ looked (ownTrace i events) := by
        rw [order]
        exact List.mem_cons_self
      obtain ⟨entry, member, here⟩ := mem_looked seen
      obtain ⟨e, listed, equal⟩ := List.mem_map.mp member
      subst equal here
      have untried := before e (List.mem_of_mem_filter listed)
      split at chosen
      · cases chosen
      · rename_i job read
        exact retryAfter_untried (untried jobID job (lookup_of_getRepairJob read)) chosen
    · cases chosen
  refine ⟨same, ?_⟩
  rw [same]
  exact backoff_eq_first failed.positive

end Chains

def failedOnce : List (System × Label) × System :=
  alone 6 (reportRepairResult twoCopies "n1" "job-" false) executed.2

def failedTwice : List (System × Label) × System :=
  alone 7 (reportRepairResult twoCopies "n1" "job-i" false) failedOnce.2

theorem report_steps (c : Config) (now : Time) (nodeID jobID : String) :
    ∃ events procs, Steps (world twoCopies)
        ⟨c.state, c.procs ++ [reportRepairResult twoCopies nodeID jobID false]⟩ events
        ⟨(alone now (reportRepairResult twoCopies nodeID jobID false) c.state).2, procs⟩ ∧
      ownTrace c.procs.length events = (alone now (reportRepairResult twoCopies nodeID jobID false) c.state).1 := by
  have begun : Steps (world twoCopies)
      ⟨c.state, c.procs ++ [reportRepairResult twoCopies nodeID jobID false]⟩ []
      ⟨c.state, c.procs ++ [reportRepairResult twoCopies nodeID jobID false]⟩ := .refl
  have running : (c.procs ++ [reportRepairResult twoCopies nodeID jobID false])[c.procs.length]? =
      some (reportRepairResult twoCopies nodeID jobID false) := List.getElem?_concat_length
  obtain ⟨events, procs, steps, _, trace, own⟩ := begun.runAlone (execFresh_exec now) _ running
  rw [List.nil_append] at steps
  refine ⟨events, procs, steps, ?_⟩
  have all : events.filter (·.proc = c.procs.length) = events := by
    apply List.filter_eq_self.mpr
    intro e member
    exact decide_eq_true (own e member).1
  rw [ownTrace, all]
  exact trace

theorem executed_failed : ∃ procs events last,
    FailedInARow twoCopies "ck-1" 1
      ⟨executed.2, procs ++ [reportRepairResult twoCopies "n1" "job-" false]⟩ procs.length "job-" ∧
    Steps (world twoCopies) ⟨executed.2, procs ++ [reportRepairResult twoCopies "n1" "job-" false]⟩ events
      ⟨failedOnce.2, last⟩ ∧ ownTrace procs.length events = failedOnce.1 := by
  obtain ⟨procs, _, reached⟩ := executed_reachable
  have received := reached.spawn _ _ (Spawn.component (.reportRepairResult executed.2 "n1" "job-" false))
  obtain ⟨events, last, steps, own⟩ := report_steps ⟨executed.2, procs⟩ 6 "n1" "job-"
  have known : executed.2.fsm.repairJobRegistry.lookup "job-" =
      some ⟨"job-", "ck-1", "", false, "n1", "n2", .inProgress, 0, 3, 5⟩ := by decide +kernel
  exact ⟨procs, events, last, .first received List.getElem?_concat_length known rfl rfl, steps, own⟩

theorem backoff_iff_failedOnce : ∃ c i events last delay, FailedInARow twoCopies "ck-1" 1 c i "job-" ∧
    Steps (world twoCopies) c events last ∧
    chosenDelay twoCopies.scheduler "job-" (ownTrace i events) = some delay ∧ delay = backoff 1 := by
  obtain ⟨procs, events, last, failed, steps, own⟩ := executed_failed
  have chosen : chosenDelay twoCopies.scheduler "job-" (ownTrace procs.length events) = some (2 * second) := by
    rw [own]
    decide +kernel
  exact ⟨_, _, events, _, _, failed, steps, chosen, (backoff_iff failed steps chosen).2.mpr rfl⟩

/-- The second failure in a row leads to the same delay of two seconds, where four are meant. -/
theorem second_failure_not_backed_off : ∃ c i events last, FailedInARow twoCopies "ck-1" 2 c i "job-i" ∧
    Steps (world twoCopies) c events last ∧
    chosenDelay twoCopies.scheduler "job-i" (ownTrace i events) = some (2 * second) ∧
    backoff 2 = 4 * second := by
  obtain ⟨procs, events, last, failed, steps, own⟩ := executed_failed
  obtain ⟨entry, member, created⟩ : ∃ entry ∈ ownTrace procs.length events,
      creates "job-i" "ck-1" entry.2 = true := by
    rw [own]
    decide +kernel
  obtain ⟨e, listed, same⟩ := List.mem_map.mp member
  obtain ⟨inside, mine⟩ := List.mem_filter.mp listed
  subst same
  have known : failedOnce.2.fsm.repairJobRegistry.lookup "job-i" =
      some ⟨"job-i", "ck-1", "", false, "n1", "n2", .pending, 0, 6, 6⟩ := by decide +kernel
  have received := steps.spawn _ _ (Spawn.component (.reportRepairResult failedOnce.2 "n1" "job-i" false))
  have again := failed.again received inside (of_decide_eq_true mine) created List.getElem?_concat_length known
  obtain ⟨events', last', steps', own'⟩ := report_steps ⟨failedOnce.2, last⟩ 7 "n1" "job-i"
  refine ⟨_, _, events', _, again, steps', ?_, by decide⟩
  rw [own']
  show chosenDelay twoCopies.scheduler "job-i" failedTwice.1 = some (2 * second)
  decide +kernel

end DistributedFs.Scheduler
