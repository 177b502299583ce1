import DistributedFs.Data.Register
import DistributedFs.Go.Basic
import Mathlib.Algebra.BigOperators.Group.List.Basic
import Mathlib.Algebra.Order.Group.Multiset
import Mathlib.Tactic.Abel

namespace DistributedFs.Storage.RepairQueue

open Go Relation

structure RepairJob where
  jobID : String
  chunkID : String
  source : String
  target : String
deriving DecidableEq

def RepairJob.key (job : RepairJob) : String := job.chunkID ++ ":" ++ job.target

def repairQueueCap : Nat := 256

def numRepairWorkers : Nat := 4

structure ReportRepairResultRequest where
  jobId : String
  jobSucceed : Bool
  error : String
  nodeId : String
deriving DecidableEq

structure Manager where
  inflight : Finset String
  repairQ : List RepairJob
  reports : List ReportRepairResultRequest

/-- Where a call of `EnqueueRepair` is: before the lock, with its key inserted, with the key
    still to be deleted after the queue was full, or back with its result. -/
inductive Caller where
  | calling (job : RepairJob)
  | sending (job : RepairJob)
  | dropping (job : RepairJob)
  | returned (job : RepairJob) (accepted : Bool)
deriving DecidableEq

def enqueueStep (m : Manager) : Caller → Option (Manager × Caller)
  | .calling job =>
    if job.key ∈ m.inflight then some (m, .returned job true)
    else some ({ m with inflight := insert job.key m.inflight }, .sending job)
  | .sending job =>
    if m.repairQ.length < repairQueueCap then
      some ({ m with repairQ := m.repairQ ++ [job] }, .returned job true)
    else some (m, .dropping job)
  | .dropping job => some ({ m with inflight := m.inflight.erase job.key }, .returned job false)
  | .returned _ _ => none

inductive Worker where
  | idle
  | executing (job : RepairJob)
  | reporting (job : RepairJob) (err : Option GoError)
  | releasing (job : RepairJob)
deriving DecidableEq

def report (nodeID : String) (job : RepairJob) : Option GoError → ReportRepairResultRequest
  | some err => ⟨job.jobID, false, err.text, nodeID⟩
  | none => ⟨job.jobID, true, "", nodeID⟩

/-- The next step of a worker; `outcome` is what `policy.Do` returns in it. The result of the
    report is only logged. -/
def workerStep (nodeID : String) (outcome : Option GoError) (m : Manager) : Worker → Option (Manager × Worker)
  | .idle =>
    match m.repairQ with
    | [] => none
    | job :: rest => some ({ m with repairQ := rest }, .executing job)
  | .executing job => some (m, .reporting job outcome)
  | .reporting job err => some ({ m with reports := m.reports ++ [report nodeID job err] }, .releasing job)
  | .releasing job => some ({ m with inflight := m.inflight.erase job.key }, .idle)

structure State where
  manager : Manager
  callers : List Caller
  workers : List Worker

def start : State := ⟨⟨∅, [], []⟩, [], List.replicate numRepairWorkers .idle⟩

inductive Step (nodeID : String) (jobs : Set RepairJob) : State → State → Prop where
  | call (s : State) {job : RepairJob} (member : job ∈ jobs) :
    Step nodeID jobs s { s with callers := s.callers ++ [.calling job] }
  | enqueue {m later : Manager} {x y : Caller} (before after : List Caller) (workers : List Worker)
    (steps : enqueueStep m x = some (later, y)) :
    Step nodeID jobs ⟨m, before ++ x :: after, workers⟩ ⟨later, before ++ y :: after, workers⟩
  | work {m later : Manager} {x y : Worker} (callers : List Caller) (before after : List Worker)
    (outcome : Option GoError) (steps : workerStep nodeID outcome m x = some (later, y)) :
    Step nodeID jobs ⟨m, callers, before ++ x :: after⟩ ⟨later, callers, before ++ y :: after⟩

def Reachable (nodeID : String) (jobs : Set RepairJob) (s : State) : Prop :=
  ReflTransGen (Step nodeID jobs) start s

def Caller.job : Caller → RepairJob
  | .calling job | .sending job | .dropping job | .returned job _ => job

def Caller.held : Caller → Multiset RepairJob
  | .sending job | .dropping job => {job}
  | _ => 0

def Worker.held : Worker → Multiset RepairJob
  | .idle => 0
  | .executing job | .reporting job _ | .releasing job => {job}

def State.underWay (s : State) : Multiset RepairJob :=
  ↑s.manager.repairQ + (s.workers.map Worker.held).sum

def State.held (s : State) : Multiset RepairJob := (s.callers.map Caller.held).sum + s.underWay

def State.register (s : State) : Register RepairJob String := ⟨s.manager.inflight, s.held⟩

section

variable {nodeID : String} {jobs : Set RepairJob} {m later : Manager}

theorem enqueueStep_cases {x y : Caller} (steps : enqueueStep m x = some (later, y)) :
    ∃ job, x.job = job ∧ y.job = job ∧
      (x = .calling job ∧ y = .returned job true ∧ later = m ∨
        x = .calling job ∧ y = .sending job ∧ job.key ∉ m.inflight ∧
          later = { m with inflight := insert job.key m.inflight } ∨
        x = .sending job ∧ y = .returned job true ∧ m.repairQ.length < repairQueueCap ∧
          later = { m with repairQ := m.repairQ ++ [job] } ∨
        x = .sending job ∧ y = .dropping job ∧ later = m ∨
        x = .dropping job ∧ y = .returned job false ∧
          later = { m with inflight := m.inflight.erase job.key }) := by
  cases x with
  | calling job =>
    simp only [enqueueStep] at steps
    split at steps
    · cases steps
      exact ⟨job, rfl, rfl, .inl ⟨rfl, rfl, rfl⟩⟩
    · rename_i fresh
      cases steps
      exact ⟨job, rfl, rfl, .inr (.inl ⟨rfl, rfl, fresh, rfl⟩)⟩
  | sending job =>
    simp only [enqueueStep] at steps
    split at steps
    · rename_i room
      cases steps
      exact ⟨job, rfl, rfl, .inr (.inr (.inl ⟨rfl, rfl, room, rfl⟩))⟩
    · cases steps
      exact ⟨job, rfl, rfl, .inr (.inr (.inr (.inl ⟨rfl, rfl, rfl⟩)))⟩
  | dropping job =>
    cases steps
    exact ⟨job, rfl, rfl, .inr (.inr (.inr (.inr ⟨rfl, rfl, rfl⟩)))⟩
  | returned job accepted => cases steps

theorem workerStep_cases {x y : Worker} {outcome : Option GoError}
    (steps : workerStep nodeID outcome m x = some (later, y)) :
    (∃ job, x = .idle ∧ y = .executing job ∧ m.repairQ = job :: later.repairQ ∧
        later.inflight = m.inflight) ∨
      (x.held = y.held ∧ later.repairQ = m.repairQ ∧ later.inflight = m.inflight) ∨
      ∃ job, x = .releasing job ∧ y = .idle ∧ later.repairQ = m.repairQ ∧
        later.inflight = m.inflight.erase job.key := by
  cases x with
  | idle =>
    simp only [workerStep] at steps
    cases queue : m.repairQ with
    | nil =>
      rw [queue] at steps
      cases steps
    | cons job rest =>
      rw [queue] at steps
      cases steps
      exact .inl ⟨job, rfl, rfl, rfl, rfl⟩
  | executing job =>
    cases steps
    exact .inr (.inl ⟨rfl, rfl, rfl⟩)
  | reporting job err =>
    cases steps
    exact .inr (.inl ⟨rfl, rfl, rfl⟩)
  | releasing job =>
    cases steps
    exact .inr (.inr ⟨job, rfl, rfl, rfl, rfl⟩)

theorem enqueueStep_register {x y : Caller} (member : x.job ∈ jobs) (steps : enqueueStep m x = some (later, y))
    (others : Multiset RepairJob) :
    ReflTransGen (Register.Step RepairJob.key jobs) ⟨m.inflight, x.held + (↑m.repairQ + others)⟩
      ⟨later.inflight, y.held + (↑later.repairQ + others)⟩ := by
  obtain ⟨job, rfl, -, steps⟩ := enqueueStep_cases steps
  generalize x.job = job at member steps
  rcases steps with ⟨rfl, rfl, rfl⟩ | ⟨rfl, rfl, fresh, rfl⟩ | ⟨rfl, rfl, -, rfl⟩ | ⟨rfl, rfl, rfl⟩ | ⟨rfl, rfl, rfl⟩
  · exact .refl
  · simp only [Caller.held, zero_add]
    exact .single (.claim member fresh)
  · have moved : {job} + (↑m.repairQ + others) = 0 + (↑(m.repairQ ++ [job]) + others) := by
      rw [← Multiset.coe_add, Multiset.coe_singleton]
      abel
    simp only [Caller.held]
    rw [moved]
  · exact .refl
  · simp only [Caller.held, zero_add]
    exact .single (.release rfl)

theorem workerStep_register {x y : Worker} {outcome : Option GoError}
    (steps : workerStep nodeID outcome m x = some (later, y)) (others : Multiset RepairJob) :
    ReflTransGen (Register.Step RepairJob.key jobs) ⟨m.inflight, x.held + (↑m.repairQ + others)⟩
      ⟨later.inflight, y.held + (↑later.repairQ + others)⟩ := by
  rcases workerStep_cases steps with ⟨job, rfl, rfl, queue, keys⟩ | ⟨held, queue, keys⟩ | ⟨job, rfl, rfl, queue, keys⟩
  · have moved : 0 + (↑(job :: later.repairQ) + others) = {job} + (↑later.repairQ + others) := by
      rw [← Multiset.cons_coe, ← Multiset.singleton_add]
      abel
    simp only [Worker.held]
    rw [queue, keys, moved]
  · rw [held, queue, keys]
  · simp only [Worker.held, zero_add]
    rw [queue, keys]
    exact .single (.release rfl)

structure Queued (jobs : Set RepairJob) (s : State) : Prop where
  callers : ∀ x ∈ s.callers, x.job ∈ jobs
  bounded : s.manager.repairQ.length ≤ repairQueueCap

theorem Queued.step {s t : State} (queued : Queued jobs s) (step : Step nodeID jobs s t) : Queued jobs t := by
  cases step with
  | call job member =>
    refine ⟨?_, queued.bounded⟩
    intro x listed
    rcases List.mem_append.mp listed with earlier | new
    · exact queued.callers x earlier
    · cases List.mem_singleton.mp new
      exact member
  | enqueue before after workers steps =>
    have bounded := queued.bounded
    obtain ⟨job, same, other, steps⟩ := enqueueStep_cases steps
    refine ⟨?_, ?_⟩
    · intro z listed
      rw [List.mem_append, List.mem_cons] at listed
      rcases listed with earlier | rfl | last
      · exact queued.callers z (List.mem_append_left _ earlier)
      · rw [other, ← same]
        exact queued.callers _ (List.mem_append_right _ List.mem_cons_self)
      · exact queued.callers z (List.mem_append_right _ (List.mem_cons_of_mem _ last))
    · rcases steps with ⟨-, -, rfl⟩ | ⟨-, -, -, rfl⟩ | ⟨-, -, room, rfl⟩ | ⟨-, -, rfl⟩ | ⟨-, -, rfl⟩
      · exact bounded
      · exact bounded
      · rw [List.length_append, List.length_singleton]
        exact room
      · exact bounded
      · exact bounded
  | work callers before after outcome steps =>
    have bounded := queued.bounded
    refine ⟨queued.callers, ?_⟩
    rcases workerStep_cases steps with ⟨job, -, -, queue, -⟩ | ⟨-, queue, -⟩ | ⟨job, -, -, queue, -⟩
    · rw [queue, List.length_cons] at bounded
      exact Nat.le_of_succ_le bounded
    · rw [queue]
      exact bounded
    · rw [queue]
      exact bounded

theorem sum_map_middle {α : Type} (held : α → Multiset RepairJob) (before after : List α) (x : α) :
    ((before ++ x :: after).map held).sum = held x + ((before.map held).sum + (after.map held).sum) := by
  rw [List.map_append, List.map_cons, List.sum_append, List.sum_cons]
  abel

/-- The keys and the jobs in flight are a register: a step of the manager is steps of it. -/
theorem Step.register {s t : State} (queued : Queued jobs s) (step : Step nodeID jobs s t) :
    ReflTransGen (Register.Step RepairJob.key jobs) s.register t.register := by
  cases step with
  | @call _ job member =>
    have same : State.held { s with callers := s.callers ++ [.calling job] } = s.held := by
      unfold State.held
      rw [List.map_append, List.sum_append]
      exact congrArg (· + s.underWay) (add_zero _)
    rw [State.register, State.register, same]
  | @enqueue m later x y before after workers steps =>
    have split (manager : Manager) (z : Caller) :
        State.register ⟨manager, before ++ z :: after, workers⟩ =
          ⟨manager.inflight, z.held + (↑manager.repairQ + ((workers.map Worker.held).sum +
            ((before.map Caller.held).sum + (after.map Caller.held).sum)))⟩ := by
      simp only [State.register, State.held, State.underWay, sum_map_middle]
      congr 1
      abel
    rw [split, split]
    exact enqueueStep_register (queued.callers x (List.mem_append_right _ List.mem_cons_self)) steps _
  | @work m later x y callers before after outcome steps =>
    have split (manager : Manager) (z : Worker) :
        State.register ⟨manager, callers, before ++ z :: after⟩ =
          ⟨manager.inflight, z.held + (↑manager.repairQ + ((callers.map Caller.held).sum +
            ((before.map Worker.held).sum + (after.map Worker.held).sum)))⟩ := by
      simp only [State.register, State.held, State.underWay, sum_map_middle]
      congr 1
      abel
    rw [split, split]
    exact workerStep_register steps _

theorem register_start : start.register = Register.empty := by
  simp [start, State.register, State.held, State.underWay, Worker.held, Register.empty]

theorem Reachable.queued {s : State} (reached : Reachable nodeID jobs s) : Queued jobs s := by
  induction reached with
  | refl => exact ⟨fun x listed => (nomatch listed), Nat.zero_le _⟩
  | tail _ step queued => exact queued.step step

theorem Reachable.register {s : State} (reached : Reachable nodeID jobs s) :
    ReflTransGen (Register.Step RepairJob.key jobs) Register.empty s.register := by
  induction reached with
  | refl => rw [register_start]
  | tail run step ih =>
    have earlier : Reachable nodeID jobs _ := run
    exact ih.trans (step.register earlier.queued)

end

structure Bookkept (jobs : Set RepairJob) (s : State) : Prop where
  distinct : (s.underWay.map fun job => (job.chunkID, job.target)).Nodup
  bounded : s.manager.repairQ.length ≤ repairQueueCap
  tracked : ∀ key, key ∈ s.manager.inflight ↔ s.held.countP (fun job => job.key = key) = 1
  released : ∀ key, key ∉ s.manager.inflight ↔ s.held.countP (fun job => job.key = key) = 0
  blocked : ∀ job ∈ jobs, enqueueStep s.manager (.calling job) = some (s.manager, .returned job true) →
    ∃ other ∈ s.held, other.chunkID = job.chunkID ∧ other.target = job.target

theorem pairs_nodup {held : Multiset RepairJob} (nodup : (held.map RepairJob.key).Nodup) :
    (held.map fun job => (job.chunkID, job.target)).Nodup := by
  apply Multiset.Nodup.of_map fun pair : String × String => pair.1 ++ ":" ++ pair.2
  rw [Multiset.map_map]
  exact nodup

theorem repairs_bookkept (nodeID : String) {jobs : Set RepairJob}
    (separates : ∀ a ∈ jobs, ∀ b ∈ jobs, a.key = b.key → a.chunkID = b.chunkID ∧ a.target = b.target)
    {s : State} (reached : Reachable nodeID jobs s) : Bookkept jobs s := by
  have tracks : Register.Tracks RepairJob.key jobs s.register := Register.tracks_empty.steps reached.register
  have count (key : String) : s.held.countP (fun job => job.key = key) =
      if key ∈ s.manager.inflight then 1 else 0 := by
    have single := tracks.count key
    rw [Multiset.count_map] at single
    rw [Multiset.countP_eq_card_filter]
    simp only [eq_comm (b := key)]
    exact single
  refine ⟨?_, reached.queued.bounded, ?_, ?_, ?_⟩
  · have part : s.underWay ≤ s.held := Multiset.le_add_left _ _
    exact Multiset.nodup_of_le (Multiset.map_le_map part) (pairs_nodup tracks.nodup)
  · intro key
    rw [count]
    by_cases present : key ∈ s.manager.inflight
    · simp only [present, if_true]
    · simp only [present, if_false, zero_ne_one]
  · intro key
    rw [count]
    by_cases present : key ∈ s.manager.inflight
    · simp only [present, if_true, not_true_eq_false, one_ne_zero]
    · simp only [present, if_false, not_false_eq_true]
  · intro job member deduplicated
    have present : job.key ∈ s.manager.inflight := by
      by_contra fresh
      simp only [enqueueStep, fresh, if_false, Option.some.injEq, Prod.mk.injEq, reduceCtorEq, and_false]
        at deduplicated
    obtain ⟨other, held, same⟩ := Multiset.mem_map.mp ((tracks.mem job.key).mp present)
    exact ⟨other, held, separates other (tracks.drawn other held) job member same⟩

def firstRepair : RepairJob := ⟨"job-1", "c1", "n1:9000", "n2:9000"⟩

def secondRepair : RepairJob := ⟨"job-2", "c1", "n1:9000", "n3:9000"⟩

theorem repairs_bookkept_two :
    ∃ s, Reachable "n1" {firstRepair, secondRepair} s ∧
      s.underWay = {firstRepair} + {secondRepair} ∧ Bookkept {firstRepair, secondRepair} s := by
  have separates : ∀ a ∈ ({firstRepair, secondRepair} : Set RepairJob),
      ∀ b ∈ ({firstRepair, secondRepair} : Set RepairJob),
      a.key = b.key → a.chunkID = b.chunkID ∧ a.target = b.target := by
    rintro a (rfl | rfl) b (rfl | rfl) same
    · exact ⟨rfl, rfl⟩
    · exact absurd same (by decide)
    · exact absurd same (by decide)
    · exact ⟨rfl, rfl⟩
  have called : Reachable "n1" {firstRepair, secondRepair} _ :=
    ((ReflTransGen.refl (a := start)).tail (.call start (.inl rfl))).tail (.call _ (.inr rfl))
  have inserted := called.tail (.enqueue [] [_] _ rfl)
  have queued := (inserted.tail (.enqueue [] [_] _ rfl)).tail (.work _ [] _ none rfl)
  have second := (queued.tail (.enqueue [_] [] _ rfl)).tail (.enqueue [_] [] _ rfl)
  exact ⟨_, second, by decide, repairs_bookkept "n1" separates second⟩

end DistributedFs.Storage.RepairQueue
