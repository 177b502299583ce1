import DistributedFs.Go.Basic
import Mathlib.Data.List.Perm.Subperm

namespace DistributedFs.Storage.FanOut

open Go

structure Result where
  addr : String
  err : Option GoError
deriving DecidableEq

inductive Event where
  | result (r : Result)
  | timeout
  | cancelled (err : GoError)
deriving DecidableEq

inductive Caller where
  | looping (left successCount : Nat) (errs : List GoError) (successfulNodes : List String)
  | returned (nodes : List String) (err : Option GoError)

structure State where
  running : List String
  results : List Result
  expired : Bool
  ctxErr : Option GoError
  caller : Caller

def start (targets : List String) (async : Bool) (ctxErr : Option GoError) : State :=
  if targets.length = 0 then ⟨[], [], false, ctxErr, .returned [] none⟩
  else
    ⟨targets, [], false, ctxErr, if async then .returned [] none else .looping targets.length 0 [] []⟩

def joined (errs : List GoError) : String := "\n".intercalate (errs.map GoError.text)

def timedOut (successCount total : Nat) : GoError :=
  .new ("replication fan-out timed out after 30s: " ++ successCount.repr ++ "/" ++ total.repr ++ " succeeded")

def quorumNotMet (successCount total quorum : Nat) (errs : List GoError) : GoError :=
  .new ("replication quorum not met: " ++ successCount.repr ++ "/" ++ total.repr ++ " succeeded (need " ++
    quorum.repr ++ "): " ++ joined errs)

def record (left successCount : Nat) (errs : List GoError) (successfulNodes : List String) (r : Result) : Caller :=
  match r.err with
  | some err => .looping left successCount (errs ++ [.new (r.addr ++ ": " ++ err.text)]) successfulNodes
  | none => .looping left (successCount + 1) errs (successfulNodes ++ [r.addr])

def evaluate (total successCount : Nat) (errs : List GoError) (successfulNodes : List String) : Caller :=
  let quorum := total / 2 + 1
  if successCount < quorum then
    .returned successfulNodes (some (quorumNotMet successCount total quorum errs))
  else .returned successfulNodes none

/-- A step of a synchronous call of `ReplicateToNodesWithResult`, with what the loop receives in
    it: a goroutine ends its retries with any outcome and sends it, the timer fires, the context
    ends, or the caller takes any of the events that are ready. -/
inductive Step (targets : List String) : State → List Event → State → Prop where
  | send {s : State} {before after : List String} {addr : String} (err : Option GoError)
    (active : s.running = before ++ addr :: after) (room : s.results.length < targets.length) :
    Step targets s [] { s with running := before ++ after, results := s.results ++ [⟨addr, err⟩] }
  | expire (s : State) : Step targets s [] { s with expired := true }
  | cancel {s : State} (err : GoError) (live : s.ctxErr = none) :
    Step targets s [] { s with ctxErr := some err }
  | receive {s : State} {left successCount : Nat} {errs : List GoError} {nodes : List String} {r : Result}
    {rest : List Result} (loops : s.caller = .looping (left + 1) successCount errs nodes)
    (ready : s.results = r :: rest) :
    Step targets s [.result r]
      { s with results := rest, caller := record left successCount errs nodes r }
  | timeout {s : State} {left successCount : Nat} {errs : List GoError} {nodes : List String}
    (loops : s.caller = .looping (left + 1) successCount errs nodes) (ready : s.expired = true) :
    Step targets s [.timeout]
      { s with
        expired := false
        caller := .returned nodes (some (timedOut successCount targets.length)) }
  | done {s : State} {left successCount : Nat} {errs : List GoError} {nodes : List String} {err : GoError}
    (loops : s.caller = .looping (left + 1) successCount errs nodes) (ready : s.ctxErr = some err) :
    Step targets s [.cancelled err] { s with caller := .returned nodes (some err) }
  | finish {s : State} {successCount : Nat} {errs : List GoError} {nodes : List String}
    (loops : s.caller = .looping 0 successCount errs nodes) :
    Step targets s [] { s with caller := evaluate targets.length successCount errs nodes }

inductive Run (targets : List String) (first : State) : List Event → State → Prop where
  | start : Run targets first [] first
  | step {events received : List Event} {s later : State} (before : Run targets first events s)
    (next : Step targets s received later) : Run targets first (events ++ received) later

def Event.success? : Event → Option String
  | .result ⟨addr, none⟩ => some addr
  | _ => none

def Event.addr? : Event → Option String
  | .result r => some r.addr
  | _ => none

def successes (events : List Event) : List String := events.filterMap Event.success?

def AllReceived (targets : List String) (events : List Event) : Prop :=
  events.length = targets.length ∧ ∀ e ∈ events, ∃ r, e = .result r

def Caller.Reflects (targets : List String) (events : List Event) : Caller → Prop
  | .looping left successCount _ nodes =>
    nodes = successes events ∧ successCount = nodes.length ∧ events.length + left = targets.length ∧
      ∀ e ∈ events, ∃ r, e = .result r
  | .returned nodes err =>
    nodes = successes events ∧
      (err = none ↔ AllReceived targets events ∧ targets.length / 2 + 1 ≤ (successes events).length)

def Accounted (targets : List String) (events : List Event) (s : State) : Prop :=
  (events.filterMap Event.addr? ++ s.results.map Result.addr ++ s.running).Perm targets

theorem record_reflects {targets : List String} {events : List Event} {left successCount : Nat}
    {errs : List GoError} {nodes : List String}
    (before : (Caller.looping (left + 1) successCount errs nodes).Reflects targets events) (r : Result) :
    (record left successCount errs nodes r).Reflects targets (events ++ [.result r]) := by
  obtain ⟨listed, counted, turns, results⟩ := before
  have received : ∀ e ∈ events ++ [Event.result r], ∃ r, e = .result r := by
    intro e member
    rcases List.mem_append.mp member with earlier | last
    · exact results e earlier
    · exact ⟨r, List.mem_singleton.mp last⟩
  have length : (events ++ [Event.result r]).length + left = targets.length := by
    rw [List.length_append, List.length_singleton]
    omega
  obtain ⟨addr, err⟩ := r
  cases err with
  | some err =>
    refine ⟨?_, counted, length, received⟩
    rw [listed, successes, successes, List.filterMap_append]
    exact (List.append_nil _).symm
  | none =>
    refine ⟨?_, ?_, length, received⟩
    · rw [listed, successes, successes, List.filterMap_append]
      rfl
    · rw [List.length_append, List.length_singleton, counted]

theorem interrupted_reflects {targets : List String} {events : List Event} {left successCount : Nat}
    {errs : List GoError} {nodes : List String}
    (before : (Caller.looping left successCount errs nodes).Reflects targets events) {e : Event}
    (other : ∀ r, e ≠ .result r) (err : GoError) :
    (Caller.returned nodes (some err)).Reflects targets (events ++ [e]) := by
  obtain ⟨listed, _, _, _⟩ := before
  have nothing : Event.success? e = none := by
    cases e with
    | result r => exact absurd rfl (other r)
    | timeout | cancelled => rfl
  constructor
  · rw [listed, successes, successes, List.filterMap_append, List.filterMap_cons, nothing]
    exact (List.append_nil _).symm
  · constructor
    · intro succeeded
      cases succeeded
    · intro complete
      obtain ⟨r, same⟩ := complete.1.2 e (by simp)
      exact absurd same (other r)

theorem evaluate_reflects {targets : List String} {events : List Event} {successCount : Nat}
    {errs : List GoError} {nodes : List String}
    (before : (Caller.looping 0 successCount errs nodes).Reflects targets events) :
    (evaluate targets.length successCount errs nodes).Reflects targets events := by
  obtain ⟨listed, counted, turns, results⟩ := before
  have complete : AllReceived targets events := ⟨by omega, results⟩
  rw [listed] at counted
  simp only [evaluate]
  by_cases few : successCount < targets.length / 2 + 1
  · rw [if_pos few]
    refine ⟨listed, ?_⟩
    constructor
    · intro succeeded
      cases succeeded
    · intro enough
      omega
  · rw [if_neg few]
    refine ⟨listed, ?_⟩
    constructor
    · intro _
      exact ⟨complete, by omega⟩
    · exact fun _ => rfl

theorem step_reflects {targets : List String} {events received : List Event} {s later : State}
    (before : s.caller.Reflects targets events) (step : Step targets s received later) :
    later.caller.Reflects targets (events ++ received) := by
  cases step with
  | send | expire | cancel =>
    rw [List.append_nil]
    exact before
  | receive loops =>
    rw [loops] at before
    exact record_reflects before _
  | timeout loops =>
    rw [loops] at before
    exact interrupted_reflects before (fun r same => by cases same) _
  | done loops =>
    rw [loops] at before
    exact interrupted_reflects before (fun r same => by cases same) _
  | finish loops =>
    rw [loops] at before
    rw [List.append_nil]
    exact evaluate_reflects before

theorem step_accounted {targets : List String} {events received : List Event} {s later : State}
    (before : Accounted targets events s) (step : Step targets s received later) :
    Accounted targets (events ++ received) later := by
  unfold Accounted at before ⊢
  rw [List.filterMap_append]
  cases step with
  | expire | cancel | finish | timeout | done => simpa [List.filterMap_cons, Event.addr?] using before
  | send err active room =>
    rename_i first last addr
    rw [active] at before
    refine List.Perm.trans ?_ before
    simp only [List.filterMap_nil, List.append_nil, List.map_append, List.map_cons, List.map_nil,
      List.append_assoc, List.singleton_append]
    exact (List.perm_middle.symm.append_left _).append_left _
  | receive loops ready =>
    rw [ready] at before
    simpa [List.filterMap_cons, Event.addr?] using before

theorem start_reflects {targets : List String} (some : targets ≠ []) (ctxErr : Option GoError) :
    (start targets false ctxErr).caller.Reflects targets [] ∧ Accounted targets [] (start targets false ctxErr) := by
  have filled : targets.length ≠ 0 := by simpa using some
  simp only [start, filled, if_false]
  exact ⟨⟨rfl, rfl, Nat.zero_add _, fun _ member => absurd member List.not_mem_nil⟩, List.Perm.refl _⟩

theorem run_reflects {targets : List String} (some : targets ≠ []) {ctxErr : Option GoError}
    {events : List Event} {s : State} (run : Run targets (start targets false ctxErr) events s) :
    s.caller.Reflects targets events ∧ Accounted targets events s := by
  induction run with
  | start => exact start_reflects some ctxErr
  | step _ next ih => exact ⟨step_reflects ih.1 next, step_accounted ih.2 next⟩

/-- A call that has not returned can go on to a return: the timer will fire. -/
theorem run_returns {targets : List String} {first : State} {events : List Event} {s : State}
    (run : Run targets first events s) :
    ∃ received later nodes err, Run targets first (events ++ received) later ∧ later.caller = .returned nodes err := by
  cases caller : s.caller with
  | returned nodes err => exact ⟨[], s, nodes, err, by simpa using run, caller⟩
  | looping left successCount errs nodes =>
    cases left with
    | zero =>
      have last := run.step (.finish caller)
      simp only [evaluate] at last
      split at last
      · exact ⟨_, _, _, _, last, rfl⟩
      · exact ⟨_, _, _, _, last, rfl⟩
    | succ left =>
      have fired := (run.step (.expire s)).step (.timeout caller rfl)
      rw [List.append_assoc] at fired
      exact ⟨_, _, _, _, fired, rfl⟩

/-- A synchronous fan-out can always return, and when it does its error is nil exactly if the
    loop received the result of every target, and nothing else, with a majority of successes;
    the nodes it returns are those whose success was received. -/
theorem fan_out_quorum {targets : List String} (some : targets ≠ []) (ctxErr : Option GoError)
    {events : List Event} {s : State} (run : Run targets (start targets false ctxErr) events s) :
    (∃ received later nodes err, Run targets (start targets false ctxErr) (events ++ received) later ∧
      later.caller = .returned nodes err) ∧
    ∀ nodes err, s.caller = .returned nodes err →
      (err = none ↔ AllReceived targets events ∧ targets.length / 2 + 1 ≤ (successes events).length) ∧
      nodes = successes events ∧ (events.filterMap Event.addr?).Subperm targets := by
  obtain ⟨reflects, accounted⟩ := run_reflects some run
  refine ⟨run_returns run, ?_⟩
  intro nodes err returned
  rw [returned] at reflects
  refine ⟨reflects.2, reflects.1, ?_⟩
  have received := List.sublist_append_left (events.filterMap Event.addr?)
    (s.results.map Result.addr ++ s.running)
  rw [← List.append_assoc] at received
  exact received.subperm.trans accounted.subperm

def twoTargets : List String := ["10.0.0.2:9000", "10.0.0.3:9000"]

def bothConfirm : List Event := [.result ⟨"10.0.0.3:9000", none⟩, .result ⟨"10.0.0.2:9000", none⟩]

theorem bothConfirm_run : Run twoTargets (start twoTargets false none) bothConfirm
    ⟨[], [], true, none, .returned ["10.0.0.3:9000", "10.0.0.2:9000"] none⟩ := by
  have begun : Run twoTargets (start twoTargets false none) [] (start twoTargets false none) := .start
  have active : (start twoTargets false none).running = ["10.0.0.2:9000"] ++ "10.0.0.3:9000" :: [] := rfl
  have sent := begun.step (.send none active (show 0 < 2 by decide))
  have received := sent.step (.receive rfl rfl)
  have last : ["10.0.0.2:9000"] ++ [] = [] ++ "10.0.0.2:9000" :: [] := rfl
  have answered := (received.step (.send none last (show 0 < 2 by decide))).step (.receive rfl rfl)
  have finished := (answered.step (.expire _)).step (.finish rfl)
  exact finished

theorem fan_out_quorum_bothConfirm :
    AllReceived twoTargets bothConfirm ∧ successes bothConfirm = ["10.0.0.3:9000", "10.0.0.2:9000"] := by
  have outcome := (fan_out_quorum (by decide) none bothConfirm_run).2 _ _ rfl
  exact ⟨(outcome.1.mp rfl).1, outcome.2.1.symm⟩

end DistributedFs.Storage.FanOut
