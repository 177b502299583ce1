import DistributedFs.Concurrency.Interference
import DistributedFs.Concurrency.Protocol
import DistributedFs.Data.Handles
import DistributedFs.Internal.LeaderClient

namespace DistributedFs.Internal

open Go Server Concurrency

/-- How a call over a connection ends: with an answer, which may be an error of the transport, or
    cancelled because the connection is closed. -/
inductive Answer where
  | served (reply : Option CallError)
  | closing

def Answer.err : Answer → Option CallError
  | served reply => reply
  | closing => some (.status ⟨.canceled, "grpc: the client connection is closing", none⟩)

def connClosing : GoError := .new "rpc error: code = Canceled desc = grpc: the client connection is closing"

/-- The atomic actions of the goroutines that share a client: the sections of the cache under its mutex,
    dialling, calls over a connection, and the context. `returned` is the end of an `Invoke`. -/
inductive ClientLabel where
  | ctxErr
  | conn
  | call (k : Nat)
  | dial (addr : String)
  | install (addr : String) (k : Nat)
  | advanceNextIdx
  | nextAddr
  | sleep
  | returned (err : Option GoError)

abbrev ClientLabel.Result : ClientLabel → Type
  | .ctxErr | .sleep => Option GoError
  | .conn => Option Nat
  | .call _ => Answer
  | .dial _ => Except GoError Nat
  | .nextAddr => String
  | .install .. | .advanceNextIdx | .returned _ => Unit

abbrev ClientProg := Prog ClientLabel ClientLabel.Result

namespace ClientProg

def ret (err : Option GoError) : ClientProg := .act (.returned err) fun _ => .done

/-- `LeaderCache.Update`, which dials before it takes the mutex. -/
def update (addr : String) (next : Option GoError → ClientProg) : ClientProg :=
  .act (.dial addr) fun
    | .error err => next (some (.new ("leaderclient: failed to dial " ++ addr ++ ": " ++ err.text)))
    | .ok k => .act (.install addr k) fun _ => next none

def connect (seeds : List String) : List String → ClientProg
  | [] => ret (some (.new ("leaderclient: failed to connect to any seed address: [" ++ " ".intercalate seeds ++ "]")))
  | addr :: rest => update addr fun
    | none => ret none
    | some _ => .act .advanceNextIdx fun _ => connect seeds rest

def redirectAddr : CallError → Option String
  | .status err => if err.code = .failedPrecondition then err.leaderGrpcAddr else none
  | .plain _ => none

def rotate (again : ClientProg) : ClientProg :=
  let slept : ClientProg := .act .sleep fun
    | some err => ret (some err)
    | none => again
  .act .advanceNextIdx fun _ => .act .nextAddr fun nextAddr => .act .conn fun conn =>
    if conn = none ∨ nextAddr ≠ "" then update nextAddr fun _ => slept else slept

def failed (err : CallError) (left : Nat) (again : ClientProg) : ClientProg :=
  let retry : ClientProg :=
    if err.retryable = false then ret (some err.err)
    else if left = 0 then again
    else rotate again
  match redirectAddr err with
  | none => retry
  | some addr => update addr fun
    | none => again
    | some _ => retry

/-- The loop of `Invoke` with `left` rounds to go; how long it sleeps does not matter here. -/
def rounds (maxAttempts : Int) : Nat → ClientProg
  | 0 => ret (some (attemptsExhausted maxAttempts))
  | left + 1 =>
    .act .ctxErr fun
      | some err => ret (some err)
      | none => .act .conn fun
        | none => ret (some (.new "leaderclient: no metadata connection available"))
        | some k => .act (.call k) fun answer =>
          match answer.err with
          | none => ret none
          | some err => failed err left (rounds maxAttempts left)

def invoke (maxAttempts : Int) : ClientProg := rounds maxAttempts maxAttempts.toNat

end ClientProg

structure SharedCache where
  currentAddr : String
  seedAddrs : List String
  nextIdx : Nat
  conn : Option Nat
  handles : Handles

namespace SharedCache

def new (seeds : List String) : SharedCache := ⟨"", seeds, 0, none, .empty⟩

def nextAddr (s : SharedCache) : String :=
  if s.seedAddrs.length = 0 then s.currentAddr else s.seedAddrs.getD (s.nextIdx % s.seedAddrs.length) ""

/-- The section of `Update` under the mutex: the connection just made is closed if the cache has one to
    the address, and takes the place of the old one otherwise. -/
def install (addr : String) (k : Nat) (s : SharedCache) : SharedCache :=
  if s.currentAddr = addr ∧ s.conn.isSome then { s with handles := s.handles.release k }
  else
    { s with
      conn := some k
      currentAddr := addr
      handles := s.conn.elim s.handles fun old => s.handles.release old }

inductive Exec (s : SharedCache) : (label : ClientLabel) → label.Result → SharedCache → Prop where
  | ctxErr (err : Option GoError) : Exec s .ctxErr err s
  | conn : Exec s .conn s.conn s
  | served (k : Nat) (reply : Option CallError) : Exec s (.call k) (.served reply) s
  | closing (k : Nat) (closed : ¬s.handles.Open k) : Exec s (.call k) .closing s
  | dialled (addr : String) : Exec s (.dial addr) (.ok s.handles.made) { s with handles := s.handles.acquire }
  | notDialled (addr : String) (err : GoError) : Exec s (.dial addr) (.error err) s
  | install (addr : String) (k : Nat) : Exec s (.install addr k) () (s.install addr k)
  | advanceNextIdx : Exec s .advanceNextIdx () { s with nextIdx := s.nextIdx + 1 }
  | nextAddr : Exec s .nextAddr s.nextAddr s
  | sleep (err : Option GoError) : Exec s .sleep err s
  | returned (err : Option GoError) : Exec s (.returned err) () s

inductive Spawn (s : SharedCache) : ClientProg → SharedCache → Prop where
  | new : Spawn s (ClientProg.connect s.seedAddrs s.seedAddrs) s
  | invoke (maxAttempts : Int) : Spawn s (ClientProg.invoke maxAttempts) s

def world : World SharedCache ClientLabel ClientLabel.Result :=
  ⟨fun label s => Exec s label, Spawn⟩

end SharedCache

abbrev ClientConfig := Config SharedCache ClientLabel ClientLabel.Result

/-- What a goroutine holds between its actions: the connection it has just read, and the one it has just
    dialled. -/
structure Hand where
  seen : Option Nat
  held : Option (String × Nat)

namespace Hand

def empty : Hand := ⟨none, none⟩

def allowed (hand : Hand) : ClientLabel → Prop
  | .call k => hand = ⟨some k, none⟩
  | .install addr k => hand.held = some (addr, k)
  | _ => hand.held = none

def next : (label : ClientLabel) → label.Result → Hand
  | .conn, found => ⟨found, none⟩
  | .dial addr, .ok k => ⟨none, some (addr, k)⟩
  | _, _ => empty

def GivesUp : (label : ClientLabel) → (label.Result → ClientProg) → Prop
  | .call _, rest => rest .closing = ClientProg.ret (some connClosing)
  | _, _ => True

/-- A program calls only over the connection it has just read, gives up where that was closed, and
    installs at once the one it dialled. -/
def Fits : Hand → ClientProg → Prop
  | hand, .done => hand.held = none
  | hand, .act label rest =>
    hand.allowed label ∧ GivesUp label rest ∧ ∀ result, Fits (next label result) (rest result)

end Hand

namespace ClientProg

variable {seen : Option Nat}

theorem ret_keeps (err : Option GoError) : Hand.Fits ⟨seen, none⟩ (ret err) := ⟨rfl, trivial, fun _ => rfl⟩

theorem update_keeps (addr : String) {next : Option GoError → ClientProg}
    (rest : ∀ answer, Hand.Fits Hand.empty (next answer)) : Hand.Fits ⟨seen, none⟩ (update addr next) := by
  refine ⟨rfl, trivial, ?_⟩
  intro result
  cases result with
  | error err => exact rest _
  | ok k => exact ⟨rfl, trivial, fun _ => rest none⟩

theorem connect_keeps (seeds addrs : List String) : Hand.Fits Hand.empty (connect seeds addrs) := by
  induction addrs with
  | nil => exact ret_keeps _
  | cons addr rest ih =>
    refine update_keeps addr ?_
    intro answer
    cases answer with
    | none => exact ret_keeps _
    | some err => exact ⟨rfl, trivial, fun _ => ih⟩

theorem rotate_keeps {again : ClientProg} (rest : Hand.Fits Hand.empty again) : Hand.Fits Hand.empty (rotate again) := by
  have slept : ∀ seen, Hand.Fits ⟨seen, none⟩ (.act .sleep fun
      | some err => ret (some err)
      | none => again) := by
    refine fun seen => ⟨rfl, trivial, ?_⟩
    intro stopped
    cases stopped with
    | none => exact rest
    | some err => exact ret_keeps _
  refine ⟨rfl, trivial, fun _ => ⟨rfl, trivial, fun nextAddr => ⟨rfl, trivial, fun conn => ?_⟩⟩⟩
  dsimp only
  split
  · exact update_keeps nextAddr fun _ => slept _
  · exact slept conn

theorem failed_keeps (err : CallError) (left : Nat) {again : ClientProg} (rest : Hand.Fits Hand.empty again) :
    Hand.Fits Hand.empty (failed err left again) := by
  have retry : Hand.Fits Hand.empty
      (if err.retryable = false then ret (some err.err) else if left = 0 then again else rotate again) := by
    split
    · exact ret_keeps _
    · split
      · exact rest
      · exact rotate_keeps rest
  unfold failed
  dsimp only
  split
  · exact retry
  · refine update_keeps _ ?_
    intro answer
    cases answer with
    | none => exact rest
    | some _ => exact retry

theorem rounds_keeps (maxAttempts : Int) (left : Nat) : Hand.Fits Hand.empty (rounds maxAttempts left) := by
  induction left with
  | zero => exact ret_keeps _
  | succ left ih =>
    refine ⟨rfl, trivial, ?_⟩
    intro ended
    cases ended with
    | some err => exact ret_keeps _
    | none =>
      refine ⟨rfl, trivial, ?_⟩
      intro found
      cases found with
      | none => exact ret_keeps _
      | some k =>
        refine ⟨rfl, rfl, ?_⟩
        intro answer
        dsimp only
        split
        · exact ret_keeps _
        · exact failed_keeps _ left ih

end ClientProg

namespace SharedCache

theorem Spawn.keeps {s later : SharedCache} {prog : ClientProg} (spawned : Spawn s prog later) :
    later = s ∧ Hand.Fits Hand.empty prog := by
  cases spawned with
  | new => exact ⟨rfl, ClientProg.connect_keeps _ _⟩
  | invoke maxAttempts => exact ⟨rfl, ClientProg.rounds_keeps _ _⟩

def owner (s : SharedCache) (hands : Nat → Hand) : Option Nat → Option Nat
  | none => s.conn
  | some i => (hands i).held.map Prod.snd

theorem owner_update (s later : SharedCache) (hands : Nat → Hand) (i : Nat) (hand : Hand) :
    later.owner (Function.update hands i hand) =
      Function.update (Function.update (s.owner hands) (some i) (hand.held.map Prod.snd)) none later.conn := by
  funext j
  cases j with
  | none => rw [Function.update_self]; rfl
  | some j =>
    rw [Function.update_of_ne (by simp)]
    by_cases here : j = i
    · rw [here, Function.update_self]
      simp only [owner, Function.update_self]
    · rw [Function.update_of_ne (by simpa using here)]
      simp only [owner, Function.update_of_ne here]

theorem owner_quiet {s later : SharedCache} {hands : Nat → Hand} {i : Nat} {hand : Hand}
    (same : later.conn = s.conn) (before : (hands i).held = none) (after : hand.held = none) :
    later.owner (Function.update hands i hand) = s.owner hands := by
  rw [owner_update s, same, after]
  have mine : s.owner hands (some i) = none := by simp [owner, before]
  rw [show Option.map Prod.snd (none : Option (String × Nat)) = s.owner hands (some i) from mine.symm,
    Function.update_eq_self, show s.conn = s.owner hands none from rfl, Function.update_eq_self]

end SharedCache

open SharedCache

abbrev ClientEvent := Event SharedCache ClientLabel ClientLabel.Result

def Replaces (k : Nat) (e : ClientEvent) : Prop :=
  ∃ addr other, e.label = .install addr other ∧ e.before.conn = some k ∧ e.before.currentAddr ≠ addr

structure HasRead (events between : List ClientEvent) (i k : Nat) : Prop where
  read : ∃ pre s, events = pre ++ ⟨i, s, .conn, some k, s⟩ :: between
  quiet : ∀ e ∈ between, e.proc ≠ i

structure Tracked (events : List ClientEvent) (c : ClientConfig) (hands : Nat → Hand) : Prop where
  keeps : ∀ i prog, c.procs[i]? = some prog → (hands i).Fits prog
  idle : ∀ i, c.procs.length ≤ i → hands i = Hand.empty
  owned : c.state.handles.OwnedBy (c.state.owner hands)
  recent : ∀ i k, (hands i).seen = some k → ∃ between, HasRead events between i k ∧
    (c.state.conn = some k ∨ ∃ e ∈ between, Replaces k e)

namespace Tracked

variable {events : List ClientEvent} {c : ClientConfig} {hands : Nat → Hand}

theorem start (seeds : List String) : Tracked [] ⟨.new seeds, []⟩ (fun _ => Hand.empty) where
  keeps i prog running := by simp at running
  idle _ _ := rfl
  owned := by
    have nobody : (SharedCache.new seeds).owner (fun _ => Hand.empty) = fun _ => none := by
      funext i
      cases i with
      | none => rfl
      | some i => rfl
    rw [nobody]
    exact .empty
  recent i k seen := by cases seen

theorem spawn (tracked : Tracked events c hands) {prog : ClientProg} {later : SharedCache}
    (spawned : Spawn c.state prog later) : Tracked events ⟨later, c.procs ++ [prog]⟩ hands := by
  obtain ⟨rfl, keeps⟩ := spawned.keeps
  refine ⟨?_, ?_, tracked.owned, tracked.recent⟩
  · intro i other running
    rcases Nat.lt_or_ge i c.procs.length with below | above
    · rw [List.getElem?_append_left below] at running
      exact tracked.keeps i other running
    · rw [List.getElem?_append_right above] at running
      rw [tracked.idle i above]
      have first : i - c.procs.length = 0 := by
        have bound := (List.getElem?_eq_some_iff.mp running).1
        simp at bound
        omega
      rw [first] at running
      cases running
      exact keeps
  · intro i beyond
    simp only [List.length_append, List.length_singleton] at beyond
    exact tracked.idle i (by omega)

theorem owned_act (tracked : Tracked events c hands) {i : Nat} {label : ClientLabel} {result : label.Result}
    {later : SharedCache} (allowed : (hands i).allowed label) (ran : Exec c.state label result later) :
    later.handles.OwnedBy (later.owner (Function.update hands i (Hand.next label result))) := by
  have quiet {later : SharedCache} {hand : Hand} (handles : later.handles = c.state.handles)
      (same : later.conn = c.state.conn) (before : (hands i).held = none) (after : hand.held = none) :
      later.handles.OwnedBy (later.owner (Function.update hands i hand)) := by
    rw [handles, owner_quiet same before after]
    exact tracked.owned
  cases ran with
  | ctxErr | conn | sleep | advanceNextIdx | nextAddr | returned => exact quiet rfl rfl allowed rfl
  | served k reply =>
    have read : hands i = ⟨some k, none⟩ := allowed
    exact quiet rfl rfl (by rw [read]) rfl
  | closing k closed =>
    have read : hands i = ⟨some k, none⟩ := allowed
    exact quiet rfl rfl (by rw [read]) rfl
  | notDialled addr err => exact quiet rfl rfl allowed rfl
  | dialled addr =>
    have free : c.state.owner hands (some i) = none := by
      have empty : (hands i).held = none := allowed
      simp [owner, empty]
    have acquired := tracked.owned.acquire free
    have cached : Function.update (c.state.owner hands) (some i) (some c.state.handles.made) none = c.state.conn :=
      Function.update_of_ne (by simp) _ _
    rw [owner_update c.state]
    simp only [Hand.next, Option.map_some]
    rw [← cached, Function.update_eq_self]
    exact acquired
  | install addr k =>
    have held : (hands i).held = some (addr, k) := allowed
    have mine : c.state.owner hands (some i) = some k := by simp [owner, held]
    have emptied : (Hand.next (.install addr k) ()).held.map Prod.snd = none := rfl
    rw [owner_update c.state, emptied]
    unfold SharedCache.install
    by_cases cached : c.state.currentAddr = addr ∧ c.state.conn.isSome
    · -- the cache has a connection to the address, and the new one is closed
      have kept : Function.update (c.state.owner hands) (some i) none none = c.state.conn :=
        Function.update_of_ne (by simp) _ _
      simp only [if_pos cached]
      rw [← kept, Function.update_eq_self]
      exact tracked.owned.release mine
    · simp only [if_neg cached]
      cases old : c.state.conn with
      | none => exact tracked.owned.move mine old
      | some replaced =>
        have released := tracked.owned.release (i := none) old
        have still : Function.update (c.state.owner hands) none none (some i) = some k :=
          (Function.update_of_ne (by simp) _ _).trans mine
        have moved := released.move still (Function.update_self ..)
        rw [Function.update_comm (by simp), Function.update_idem, Function.update_comm (by simp)] at moved
        exact moved

theorem conn_act {i : Nat} {label : ClientLabel} {result : label.Result} {s later : SharedCache}
    (ran : Exec s label result later) {k : Nat} (cached : s.conn = some k) :
    later.conn = some k ∨ Replaces k ⟨i, s, label, result, later⟩ := by
  cases ran with
  | install addr other =>
    unfold SharedCache.install
    by_cases same : s.currentAddr = addr ∧ s.conn.isSome
    · rw [if_pos same]
      exact .inl cached
    · rw [if_neg same]
      refine .inr ⟨addr, other, rfl, cached, ?_⟩
      intro here
      exact same ⟨here, by rw [cached]; rfl⟩
  | _ => exact .inl cached

theorem recent_act (tracked : Tracked events c hands) {i : Nat} {label : ClientLabel} {result : label.Result}
    {later : SharedCache} (ran : Exec c.state label result later) (j k : Nat)
    (seen : (Function.update hands i (Hand.next label result) j).seen = some k) :
    ∃ between, HasRead (events ++ [⟨i, c.state, label, result, later⟩]) between j k ∧
      (later.conn = some k ∨ ∃ e ∈ between, Replaces k e) := by
  by_cases mine : j = i
  · -- only a read of the cache leaves a connection in the hand
    subst mine
    rw [Function.update_self] at seen
    cases ran with
    | conn => exact ⟨[], ⟨⟨events, c.state, by rw [show c.state.conn = some k from seen]⟩, by simp⟩, .inl seen⟩
    | _ => cases seen
  · rw [Function.update_of_ne mine] at seen
    obtain ⟨between, ⟨⟨pre, s, split⟩, quiet⟩, known⟩ := tracked.recent j k seen
    refine ⟨between ++ [⟨i, c.state, label, result, later⟩], ⟨⟨pre, s, by simp [split]⟩, ?_⟩, ?_⟩
    · intro e member
      rcases List.mem_append.mp member with member | member
      · exact quiet e member
      · cases List.mem_singleton.mp member
        exact fun same => mine same.symm
    · rcases known with cached | ⟨e, member, replaces⟩
      · rcases conn_act (i := i) ran cached with still | replaces
        · exact .inl still
        · exact .inr ⟨_, by simp, replaces⟩
      · exact .inr ⟨e, List.mem_append_left _ member, replaces⟩

theorem act (tracked : Tracked events c hands) {i : Nat} {label : ClientLabel} {next : label.Result → ClientProg}
    (running : c.procs[i]? = some (.act label next)) {result : label.Result} {later : SharedCache}
    (ran : Exec c.state label result later) :
    Tracked (events ++ [⟨i, c.state, label, result, later⟩]) ⟨later, c.procs.set i (next result)⟩
      (Function.update hands i (Hand.next label result)) := by
  obtain ⟨allowed, _, rest⟩ := tracked.keeps i _ running
  refine ⟨?_, ?_, tracked.owned_act allowed ran, tracked.recent_act ran⟩
  · intro j prog listed
    rcases getElem?_set_cases listed with ⟨rfl, rfl⟩ | ⟨away, listed⟩
    · rw [Function.update_self]
      exact rest result
    · rw [Function.update_of_ne away]
      exact tracked.keeps j prog listed
  · intro j beyond
    rw [List.length_set] at beyond
    have away : j ≠ i := by
      have below := (List.getElem?_eq_some_iff.mp running).1
      omega
    rw [Function.update_of_ne away]
    exact tracked.idle j beyond

theorem run {seeds : List String} {last : ClientConfig} (steps : Steps world ⟨.new seeds, []⟩ events last) :
    ∃ hands, Tracked events last hands := by
  induction steps with
  | refl => exact ⟨_, .start seeds⟩
  | spawn _ prog later allowed ih =>
    obtain ⟨hands, tracked⟩ := ih
    exact ⟨hands, tracked.spawn allowed⟩
  | act _ i label next running result later ran ih =>
    obtain ⟨hands, tracked⟩ := ih
    exact ⟨_, tracked.act running ran⟩

theorem installs (tracked : Tracked events c hands) {i k : Nat} {addr : String}
    (held : (hands i).held = some (addr, k)) : ∃ next, c.procs[i]? = some (.act (.install addr k) next) := by
  have inside : i < c.procs.length := by
    by_contra beyond
    rw [tracked.idle i (by omega)] at held
    cases held
  have running := List.getElem?_eq_getElem inside
  have fits := tracked.keeps i _ running
  cases prog : c.procs[i] with
  | done =>
    rw [prog] at fits
    cases held.symm.trans fits
  | act label next =>
    rw [prog] at fits
    obtain ⟨allowed, _, _⟩ := fits
    rw [prog] at running
    cases label with
    | install addr' k' =>
      cases held.symm.trans allowed
      exact ⟨next, running⟩
    | call k' =>
      have read : hands i = ⟨some k', none⟩ := allowed
      rw [read] at held
      cases held
    | _ => cases held.symm.trans allowed

theorem open_iff (tracked : Tracked events c hands) (k : Nat) : c.state.handles.Open k ↔
    c.state.conn = some k ∨ ∃ (i : Nat) (addr : String) (next : Unit → ClientProg),
      c.procs[i]? = some (.act (.install addr k) next) := by
  rw [tracked.owned.open_iff]
  constructor
  · rintro ⟨holder, owns⟩
    cases holder with
    | none => exact .inl owns
    | some i =>
      obtain ⟨⟨addr, _⟩, held, rfl⟩ := Option.map_eq_some_iff.mp owns
      obtain ⟨next, running⟩ := tracked.installs held
      exact .inr ⟨i, addr, next, running⟩
  · rintro (cached | ⟨i, addr, next, running⟩)
    · exact ⟨none, cached⟩
    · obtain ⟨held, _⟩ := tracked.keeps i _ running
      have mine : (hands i).held = some (addr, k) := held
      exact ⟨some i, by simp [owner, mine]⟩

theorem replaced (tracked : Tracked events c hands) {i k : Nat} (seen : (hands i).seen = some k)
    (closed : ¬c.state.handles.Open k) : ∃ between, HasRead events between i k ∧ ∃ e ∈ between, Replaces k e := by
  obtain ⟨between, read, known⟩ := tracked.recent i k seen
  rcases known with cached | replaces
  · exact absurd ((tracked.open_iff k).mpr (.inl cached)) closed
  · exact ⟨between, read, replaces⟩

end Tracked

theorem cancelled {seeds : List String} {events : List ClientEvent} {last : ClientConfig}
    (steps : Steps world ⟨.new seeds, []⟩ events last) {pre post : List ClientEvent} {i k : Nat}
    {s later : SharedCache} (split : events = pre ++ ⟨i, s, .call k, .closing, later⟩ :: post) :
    (∃ between, HasRead pre between i k ∧ ∃ e ∈ between, Replaces k e) ∧
      ∃ procs, procs[i]? = some (ClientProg.ret (some connClosing)) ∧ Steps world ⟨later, procs⟩ post last := by
  induction steps generalizing post with
  | refl => simp at split
  | spawn before prog later allowed ih =>
    obtain ⟨replaced, procs, returns, rest⟩ := ih split
    exact ⟨replaced, procs, returns, rest.spawn prog later allowed⟩
  | act before j label next running result after ran ih =>
    rcases concat_cases split with ⟨rfl, same, rfl⟩ | ⟨others, rfl, earlier⟩
    · cases same
      obtain ⟨hands, tracked⟩ := Tracked.run before
      obtain ⟨read, givesUp, _⟩ := tracked.keeps i _ running
      have hand : hands i = ⟨some k, none⟩ := read
      cases ran with
      | closing k closed =>
        refine ⟨tracked.replaced (by rw [hand]) closed, _, ?_, .refl⟩
        rw [List.getElem?_set_self (List.getElem?_eq_some_iff.mp running).1]
        exact congrArg some givesUp
    · obtain ⟨replaced, procs, returns, rest⟩ := ih earlier
      exact ⟨replaced, procs, returns, rest.act j label next running result after ran⟩

end DistributedFs.Internal
