import DistributedFs.Concurrency.RelyGuarantee
import DistributedFs.Data.Handles
import DistributedFs.Go.Basic
import DistributedFs.Go.Map

namespace DistributedFs.Storage

open Go Concurrency

structure PeerDialer where
  conns : GoMap Nat
  handles : Handles

structure DialFailed where
  address : String
  cause : GoError

namespace PeerDialer

def newPeerDialer : PeerDialer := ⟨∅, .empty⟩

/-- The fast path of `Get`, under the read lock; `healthy` is what `isHealthy` says of a connection. -/
def cached (d : PeerDialer) (healthy : Nat → Bool) (address : String) : Option Nat :=
  (d.conns.lookup address).filter healthy

def remove (d : PeerDialer) (address : String) : PeerDialer :=
  match d.conns.lookup address with
  | none => d
  | some conn => ⟨d.conns.erase address, d.handles.release conn⟩

/-- The slow path of `Get`, under the write lock, with the error of `grpc.NewClient` if there is one. -/
def dial (d : PeerDialer) (healthy : Nat → Bool) (err : Option GoError) (address : String) :
    Except DialFailed Nat × PeerDialer :=
  match d.cached healthy address with
  | some conn => (.ok conn, d)
  | none =>
    let d := d.remove address
    match err with
    | some cause => (.error ⟨address, cause⟩, d)
    | none => (.ok d.handles.made, ⟨d.conns.insert address d.handles.made, d.handles.acquire⟩)

/-- `CloseAll`: a round of its loop does what `Remove` does. -/
def closeAll (d : PeerDialer) (order : MapOrder) : PeerDialer :=
  (GoMap.range order d.conns).foldl (fun d entry => d.remove entry.1) d

def Owned (d : PeerDialer) : Prop := d.handles.OwnedBy fun address => d.conns.lookup address

variable {d : PeerDialer} {healthy : Nat → Bool} {err : Option GoError} {address other : String} {k : Nat}

theorem cached_found (found : d.cached healthy address = some k) : d.conns.lookup address = some k :=
  (Option.filter_eq_some_iff.mp found).1

@[simp]
theorem lookup_remove :
    (d.remove address).conns.lookup other = if other = address then none else d.conns.lookup other := by
  unfold remove
  by_cases same : other = address
  · rw [if_pos same, same]
    cases found : d.conns.lookup address with
    | none => exact found
    | some conn => exact Finmap.lookup_erase address d.conns
  · rw [if_neg same]
    cases d.conns.lookup address with
    | none => rfl
    | some conn => exact Finmap.lookup_erase_ne same

@[simp]
theorem made_remove : (d.remove address).handles.made = d.handles.made := by
  unfold remove
  cases d.conns.lookup address with
  | none => rfl
  | some conn => rfl

theorem open_of_remove (here : (d.remove address).handles.Open k) : d.handles.Open k := by
  unfold remove at here
  cases found : d.conns.lookup address with
  | none =>
    rw [found] at here
    exact here
  | some conn =>
    rw [found] at here
    exact (Handles.open_release.mp here).1

theorem Owned.remove (owned : d.Owned) (address : String) : (d.remove address).Owned := by
  have lookups : (fun other => (d.remove address).conns.lookup other) =
      Function.update (fun other => d.conns.lookup other) address none := by
    funext other
    rw [lookup_remove, Function.update_apply]
  unfold Owned
  rw [lookups]
  unfold PeerDialer.remove
  cases found : d.conns.lookup address with
  | none =>
    have same := Function.update_eq_self address fun other => d.conns.lookup other
    rw [found] at same
    rw [same]
    exact owned
  | some conn => exact Handles.OwnedBy.release owned found

theorem Owned.dial (owned : d.Owned) (healthy : Nat → Bool) (err : Option GoError) (address : String) :
    (d.dial healthy err address).2.Owned := by
  have removed := owned.remove address
  unfold PeerDialer.dial
  cases d.cached healthy address with
  | some conn => exact owned
  | none =>
    cases err with
    | some cause => exact removed
    | none =>
      have added := Handles.OwnedBy.acquire (i := address) removed (by simp)
      have lookups : (fun other => ((d.remove address).conns.insert address (d.remove address).handles.made).lookup other) =
          Function.update (fun other => (d.remove address).conns.lookup other) address
            (some (d.remove address).handles.made) := by
        funext other
        rw [GoMap.lookup_insert, Function.update_apply]
      unfold Owned
      rw [lookups]
      exact added

theorem dial_found (returned : (d.dial healthy err address).1 = .ok k) :
    (d.dial healthy err address).2.conns.lookup address = some k := by
  unfold dial at *
  cases found : d.cached healthy address with
  | some conn =>
    rw [found] at returned
    cases returned
    exact cached_found found
  | none =>
    rw [found] at returned
    cases err with
    | some cause => cases returned
    | none =>
      cases returned
      simp

theorem dial_other (apart : other ≠ address) :
    (d.dial healthy err address).2.conns.lookup other = d.conns.lookup other := by
  unfold dial
  cases d.cached healthy address with
  | some conn => rfl
  | none =>
    cases err with
    | some cause => simp [apart]
    | none => simp [apart]

theorem open_of_dial (here : (d.dial healthy err address).2.handles.Open k) :
    d.handles.Open k ∨ k = d.handles.made := by
  unfold dial at here
  cases found : d.cached healthy address with
  | some conn =>
    rw [found] at here
    exact .inl here
  | none =>
    rw [found] at here
    cases err with
    | some cause => exact .inl (open_of_remove here)
    | none =>
      rcases Handles.open_acquire.mp here with older | new
      · exact .inl (open_of_remove older)
      · rw [made_remove] at new
        exact .inr new

section CloseAll

variable {entries : List (String × Nat)}

theorem lookup_removeAll :
    (entries.foldl (fun d entry => d.remove entry.1) d).conns.lookup address =
      if address ∈ entries.map Prod.fst then none else d.conns.lookup address := by
  induction entries generalizing d with
  | nil => rfl
  | cons entry rest ih =>
    rw [List.foldl_cons, ih, lookup_remove]
    by_cases first : address = entry.1
    · simp [first]
    · rw [if_neg first, List.map_cons]
      simp only [List.mem_cons, first, false_or]

theorem owned_removeAll (owned : d.Owned) : (entries.foldl (fun d entry => d.remove entry.1) d).Owned := by
  induction entries generalizing d with
  | nil => exact owned
  | cons entry rest ih => exact ih (owned.remove entry.1)

theorem open_of_removeAll (here : (entries.foldl (fun d entry => d.remove entry.1) d).handles.Open k) :
    d.handles.Open k := by
  induction entries generalizing d with
  | nil => exact here
  | cons entry rest ih => exact open_of_remove (ih here)

theorem lookup_closeAll (order : MapOrder) : (d.closeAll order).conns.lookup address = none := by
  unfold closeAll
  rw [lookup_removeAll]
  split
  · rfl
  · rename_i absent
    cases found : d.conns.lookup address with
    | none => rfl
    | some conn =>
      exact absurd (List.mem_map_of_mem ((GoMap.mem_range order d.conns address conn).mpr found)) absent

theorem Owned.none_open (owned : d.Owned) (order : MapOrder) : ¬(d.closeAll order).handles.Open k := by
  intro here
  obtain ⟨address, found⟩ := ((owned_removeAll owned).open_iff k).mp here
  have gone : (d.closeAll order).conns.lookup address = none := lookup_closeAll order
  cases gone.symm.trans found

end CloseAll

end PeerDialer

def maxConcurrentStreams : Nat := 8

structure Outbound where
  dialer : PeerDialer
  taken : Nat

/-- The atomic actions of these goroutines. `use` is an operation of a stream. -/
inductive OutLabel where
  | acquire
  | cached (address : String)
  | dial (address : String)
  | use (k : Nat)
  | release
  | remove (address : String)
  | closeAll

abbrev OutLabel.Result : OutLabel → Type
  | .acquire | .use _ => Option GoError
  | .cached _ => Option Nat
  | .dial _ => Except DialFailed Nat
  | .release | .remove _ | .closeAll => Unit

abbrev OutProg := Prog OutLabel OutLabel.Result

namespace OutProg

def get (address : String) (next : Except DialFailed Nat → OutProg) : OutProg :=
  .act (.cached address) fun
    | some conn => next (.ok conn)
    | none => .act (.dial address) next

def leave : OutProg := .act .release fun _ => .done

def stream (k : Nat) : Nat → OutProg
  | 0 => leave
  | left + 1 => .act (.use k) fun
    | some _ => leave
    | none => stream k left

/-- `replicateToSingleNode`, with as many operations of the stream as the chunk takes, or as come before a
    frame that cannot be read. -/
def replicateToSingleNode (address : String) (operations : Nat) : OutProg :=
  .act .acquire fun
    | some _ => .done
    | none => get address fun
      | .error _ => leave
      | .ok conn => stream conn operations

end OutProg

namespace Outbound

def new : Outbound := ⟨.newPeerDialer, 0⟩

/-- What the actions do. A goroutine waits for a slot until one is free or its context ends, and no
    operation over a closed connection works. -/
inductive Exec (s : Outbound) : (label : OutLabel) → label.Result → Outbound → Prop where
  | acquired (room : s.taken < maxConcurrentStreams) : Exec s .acquire none { s with taken := s.taken + 1 }
  | cancelled (err : GoError) : Exec s .acquire (some err) s
  | cached (address : String) (healthy : Nat → Bool) :
    Exec s (.cached address) (s.dialer.cached healthy address) s
  | dial (address : String) (healthy : Nat → Bool) (err : Option GoError) :
    Exec s (.dial address) (s.dialer.dial healthy err address).1
      { s with dialer := (s.dialer.dial healthy err address).2 }
  | use (k : Nat) (answer : Option GoError) (closed : answer = none → s.dialer.handles.Open k) :
    Exec s (.use k) answer s
  | release : Exec s .release () { s with taken := s.taken - 1 }
  | remove (address : String) : Exec s (.remove address) () { s with dialer := s.dialer.remove address }
  | closeAll (order : MapOrder) : Exec s .closeAll () { s with dialer := s.dialer.closeAll order }

inductive Spawn (s : Outbound) : OutProg → Outbound → Prop where
  | replicate (address : String) (operations : Nat) :
    Spawn s (OutProg.replicateToSingleNode address operations) s
  | remove (address : String) : Spawn s (.act (.remove address) fun _ => .done) s
  | closeAll : Spawn s (.act .closeAll fun _ => .done) s

def world : World Outbound OutLabel OutLabel.Result := ⟨fun label s => Exec s label, Spawn⟩

end Outbound

abbrev OutConfig := Config Outbound OutLabel OutLabel.Result

abbrev OutEvent := Event Outbound OutLabel OutLabel.Result

open Outbound

section Slots

def holding : OutProg → Bool
  | .act (.cached _) _ | .act (.dial _) _ | .act (.use _) _ | .act .release _ => true
  | _ => false

def holdsAfter : (label : OutLabel) → label.Result → Bool
  | .acquire, answer => answer.isNone
  | .cached _, _ | .dial _, _ | .use _, _ => true
  | _, _ => false

def Balanced : OutProg → Prop
  | .done => True
  | .act label next => ∀ result, holding (next result) = holdsAfter label result ∧ Balanced (next result)

theorem leave_balanced : Balanced OutProg.leave := fun _ => ⟨rfl, trivial⟩

theorem stream_balanced (k left : Nat) : holding (OutProg.stream k left) = true ∧ Balanced (OutProg.stream k left) := by
  induction left with
  | zero => exact ⟨rfl, leave_balanced⟩
  | succ left ih =>
    refine ⟨rfl, fun answer => ?_⟩
    cases answer with
    | some err => exact ⟨rfl, leave_balanced⟩
    | none => exact ih

theorem spawn_balanced {s later : Outbound} {prog : OutProg} (spawned : Spawn s prog later) :
    later = s ∧ holding prog = false ∧ Balanced prog := by
  cases spawned with
  | replicate address operations =>
    have connected : ∀ answer : Except DialFailed Nat,
        holding (match answer with
          | .error _ => OutProg.leave
          | .ok conn => OutProg.stream conn operations) = true ∧
        Balanced (match answer with
          | .error _ => OutProg.leave
          | .ok conn => OutProg.stream conn operations) := by
      intro answer
      cases answer with
      | error err => exact ⟨rfl, leave_balanced⟩
      | ok conn => exact stream_balanced conn operations
    refine ⟨rfl, rfl, fun answer => ?_⟩
    cases answer with
    | some err => exact ⟨rfl, trivial⟩
    | none =>
      refine ⟨rfl, fun found => ?_⟩
      cases found with
      | some conn => exact connected (.ok conn)
      | none => exact ⟨rfl, connected⟩
  | remove address => exact ⟨rfl, rfl, fun _ => ⟨rfl, trivial⟩⟩
  | closeAll => exact ⟨rfl, rfl, fun _ => ⟨rfl, trivial⟩⟩

structure Slots (c : OutConfig) : Prop where
  balanced : ∀ prog ∈ c.procs, Balanced prog
  counted : c.state.taken = c.procs.countP holding
  bounded : c.state.taken ≤ maxConcurrentStreams

theorem slots_spawn {c : OutConfig} {prog : OutProg} {later : Outbound} (slots : Slots c)
    (spawned : Spawn c.state prog later) : Slots ⟨later, c.procs ++ [prog]⟩ := by
  obtain ⟨rfl, outside, balanced⟩ := spawn_balanced spawned
  refine ⟨fun other member => ?_, ?_, slots.bounded⟩
  · rcases List.mem_append.mp member with older | new
    · exact slots.balanced other older
    · rw [List.mem_singleton.mp new]
      exact balanced
  · rw [List.countP_append, List.countP_singleton, if_neg (by simp [outside])]
    exact slots.counted

theorem exec_taken {s later : Outbound} {label : OutLabel} {next : label.Result → OutProg} {result : label.Result}
    (ran : Exec s label result later) (counted : holding (.act label next) = true → 0 < s.taken) :
    later.taken = s.taken - (if holding (.act label next) = true then 1 else 0) +
      if holdsAfter label result = true then 1 else 0 := by
  cases ran with
  | cached | dial | use =>
    have some : 0 < s.taken := counted rfl
    simp only [holding, holdsAfter, if_true]
    omega
  | _ => simp [holding, holdsAfter]

theorem slots_act {c : OutConfig} (slots : Slots c) {i : Nat} {label : OutLabel} {next : label.Result → OutProg}
    (running : c.procs[i]? = some (.act label next)) {result : label.Result} {later : Outbound}
    (ran : Exec c.state label result later) : Slots ⟨later, c.procs.set i (next result)⟩ := by
  have member := List.mem_of_getElem? running
  obtain ⟨inside, here⟩ := List.getElem?_eq_some_iff.mp running
  obtain ⟨after, balanced⟩ := slots.balanced _ member result
  have counted : holding (.act label next) = true → 0 < c.state.taken := by
    intro holds
    rw [slots.counted]
    exact List.countP_pos_iff.mpr ⟨_, member, holds⟩
  refine ⟨fun other listed => ?_, ?_, ?_⟩
  · rcases List.mem_or_eq_of_mem_set listed with older | new
    · exact slots.balanced other older
    · rw [new]
      exact balanced
  · rw [List.countP_set inside, here, after, ← slots.counted]
    exact exec_taken ran counted
  · have bounded := slots.bounded
    cases ran with
    | acquired room => exact room
    | release => exact (Nat.sub_le _ _).trans bounded
    | _ => exact bounded

end Slots

section Connections

/-- At this event the connection of the pool to the address goes: it is replaced by a `Get` that found it
    broken, or the dialer was told to close it. -/
structure Closes (address : String) (k : Nat) (e : OutEvent) : Prop where
  before : e.before.dialer.conns.lookup address = some k
  after : e.after.dialer.conns.lookup address ≠ some k
  label : e.label = .dial address ∨ e.label = .remove address ∨ e.label = .closeAll

def Dials (k : Nat) (e : OutEvent) : Prop := k = e.before.dialer.handles.made ∧ ∃ address, e.label = .dial address

theorem exec_lookup {i : Nat} {label : OutLabel} {s later : Outbound} {result : label.Result}
    (ran : Exec s label result later) {address : String} {k : Nat}
    (found : s.dialer.conns.lookup address = some k) :
    later.dialer.conns.lookup address = some k ∨ Closes address k ⟨i, s, label, result, later⟩ := by
  by_cases still : later.dialer.conns.lookup address = some k
  · exact .inl still
  · refine .inr ⟨found, still, ?_⟩
    cases ran with
    | dial other healthy err =>
      by_cases same : address = other
      · exact .inl (by rw [same])
      · exact absurd ((PeerDialer.dial_other same).trans found) still
    | remove other =>
      by_cases same : address = other
      · exact .inr (.inl (by rw [same]))
      · exact absurd (PeerDialer.lookup_remove.trans ((if_neg same).trans found)) still
    | closeAll order => exact .inr (.inr rfl)
    | _ => exact absurd found still

theorem exec_owned {label : OutLabel} {s later : Outbound} {result : label.Result}
    (ran : Exec s label result later) (owned : s.dialer.Owned) : later.dialer.Owned := by
  cases ran with
  | dial address healthy err => exact owned.dial healthy err address
  | remove address => exact owned.remove address
  | closeAll order => exact PeerDialer.owned_removeAll owned
  | _ => exact owned

theorem exec_open {i : Nat} {label : OutLabel} {s later : Outbound} {result : label.Result}
    (ran : Exec s label result later) {k : Nat} (here : later.dialer.handles.Open k) :
    s.dialer.handles.Open k ∨ Dials k ⟨i, s, label, result, later⟩ := by
  cases ran with
  | dial address healthy err =>
    rcases PeerDialer.open_of_dial here with older | new
    · exact .inl older
    · exact .inr ⟨new, address, rfl⟩
  | remove address => exact .inl (PeerDialer.open_of_remove here)
  | closeAll order => exact .inl (PeerDialer.open_of_removeAll here)
  | _ => exact .inl here

variable {gone : String → Nat → Prop}

def Given (gone : String → Nat → Prop) (k : Nat) (s : Outbound) : Prop :=
  ∃ address, s.dialer.conns.lookup address = some k ∨ gone address k

def sharing (gone : String → Nat → Prop) : Setting Outbound OutLabel OutLabel.Result where
  exec label s result later := Exec s label result later ∧
    ∀ address k, s.dialer.conns.lookup address = some k →
      later.dialer.conns.lookup address = some k ∨ gone address k
  promise label s _ _ := ∀ k, label = .use k → Given gone k s
  rely s later := ∀ address k, s.dialer.conns.lookup address = some k →
    later.dialer.conns.lookup address = some k ∨ gone address k
  refl _ _ _ found := .inl found
  trans first second address k found := (first address k found).elim (second address k) .inr

theorem exec_sharing {label : OutLabel} {s later : Outbound} {result : label.Result}
    (acted : (sharing gone).exec label s result later) (_ : (sharing gone).promise label s result later) :
    (sharing gone).rely s later := acted.2

theorem Given.rely {k : Nat} {s later : Outbound} (given : Given gone k s) (others : (sharing gone).rely s later) :
    Given gone k later := by
  obtain ⟨address, found | closed⟩ := given
  · exact ⟨address, others address k found⟩
  · exact ⟨address, .inr closed⟩

variable {s : Outbound}

theorem keeps_other {label : OutLabel} {next : label.Result → OutProg} (other : ∀ k, label ≠ .use k)
    (rest : ∀ t result, (sharing gone).Keeps (next result) t) : (sharing gone).Keeps (.act label next) s :=
  fun _ _ result after _ => ⟨fun k same => absurd same (other k), rest after result⟩

theorem leave_keeps : (sharing gone).Keeps OutProg.leave s := keeps_other (by simp) fun _ _ => trivial

theorem stream_keeps {k : Nat} (given : Given gone k s) (left : Nat) :
    (sharing gone).Keeps (OutProg.stream k left) s := by
  induction left generalizing s with
  | zero => exact leave_keeps
  | succ left ih =>
    refine Setting.Keeps.act exec_sharing ?_ fun t answer others => ?_
    · rintro t _ _ others _ _ ⟨⟩
      exact given.rely others
    · cases answer with
      | some err => exact leave_keeps
      | none => exact ih (given.rely others)

theorem get_keeps (address : String) {next : Except DialFailed Nat → OutProg}
    (failed : ∀ t err, (sharing gone).Keeps (next (.error err)) t)
    (connected : ∀ t k, Given gone k t → (sharing gone).Keeps (next (.ok k)) t) :
    (sharing gone).Keeps (OutProg.get address next) s := by
  intro met _ found after acted
  refine ⟨fun k same => (by cases same), ?_⟩
  obtain ⟨ran, -⟩ := acted
  cases ran with
  | cached _ healthy =>
    cases cached : met.dialer.cached healthy address with
    | some conn => exact connected met conn ⟨address, .inl (PeerDialer.cached_found cached)⟩
    | none =>
      intro t _ answer later acted
      refine ⟨fun k same => (by cases same), ?_⟩
      obtain ⟨ran, -⟩ := acted
      cases ran with
      | dial _ healthy err =>
        cases returned : (t.dialer.dial healthy err address).1 with
        | error err => exact failed _ err
        | ok conn => exact connected _ conn ⟨address, .inl (PeerDialer.dial_found returned)⟩

theorem spawn_keeps {later : Outbound} {prog : OutProg} (spawned : Spawn s prog later) :
    (sharing gone).rely s later ∧ (sharing gone).Keeps prog later := by
  cases spawned with
  | replicate address operations =>
    refine ⟨(sharing gone).refl s, keeps_other (by simp) fun t answer => ?_⟩
    cases answer with
    | some err => trivial
    | none =>
      exact get_keeps address (fun _ _ => leave_keeps) fun _ k given => stream_keeps given operations
  | remove address => exact ⟨(sharing gone).refl s, keeps_other (by simp) fun _ _ => trivial⟩
  | closeAll => exact ⟨(sharing gone).refl s, keeps_other (by simp) fun _ _ => trivial⟩

end Connections

section Runs

variable {c last : OutConfig} {events : List OutEvent}

theorem run_slots (run : Steps world c events last) (slots : Slots c) : Slots last :=
  (run.keeps (fun _ _ _ slots spawned => slots_spawn slots spawned)
    (fun _ _ _ _ _ _ slots running ran => slots_act slots running ran) slots).1

theorem run_owned (run : Steps world c events last) (owned : c.state.dialer.Owned) : last.state.dialer.Owned := by
  refine run.stable (P := fun s => s.dialer.Owned) (fun spawned owned => ?_) (fun e member => ?_) owned
  · rw [(spawn_balanced spawned).1]
    exact owned
  · exact exec_owned (run.exec e member)

theorem run_open (run : Steps world c events last) {k : Nat} (here : last.state.dialer.handles.Open k) :
    c.state.dialer.handles.Open k ∨ ∃ e ∈ events, Dials k e := by
  refine run.stable (P := fun s => s.dialer.handles.Open k →
    c.state.dialer.handles.Open k ∨ ∃ e ∈ events, Dials k e) (fun spawned before => ?_)
    (fun e member before here => ?_) .inl here
  · rw [(spawn_balanced spawned).1]
    exact before
  · rcases exec_open (i := e.proc) (run.exec e member) here with older | dials
    · exact before older
    · exact .inr ⟨e, member, dials⟩

theorem run_used {pre : List OutEvent} {e : OutEvent} (run : Steps world ⟨.new, []⟩ (pre ++ [e]) c) {k : Nat}
    (used : e.label = .use k) :
    ∃ address, e.before.dialer.conns.lookup address = some k ∨ ∃ closing ∈ pre, Closes address k closing := by
  have acted : ∀ other ∈ pre ++ [e], (sharing fun address k => ∃ closing ∈ pre ++ [e], Closes address k closing).exec
      other.label other.before other.result other.after := by
    refine fun other member => ⟨run.exec other member, fun address k found => ?_⟩
    rcases exec_lookup (i := other.proc) (run.exec other member) found with still | closes
    · exact .inl still
    · exact .inr ⟨other, member, closes⟩
  obtain ⟨-, -, promises⟩ := Setting.parallel exec_sharing (fun _ _ => True.intro)
    (fun spawned _ => spawn_keeps spawned) run acted trivial (by simp)
  obtain ⟨address, found | ⟨closing, member, closes⟩⟩ := (promises e (by simp)).2 k used
  · exact ⟨address, .inl found⟩
  · rcases List.mem_append.mp member with earlier | here
    · exact ⟨address, .inr ⟨closing, earlier, closes⟩⟩
    · have label := closes.label
      rw [List.mem_singleton.mp here, used] at label
      simp at label

/-- However transfers to other nodes interleave with each other and with the calls of the dialer: no slot
    is lost and no more are taken than there are; the connections that are open are those of the pool, one
    for an address; a stream runs over a connection of the pool, or over one that was closed under it; and
    what is open after `CloseAll` was dialled after it. -/
theorem transfers_share_connections (run : Steps world ⟨.new, []⟩ events c) :
    (c.state.taken = c.procs.countP holding ∧ c.state.taken ≤ maxConcurrentStreams) ∧
      (∀ k, c.state.dialer.handles.Open k ↔ ∃ address, c.state.dialer.conns.lookup address = some k) ∧
      (∀ pre e post k, events = pre ++ e :: post → e.label = .use k → ∃ address,
        e.before.dialer.conns.lookup address = some k ∨ ∃ closing ∈ pre, Closes address k closing) ∧
      ∀ pre e post k, events = pre ++ e :: post → e.label = .closeAll → c.state.dialer.handles.Open k →
        ∃ dialling ∈ post, Dials k dialling := by
  have start : PeerDialer.newPeerDialer.Owned := Handles.OwnedBy.empty
  have slots := run_slots run ⟨by simp, rfl, Nat.zero_le _⟩
  refine ⟨⟨slots.counted, slots.bounded⟩, (run_owned run start).open_iff, ?_, ?_⟩
  · intro pre e post k split used
    obtain ⟨mid, upto⟩ := run.through split
    exact run_used upto used
  · intro pre e post k split closed here
    obtain ⟨mid, before, met⟩ := run.upTo split
    have owned : e.before.dialer.Owned := by
      rw [← met]
      exact run_owned before start
    subst split
    have ran := run.exec e (by simp)
    obtain ⟨procs, rest⟩ := run.after
    rcases run_open rest here with still | dialled
    · obtain ⟨i, s, label, result, later⟩ := e
      cases closed
      have shut : Exec s .closeAll result later := ran
      cases shut with
      | closeAll order => exact absurd still (owned.none_open order)
    · exact dialled

end Runs

theorem transfers_share_connections_shutdown :
    ∃ pre e c, Steps world ⟨.new, []⟩ (pre ++ [e]) c ∧ e.label = .use 0 ∧ c.state.taken = 1 ∧
      ∃ address, ∃ closing ∈ pre, Closes address 0 closing := by
  have start : Steps world ⟨.new, []⟩ [] ⟨.new, []⟩ := .refl
  have sending := start.spawn _ _ (.replicate "10.0.0.2:9000" 2)
  have acquired := sending.act 0 _ _ rfl _ _ (.acquired (by decide))
  have missed := acquired.act 0 _ _ rfl _ _ (.cached "10.0.0.2:9000" fun _ => true)
  have dialled := missed.act 0 _ _ rfl _ _ (.dial "10.0.0.2:9000" (fun _ => true) none)
  have stopping := dialled.spawn _ _ .closeAll
  have stopped := stopping.act 1 _ _ rfl _ _ (.closeAll default)
  have failed := stopped.act 0 _ _ rfl _ _
    (.use 0 (some (.new "rpc error: code = Canceled desc = grpc: the client connection is closing")) (by simp))
  refine ⟨_, _, _, failed, rfl, rfl, ?_⟩
  obtain ⟨address, found | closed⟩ := (transfers_share_connections failed).2.2.1 _ _ [] 0 rfl rfl
  · cases PeerDialer.lookup_closeAll default |>.symm.trans found
  · exact ⟨address, closed⟩

end DistributedFs.Storage
