import DistributedFs.Fsm.Registries
import DistributedFs.Server.Rpc

namespace DistributedFs.Metadata

open Go Fsm Server MetadataFSM

structure NodeConfig where
  nodeID : String
  grpcAddr : String
  raftAddr : String
  raftAdvertise : String
  raftDir : String
  peerAddrs : GoMap String
  bootstrap : Bool

structure Machine where
  mkdirAll : String → Option GoError
  resolveTCPAddr : String → Except GoError String

structure RaftNode where
  localID : String
  bindAddr : String
  localAddr : String
  servers : List (String × String)

namespace NodeConfig

def validate (machine : Machine) (c : NodeConfig) : Except GoError Unit :=
  if c.nodeID = "" then .error (.new "config: NodeID is required")
  else if c.grpcAddr = "" then .error (.new "config: GRPCAddr is required")
  else if c.raftAddr = "" then .error (.new "config: RaftAddr is required")
  else if c.raftDir = "" then .error (.new "config: RaftDir is required")
  else
    match machine.mkdirAll c.raftDir with
    | some err => .error (.new ("failed to create raft dir " ++ c.raftDir ++ ": " ++ err.text))
    | none => .ok ()

def advertiseAddr (c : NodeConfig) : String :=
  if c.raftAdvertise = "" then c.raftAddr else c.raftAdvertise

end NodeConfig

/-- `NewRaftNode`: the transport listens on `RaftAddr` and reports the advertised address. -/
def newRaftNode (machine : Machine) (order : MapOrder) (c : NodeConfig) : Except GoError RaftNode := do
  let addr ← (machine.resolveTCPAddr c.advertiseAddr).mapError fun err =>
    .new ("resolve raft addr: " ++ err.text)
  return {
    localID := c.nodeID
    bindAddr := c.raftAddr
    localAddr := addr
    servers := if c.bootstrap then (c.nodeID, c.advertiseAddr) :: c.peerAddrs.range order else [] }

structure MetadataApp (machine : Machine) where
  config : NodeConfig
  raft : RaftNode
  boundGRPCAddr : String
  accepted : config.validate machine = .ok ()
  joined : ∃ order, newRaftNode machine order config = .ok raft

variable {machine : Machine}

namespace MetadataApp

/-- The proposal of `registerInFSM`; a follower makes none. -/
def registerInFSM (app : MetadataApp machine) (isLeader : Bool) : Option Command :=
  if isLeader then
    some (.registerMetadataNode ⟨app.config.nodeID, app.config.raftAddr, app.boundGRPCAddr⟩)
  else none

theorem localAddr_eq (app : MetadataApp machine) :
    machine.resolveTCPAddr app.config.advertiseAddr = .ok app.raft.localAddr := by
  obtain ⟨order, joined⟩ := app.joined
  obtain ⟨addr, resolved, joined⟩ := bind_eq_ok joined
  have same := Except.ok.inj joined
  rw [← same]
  exact ok_of_mapError resolved

theorem raftAddr_ne_empty (app : MetadataApp machine) : app.config.raftAddr ≠ "" := by
  intro empty
  have accepted := app.accepted
  unfold NodeConfig.validate at accepted
  rw [if_pos empty] at accepted
  split at accepted
  · cases accepted
  · split at accepted <;> cases accepted

end MetadataApp

inductive Event (machine : Machine) where
  | elected (app : MetadataApp machine)
  | applied (orders : Nat → MapOrder) (cmd : Command)

structure Follower (machine : Machine) where
  fsm : FSM
  leader : Option (MetadataApp machine)

def Follower.propose (follower : Follower machine) (orders : Nat → MapOrder) : Option Command → FSM
  | none => follower.fsm
  | some cmd => (follower.fsm.handle orders cmd).1

def Follower.step (follower : Follower machine) : Event machine → Follower machine
  | .elected app => ⟨follower.propose (fun _ => .sorted) (app.registerInFSM true), some app⟩
  | .applied orders cmd => { follower with fsm := follower.propose orders (some cmd) }

def Follower.run (events : List (Event machine)) : Follower machine :=
  events.foldl Follower.step ⟨newEmptyMetadataFsm, none⟩

/-- Leaders come from the cluster, and they alone propose commands about metadata nodes. -/
def Event.Within (cluster : Set (MetadataApp machine)) : Event machine → Prop
  | .elected app => app ∈ cluster
  | .applied _ (.registerMetadataNode _) => False
  | .applied _ (.deregisterMetadataNode _) => False
  | .applied _ _ => True

def Follower.Redirects (follower : Follower machine) : Prop :=
  ∀ leader, follower.leader = some leader →
    (∃ entry, follower.fsm.mdNodeRegistry.lookup leader.raft.localAddr = some entry ∧
      entry.grpcAddr = leader.boundGRPCAddr) ∧
    leaderRedirect ⟨false, leader.raft.localAddr⟩ follower.fsm =
      { code := .failedPrecondition, message := "not leader"
        leaderGrpcAddr := some leader.boundGRPCAddr }

def Follower.Registered (follower : Follower machine) : Prop :=
  ∀ leader, follower.leader = some leader →
    follower.fsm.mdNodeRegistry.lookup leader.config.raftAddr =
      some ⟨leader.config.nodeID, leader.config.raftAddr, leader.boundGRPCAddr⟩

theorem Follower.step_registered {cluster : Set (MetadataApp machine)} {follower : Follower machine}
    (registered : follower.Registered) {event : Event machine} (within : event.Within cluster) :
    (follower.step event).Registered := by
  intro leader led
  cases event with
  | elected app =>
    cases led
    show (follower.fsm.mdNodeRegistry.insert _ _).lookup _ = _
    rw [GoMap.lookup_insert, if_pos rfl]
  | applied orders cmd =>
    have writes := handle_writes follower.fsm orders cmd
    show (follower.fsm.handle orders cmd).1.mdNodeRegistry.lookup _ = _
    generalize (follower.fsm.handle orders cmd).1 = after at writes ⊢
    cases writes with
    | filesAndChunks | nodes | createJob | updateJob => exact registered leader led
    | registerMd => exact absurd within id
    | deregisterMd => exact absurd within id

theorem Follower.run_registered {cluster : Set (MetadataApp machine)} {events : List (Event machine)}
    (within : ∀ event ∈ events, event.Within cluster) : (Follower.run events).Registered := by
  induction events using List.reverseRecOn with
  | nil =>
    intro leader led
    cases led
  | append_singleton front event ih =>
    have before := ih fun earlier member => within earlier (List.mem_append_left _ member)
    unfold Follower.run at before ⊢
    rw [List.foldl_append]
    exact Follower.step_registered before (within event (by simp))

theorem Follower.run_leader {cluster : Set (MetadataApp machine)} {events : List (Event machine)}
    (within : ∀ event ∈ events, event.Within cluster) {leader : MetadataApp machine}
    (led : (Follower.run events).leader = some leader) : leader ∈ cluster := by
  induction events using List.reverseRecOn with
  | nil => cases led
  | append_singleton front event ih =>
    unfold Follower.run at led ih
    rw [List.foldl_append] at led
    cases event with
    | elected app =>
      cases led
      exact within (.elected leader) (by simp)
    | applied orders cmd =>
      exact ih (fun earlier member => within earlier (List.mem_append_left _ member)) led

/-- The key that a leader registers is its `RaftAddr`, the key that is looked up its advertised
    address. -/
theorem redirects_iff_advertised (cluster : Set (MetadataApp machine)) :
    (∀ events : List (Event machine), (∀ event ∈ events, event.Within cluster) →
      (Follower.run events).Redirects) ↔
    ∀ app ∈ cluster, machine.resolveTCPAddr app.config.advertiseAddr = .ok app.config.raftAddr := by
  constructor
  · intro redirects app member
    have found := (redirects [.elected app] (by simpa [Event.Within] using member) app rfl).1
    obtain ⟨entry, found, _⟩ := found
    have here : app.raft.localAddr = app.config.raftAddr := by
      by_contra away
      have registry : (Follower.run [.elected app]).fsm.mdNodeRegistry =
          (∅ : GoMap MetadataNodeEntry).insert app.config.raftAddr
            ⟨app.config.nodeID, app.config.raftAddr, app.boundGRPCAddr⟩ := rfl
      rw [registry, GoMap.lookup_insert, if_neg away] at found
      cases found
    rw [app.localAddr_eq, here]
  · intro advertised events within leader led
    have registered := Follower.run_registered within leader led
    have resolved := advertised leader (Follower.run_leader within led)
    have here : leader.raft.localAddr = leader.config.raftAddr :=
      Except.ok.inj (leader.localAddr_eq.symm.trans resolved)
    rw [here]
    refine ⟨⟨_, registered, rfl⟩, ?_⟩
    unfold leaderRedirect
    rw [if_neg leader.raftAddr_ne_empty, registered]
    rfl

def literalAddrs : Machine := ⟨fun _ => none, .ok⟩

def behindNat : NodeConfig where
  nodeID := "metadata-1"
  grpcAddr := "0.0.0.0:4001"
  raftAddr := "0.0.0.0:5001"
  raftAdvertise := "metadata-1:5001"
  raftDir := "/data/raft"
  peerAddrs := ∅
  bootstrap := true

def behindNatApp : MetadataApp literalAddrs where
  config := behindNat
  raft := ⟨"metadata-1", "0.0.0.0:5001", "metadata-1:5001", [("metadata-1", "metadata-1:5001")]⟩
  boundGRPCAddr := "0.0.0.0:4001"
  accepted := rfl
  joined := ⟨.sorted, rfl⟩

theorem not_redirects_behindNat :
    leaderRedirect ⟨false, behindNatApp.raft.localAddr⟩ (Follower.run [.elected behindNatApp]).fsm =
      { code := .failedPrecondition, message := "not leader", leaderGrpcAddr := none } ∧
    ¬(Follower.run [.elected behindNatApp]).Redirects := by
  have lost : leaderRedirect ⟨false, behindNatApp.raft.localAddr⟩ (Follower.run [.elected behindNatApp]).fsm =
      { code := .failedPrecondition, message := "not leader", leaderGrpcAddr := none } := by
    decide +kernel
  refine ⟨lost, ?_⟩
  intro redirects
  have named := (redirects behindNatApp rfl).2
  rw [lost] at named
  cases named

end DistributedFs.Metadata
