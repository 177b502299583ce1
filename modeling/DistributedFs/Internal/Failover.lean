import DistributedFs.Internal.LeaderClient
import DistributedFs.Server.FileHandler
import DistributedFs.Server.NodeHandler

namespace DistributedFs.Internal

open Go Fsm Server LeaderCache

/-- A unary method of the metadata service: every handler begins by sending the caller of a server
    that does not lead to the leader, and the errors of a leader are final. -/
structure Method (ρ : Type) where
  handle : RaftView → FSM → Except RpcError ρ
  redirects : ∀ raft m, raft.isLeader = false → handle raft m = .error (leaderRedirect raft m)
  answers : ∀ raft m err, raft.isLeader = true → handle raft m = .error err → isRetryableCode err.code = false

namespace Method

theorem getFile_answers {raft : RaftView} {m : FSM} {fileId : String} {err : RpcError}
    (leads : raft.isLeader = true) (failed : Server.getFile raft m fileId = .error err) :
    isRetryableCode err.code = false := by
  simp only [Server.getFile, leads, Bool.true_eq_false, if_false] at failed
  split at failed
  · cases failed
    rfl
  · split at failed
    · cases failed
      rfl
    · split at failed
      · cases failed
        rfl
      · cases failed

theorem checkChunkSize_code {chunkSize : Int} {err : RpcError} (failed : checkChunkSize chunkSize = .error err) :
    err.code = .invalidArgument := by
  unfold checkChunkSize at failed
  split at failed
  · cases failed
    rfl
  · split at failed
    · cases failed
      rfl
    · split at failed
      · cases failed
        rfl
      · cases failed

theorem placeChunks_code {strategy : Placement.PlacementStrategy} {aliveNodes : List NodeEntry}
    {chunkSize rf : Int} {chunkIds : List String} {err : RpcError}
    (failed : placeChunks strategy aliveNodes chunkSize rf chunkIds = .error err) : err.code = .internal := by
  induction chunkIds with
  | nil => cases failed
  | cons v rest ih =>
    unfold placeChunks at failed
    split at failed
    · cases placed : placeChunks strategy aliveNodes chunkSize rf rest with
      | ok placements =>
        rw [placed] at failed
        cases failed
      | error other =>
        rw [placed] at failed
        cases failed
        exact ih placed
    · cases failed
      rfl

theorem createFile_answers {raft : RaftView} {m : FSM} {order : MapOrder}
    {strategy : Placement.PlacementStrategy} {rf : Int} {newID : String} {now : Time} {req : CreateFileRequest}
    {err : RpcError} (leads : raft.isLeader = true)
    (failed : Server.createFile raft m order strategy rf newID now req = .error err) :
    isRetryableCode err.code = false := by
  simp only [Server.createFile, leads, Bool.true_eq_false, if_false] at failed
  split at failed
  · cases failed
    rfl
  · cases checked : checkChunkSize req.chunkSize.toInt with
    | error other =>
      rw [checked] at failed
      cases failed
      rw [checkChunkSize_code checked]
      rfl
    | ok _ =>
      rw [checked] at failed
      cases placed : placeChunks strategy (m.getLiveNodes order) req.chunkSize.toInt rf req.chunkIds with
      | error other =>
        rw [placed] at failed
        cases failed
        rw [placeChunks_code placed]
        rfl
      | ok placements =>
        rw [placed] at failed
        cases failed

theorem heartbeat_answers {raft : RaftView} {m : FSM} {counts : HeartbeatsCount} {req : HeartbeatRequest}
    {now : Time} {err : RpcError} (leads : raft.isLeader = true)
    (failed : (Server.heartbeat raft m counts req now).2 = .error err) : isRetryableCode err.code = false := by
  simp only [Server.heartbeat, leads, Bool.true_eq_false, if_false] at failed
  split at failed
  · cases failed
    rfl
  · cases failed

def getFile (fileId : String) : Method GetFileResponse where
  handle raft m := Server.getFile raft m fileId
  redirects _ _ follows := if_pos follows
  answers _ _ _ leads failed := getFile_answers leads failed

def listFiles (order : MapOrder) : Method (List FileInfo) where
  handle raft m := Server.listFiles raft m order
  redirects _ _ follows := if_pos follows
  answers _ _ _ leads failed := by simp [Server.listFiles, leads] at failed

def createFile (order : MapOrder) (strategy : Placement.PlacementStrategy) (rf : Int) (newID : String) (now : Time)
    (req : CreateFileRequest) : Method (CommandCreateFile × CreateFileResponse) where
  handle raft m := Server.createFile raft m order strategy rf newID now req
  redirects _ _ follows := if_pos follows
  answers _ _ _ leads failed := createFile_answers leads failed

def registerNode (req : RegisterNodeRequest) (now : Time) : Method Command where
  handle raft m := Server.registerNode raft m req now
  redirects _ _ follows := if_pos follows
  answers _ _ _ leads failed := by simp [Server.registerNode, leads] at failed

def heartbeat (counts : HeartbeatsCount) (req : HeartbeatRequest) (now : Time) : Method (List Command) where
  handle raft m := (Server.heartbeat raft m counts req now).2
  redirects _ _ follows := congrArg Prod.snd (if_pos follows)
  answers _ _ _ leads failed := heartbeat_answers leads failed

end Method

/-- The metadata servers during a call: the one that listens at an address, with what raft tells it and
    its state machine, and the error of a call to an address at which none can be reached. -/
structure MetadataCluster where
  server : String → Option (RaftView × FSM)
  unreachable : String → RpcError
  down : ∀ addr, (unreachable addr).code = .unavailable ∨ (unreachable addr).code = .deadlineExceeded

theorem LeaderCache.update_dialled (c : LeaderCache) (addr : String) :
    c.update (fun _ => none) addr = (none, (c.update (fun _ => none) addr).2) := by
  unfold update
  split
  · contradiction
  · split
    · rfl
    · rfl

namespace MetadataCluster

variable {ρ : Type} (cluster : MetadataCluster) (method : Method ρ)

def reply (addr : String) : Option CallError :=
  match cluster.server addr with
  | none => some (.status (cluster.unreachable addr))
  | some (raft, m) =>
    match method.handle raft m with
    | .ok _ => none
    | .error err => some (.status err)

def leads (addr : String) : Bool := (cluster.server addr).any fun server => server.1.isLeader

def redirect (addr : String) : Option String :=
  match cluster.server addr with
  | none => none
  | some (raft, m) => if raft.isLeader then none else (leaderRedirect raft m).leaderGrpcAddr

def settle : Nat → String → String
  | 0, addr => addr
  | hops + 1, addr =>
    match cluster.redirect addr with
    | none => addr
    | some target => settle hops target

/-- What an `Invoke` of the method meets while the servers stay as they are, every address can be
    dialled and the context lives. -/
def env (jitter : Nat → Duration) : InvokeEnv :=
  ⟨fun _ => none, fun _ => none, fun _ => cluster.reply method, jitter, fun _ => none⟩

variable {cluster} {addr target : String}

theorem settle_stays {hops : Nat} (ends : cluster.redirect (cluster.settle hops addr) = none) :
    cluster.settle (hops + 1) addr = cluster.settle hops addr := by
  induction hops generalizing addr with
  | zero =>
    have here : cluster.redirect addr = none := ends
    simp only [settle, here]
  | succ hops ih =>
    unfold settle at ends ⊢
    cases moved : cluster.redirect addr with
    | none => rfl
    | some target =>
      rw [moved] at ends
      exact ih ends

theorem settle_redirected {hops : Nat} (ends : cluster.redirect (cluster.settle hops addr) = none)
    (moved : cluster.redirect addr = some target) : cluster.settle hops target = cluster.settle hops addr := by
  rw [← settle_stays ends]
  simp only [settle, moved]

theorem settle_here (stays : cluster.redirect addr = none) (hops : Nat) : cluster.settle hops addr = addr := by
  cases hops with
  | zero => rfl
  | succ hops => simp only [settle, stays]

theorem redirect_of_leads (leads : cluster.leads addr = true) : cluster.redirect addr = none := by
  unfold MetadataCluster.leads at leads
  unfold redirect
  cases found : cluster.server addr with
  | none => rfl
  | some server =>
    rw [found] at leads
    exact if_pos leads

theorem reply_final (leads : cluster.leads addr = true) : Final (cluster.reply method addr) := by
  unfold MetadataCluster.leads at leads
  unfold reply
  cases found : cluster.server addr with
  | none =>
    rw [found] at leads
    cases leads
  | some server =>
    obtain ⟨raft, m⟩ := server
    rw [found] at leads
    have leader : raft.isLeader = true := leads
    cases answer : method.handle raft m with
    | ok _ => simp only [answer, Final]
    | error err =>
      simp only [answer, Final, CallError.retryable]
      exact method.answers raft m err leader answer

theorem reply_not_leads (follows : cluster.leads addr = false) : ∃ err, cluster.reply method addr = some err ∧
    err.retryable = true ∧ ∀ c : LeaderCache,
      c.follow (fun _ => none) err = (cluster.redirect addr).map fun target => (c.update (fun _ => none) target).2 := by
  unfold leads at follows
  unfold reply redirect
  cases found : cluster.server addr with
  | none =>
    refine ⟨_, rfl, ?_, ?_⟩
    · rcases cluster.down addr with code | code
      · simp [CallError.retryable, code, isRetryableCode]
      · simp [CallError.retryable, code, isRetryableCode]
    · intro c
      rcases cluster.down addr with code | code
      · simp [follow, code]
      · simp [follow, code]
  | some server =>
    obtain ⟨raft, m⟩ := server
    rw [found] at follows
    have follower : raft.isLeader = false := follows
    refine ⟨.status (leaderRedirect raft m), ?_, ?_, ?_⟩
    · simp only [method.redirects raft m follower]
    · unfold leaderRedirect
      split
      · rfl
      · rfl
    · intro c
      simp only [follower, Bool.false_eq_true, if_false]
      unfold leaderRedirect
      split
      · rfl
      · cases m.mdNodeRegistry.lookup raft.leaderAddress with
        | none => rfl
        | some entry =>
          have dialled := update_dialled c entry.grpcAddr
          simp only [follow, if_true, Option.map_some]
          rw [dialled]

end MetadataCluster

namespace LeaderCache

def calling (seeds : List String) (idx : Nat) (addr : String) : LeaderCache := ⟨addr, seeds, idx, some addr⟩

def seedAfter (seeds : List String) (idx : Nat) (addr : String) : String :=
  let seed := seeds.getD ((idx + 1) % seeds.length) ""
  if seed = "" then addr else seed

theorem seedAfter_cases (seeds : List String) (idx : Nat) (addr : String) :
    seedAfter seeds idx addr = addr ∨ (seedAfter seeds idx addr ∈ seeds ∧ seedAfter seeds idx addr ≠ "") := by
  unfold seedAfter
  by_cases unnamed : seeds.getD ((idx + 1) % seeds.length) "" = ""
  · exact .inl (if_pos unnamed)
  · right
    simp only [if_neg unnamed]
    refine ⟨?_, unnamed⟩
    cases seeds with
    | nil => exact absurd rfl unnamed
    | cons first rest =>
      have below : (idx + 1) % (first :: rest).length < (first :: rest).length := Nat.mod_lt _ (by simp)
      rw [List.getD_eq_getElem?_getD, List.getElem?_eq_getElem below]
      exact List.getElem_mem below

theorem seed_comes_next {seeds : List String} {seed : String} (member : seed ∈ seeds) (idx : Nat) :
    ∃ i, i < seeds.length ∧ seeds.getD ((idx + 1 + i) % seeds.length) "" = seed := by
  obtain ⟨k, below, rfl⟩ := List.getElem_of_mem member
  have positive : 0 < seeds.length := by omega
  refine ⟨(k + (seeds.length - (idx + 1) % seeds.length)) % seeds.length, Nat.mod_lt _ positive, ?_⟩
  have turn : (idx + 1 + (k + (seeds.length - (idx + 1) % seeds.length)) % seeds.length) % seeds.length = k := by
    have small := Nat.mod_lt (idx + 1) positive
    have whole := Nat.div_add_mod (idx + 1) seeds.length
    have total : idx + 1 + (k + (seeds.length - (idx + 1) % seeds.length)) =
        k + seeds.length * ((idx + 1) / seeds.length + 1) := by
      rw [Nat.mul_add]
      omega
    rw [Nat.add_mod_mod, total, Nat.add_mul_mod_self_left, Nat.mod_eq_of_lt below]
  rw [turn, List.getD_eq_getElem?_getD, List.getElem?_eq_getElem below]
  rfl

theorem update_calling (seeds : List String) (idx : Nat) (addr target : String) :
    (calling seeds idx addr).update (fun _ => none) target = (none, calling seeds idx target) := by
  unfold update calling
  by_cases same : addr = target
  · simp [same]
  · simp [same]

theorem rotate_calling (seeds : List String) (idx : Nat) (addr : String) :
    (calling seeds idx addr).rotate (fun _ => none) = calling seeds (idx + 1) (seedAfter seeds idx addr) := by
  have advanced : (calling seeds idx addr).advanceNextIdx = calling seeds (idx + 1) addr := rfl
  simp only [rotate, advanced]
  have connected : (calling seeds (idx + 1) addr).conn ≠ none := by simp [calling]
  simp only [connected, false_or, update_calling]
  unfold nextAddr seedAfter calling
  by_cases none : seeds.length = 0
  · have nil := List.eq_nil_of_length_eq_zero none
    subst nil
    by_cases here : addr = ""
    · simp [here]
    · simp [here]
  · simp only [if_neg none]
    by_cases unnamed : seeds.getD ((idx + 1) % seeds.length) "" = ""
    · simp only [unnamed, ne_eq, not_true, if_false, if_true]
    · simp only [unnamed, ne_eq, not_false_eq_true, if_true, if_false]

def Points (seeds : List String) (c : LeaderCache) : Prop := c = calling seeds c.nextIdx c.currentAddr

variable {seeds : List String} {c later : LeaderCache}

theorem Points.update (points : c.Points seeds) (dial : String → Option GoError) (addr : String) :
    (c.update dial addr).2.Points seeds := by
  unfold LeaderCache.update
  split
  · exact points
  · split
    · exact points
    · rw [points]
      rfl

theorem Points.rotate (points : c.Points seeds) (dial : String → Option GoError) : (c.rotate dial).Points seeds := by
  have advanced : c.advanceNextIdx.Points seeds := by
    rw [points]
    rfl
  unfold LeaderCache.rotate
  dsimp only
  split
  · exact advanced.update dial _
  · exact advanced

theorem Points.follow (points : c.Points seeds) {dial : String → Option GoError} {err : CallError}
    (followed : c.follow dial err = some later) : later.Points seeds := by
  unfold LeaderCache.follow at followed
  split at followed
  · cases followed
  · split at followed
    · split at followed
      · cases followed
      · rename_i addr _
        have updated := points.update dial addr
        split at followed
        · rename_i c moved
          cases followed
          rw [moved] at updated
          exact updated
        · cases followed
    · cases followed

end LeaderCache

theorem connectAny_points {dial : String → Option GoError} {addrs seeds : List String} {c later : LeaderCache}
    (given : c.seedAddrs = seeds) (unset : c.conn = none) (connected : connectAny dial addrs c = some later) :
    later.Points seeds := by
  induction addrs generalizing c with
  | nil => cases connected
  | cons addr rest ih =>
    unfold connectAny LeaderCache.update at connected
    cases dialled : dial addr with
    | some err =>
      simp only [dialled] at connected
      have advanced : c.advanceNextIdx.seedAddrs = seeds ∧ c.advanceNextIdx.conn = none := ⟨given, unset⟩
      exact ih advanced.1 advanced.2 connected
    | none =>
      simp only [dialled, unset, Option.isSome_none, Bool.false_eq_true, and_false, if_false,
        Option.some.injEq] at connected
      subst connected
      rw [← given]
      rfl

theorem invokeLoop_points (p : BackoffPolicy) (env : InvokeEnv) {seeds : List String} (left attempt : Nat)
    (delay : Duration) {c : LeaderCache} (points : c.Points seeds) :
    (p.invokeLoop env left attempt delay c).cache.Points seeds := by
  induction left generalizing attempt delay c with
  | zero => exact points
  | succ left ih =>
    unfold BackoffPolicy.invokeLoop
    split
    · exact points
    · exact points
    · split
      · exact points
      · split
        · rename_i followed
          exact ih _ _ (points.follow followed)
        · split
          · exact points
          · split
            · exact ih _ _ points
            · dsimp only
              split
              · exact points.rotate _
              · exact ih _ _ (points.rotate _)

inductive Reached (seeds : List String) : LeaderCache → Prop where
  | new {dial : String → Option GoError} {c : LeaderCache} (created : newLeaderAwareClient dial seeds = .ok c) :
    Reached seeds c
  | call {c : LeaderCache} (p : BackoffPolicy) (env : InvokeEnv) (before : Reached seeds c) :
    Reached seeds (p.invokeCall env c).cache

theorem Reached.points {seeds : List String} {c : LeaderCache} (reached : Reached seeds c) : c.Points seeds := by
  induction reached with
  | new created =>
    unfold newLeaderAwareClient at created
    split at created
    · rename_i connected
      cases created
      exact connectAny_points rfl rfl connected
    · cases created
  | call p env _ ih => exact invokeLoop_points p env _ _ _ ih

def Invocation.ending (invocation : Invocation) : Option GoError × LeaderCache :=
  (invocation.result, invocation.cache)

@[simp]
theorem Invocation.ending_after (call : String × Option CallError) (sleeps : List Sleep) (rest : Invocation) :
    (rest.after call sleeps).ending = rest.ending :=
  rfl

section

variable {ρ : Type} {cluster : MetadataCluster} {addr target : String} (p : BackoffPolicy) (method : Method ρ)
  (jitter : Nat → Duration) (seeds : List String)

theorem invokeLoop_answered (leads : cluster.leads addr = true) (left attempt : Nat) (delay : Duration)
    (idx : Nat) :
    p.invokeLoop (cluster.env method jitter) (left + 1) attempt delay (calling seeds idx addr) =
      ⟨(cluster.reply method addr).map CallError.err, calling seeds idx addr,
        [(addr, cluster.reply method addr)], []⟩ := by
  have final := MetadataCluster.reply_final method leads
  simp only [BackoffPolicy.invokeLoop, MetadataCluster.env, calling]
  cases replied : cluster.reply method addr with
  | none => rfl
  | some err =>
    rw [replied] at final
    have stays : ¬ Followed (fun _ => none) (some err) := fun followed => retryable_of_followed followed final
    have fatal : err.retryable = false := final
    simp only [follow_of_not_followed stays, fatal, if_true]
    rfl

theorem invokeLoop_redirected (moved : cluster.redirect addr = some target) (left attempt : Nat) (delay : Duration)
    (idx : Nat) :
    ∃ call, p.invokeLoop (cluster.env method jitter) (left + 1) attempt delay (calling seeds idx addr) =
      (p.invokeLoop (cluster.env method jitter) left (attempt + 1) delay (calling seeds idx target)).after call [] := by
  have follows : cluster.leads addr = false := by
    rw [← Bool.not_eq_true]
    intro leads
    rw [MetadataCluster.redirect_of_leads leads] at moved
    cases moved
  obtain ⟨err, replied, _, followed⟩ := cluster.reply_not_leads method follows
  refine ⟨(addr, some err), ?_⟩
  have conn : (calling seeds idx addr).conn = some addr := rfl
  simp only [BackoffPolicy.invokeLoop, MetadataCluster.env, conn, replied, followed, moved, Option.map_some,
    update_calling]

theorem invokeLoop_failed (follows : cluster.leads addr = false) (stays : cluster.redirect addr = none)
    (left attempt : Nat) (delay : Duration) (idx : Nat) :
    ∃ call sleeps next, p.invokeLoop (cluster.env method jitter) (left + 2) attempt delay (calling seeds idx addr) =
      (p.invokeLoop (cluster.env method jitter) (left + 1) (attempt + 1) next
        (calling seeds (idx + 1) (seedAfter seeds idx addr))).after call sleeps := by
  obtain ⟨err, replied, retryable, followed⟩ := cluster.reply_not_leads method follows
  have conn : (calling seeds idx addr).conn = some addr := rfl
  let slept : Sleep := ⟨attempt, delay, p.sleep delay (if 0 < delay.tdiv 2 then jitter attempt else 0)⟩
  refine ⟨(addr, some err), [slept], p.nextDelay delay, ?_⟩
  rw [BackoffPolicy.invokeLoop]
  simp only [MetadataCluster.env, conn, replied, followed, stays, Option.map_none, retryable, Bool.true_eq_false,
    if_false, Nat.add_eq_zero_iff, one_ne_zero, and_false, rotate_calling]
  rfl

theorem invokeLoop_last (follows : cluster.leads addr = false) (stays : cluster.redirect addr = none)
    (attempt : Nat) (delay : Duration) (idx : Nat) :
    (p.invokeLoop (cluster.env method jitter) 1 attempt delay (calling seeds idx addr)).result =
      some (attemptsExhausted p.maxAttempts) := by
  obtain ⟨err, replied, retryable, followed⟩ := cluster.reply_not_leads method follows
  have conn : (calling seeds idx addr).conn = some addr := rfl
  simp only [BackoffPolicy.invokeLoop, MetadataCluster.env, conn, replied, followed, stays, Option.map_none,
    retryable, Bool.true_eq_false, if_false, if_true]
  rfl

theorem invokeLoop_settles {hops : Nat} (ends : cluster.redirect (cluster.settle hops addr) = none) {left : Nat}
    (enough : hops < left) (attempt : Nat) (delay : Duration) (idx : Nat) :
    ∃ rest later, left ≤ rest + hops ∧
      (p.invokeLoop (cluster.env method jitter) left attempt delay (calling seeds idx addr)).ending =
        (p.invokeLoop (cluster.env method jitter) rest later delay
          (calling seeds idx (cluster.settle hops addr))).ending := by
  induction hops generalizing addr left attempt with
  | zero => exact ⟨left, attempt, le_rfl, rfl⟩
  | succ hops ih =>
    cases moved : cluster.redirect addr with
    | none =>
      rw [MetadataCluster.settle_here moved]
      exact ⟨left, attempt, by omega, rfl⟩
    | some target =>
      have onward : cluster.settle (hops + 1) addr = cluster.settle hops target := by
        simp only [MetadataCluster.settle, moved]
      obtain ⟨left, rfl⟩ := Nat.exists_eq_add_one_of_ne_zero (Nat.ne_zero_of_lt enough)
      obtain ⟨call, turned⟩ := invokeLoop_redirected p method jitter seeds moved left attempt delay idx
      rw [onward] at ends ⊢
      have spare : hops < left := by omega
      obtain ⟨rest, later, within, same⟩ := ih ends spare (attempt + 1)
      refine ⟨rest, later, by omega, ?_⟩
      rw [turned, Invocation.ending_after]
      exact same

theorem invokeLoop_arrives {hops : Nat} (settles : ∀ addr, cluster.redirect (cluster.settle hops addr) = none)
    {left : Nat}
    (enough : hops < left) (attempt : Nat) (delay : Duration) (idx : Nat)
    (leads : cluster.leads (cluster.settle hops addr) = true) :
    (p.invokeLoop (cluster.env method jitter) left attempt delay (calling seeds idx addr)).ending =
      ((cluster.reply method (cluster.settle hops addr)).map CallError.err,
        calling seeds idx (cluster.settle hops addr)) := by
  obtain ⟨rest, later, within, same⟩ := invokeLoop_settles p method jitter seeds (settles addr) enough attempt delay idx
  obtain ⟨rest, rfl⟩ := Nat.exists_eq_add_one_of_ne_zero (by omega : rest ≠ 0)
  rw [same, invokeLoop_answered p method jitter seeds leads]
  rfl

theorem invokeLoop_finds {hops : Nat} (settles : ∀ addr, cluster.redirect (cluster.settle hops addr) = none)
    (more : Nat) {left : Nat}
    (enough : (more + 1) * (hops + 1) ≤ left) (attempt : Nat) (delay : Duration) (idx : Nat) {addr : String}
    (known : cluster.leads (cluster.settle hops addr) = true ∨ ∃ i, i < more ∧
      seeds.getD ((idx + 1 + i) % seeds.length) "" ≠ "" ∧
      cluster.leads (cluster.settle hops (seeds.getD ((idx + 1 + i) % seeds.length) "")) = true) :
    ∃ leader last, cluster.leads leader = true ∧
      (p.invokeLoop (cluster.env method jitter) left attempt delay (calling seeds idx addr)).ending =
        ((cluster.reply method leader).map CallError.err, calling seeds last leader) := by
  induction more generalizing left attempt delay idx addr with
  | zero =>
    rcases known with leads | ⟨i, below, _⟩
    · exact ⟨_, idx, leads, invokeLoop_arrives p method jitter seeds settles (by omega) attempt delay idx leads⟩
    · omega
  | succ more ih =>
    have share : (more + 1 + 1) * (hops + 1) = (more + 1) * (hops + 1) + (hops + 1) := by ring
    have positive : 0 < (more + 1) * (hops + 1) := by positivity
    by_cases here : cluster.leads (cluster.settle hops addr) = true
    · exact ⟨_, idx, here, invokeLoop_arrives p method jitter seeds settles (by omega) attempt delay idx here⟩
    · -- the chain from this address is spent, and one of the seeds that come next is the good one
      obtain ⟨i, below, named, leads⟩ := known.resolve_left here
      have follows : cluster.leads (cluster.settle hops addr) = false := Bool.not_eq_true _ ▸ here
      have spare : hops < left := by omega
      obtain ⟨rest, later, within, same⟩ :=
        invokeLoop_settles p method jitter seeds (settles addr) spare attempt delay idx
      obtain ⟨rest, rfl⟩ : ∃ k, rest = k + 2 := ⟨rest - 2, by omega⟩
      obtain ⟨call, sleeps, next, turned⟩ := invokeLoop_failed p method jitter seeds follows
        (settles addr) rest later delay idx
      rw [same, turned, Invocation.ending_after]
      refine ih (by omega) (later + 1) next (idx + 1) ?_
      cases i with
      | zero =>
        left
        unfold seedAfter
        rw [if_neg named]
        exact leads
      | succ i =>
        right
        have index : idx + 1 + 1 + i = idx + 1 + (i + 1) := by omega
        rw [← index] at named leads
        exact ⟨i, by omega, named, leads⟩

theorem invokeLoop_misses {hops : Nat} (settles : ∀ addr, cluster.redirect (cluster.settle hops addr) = none)
    (away : ∀ seed ∈ seeds, seed ≠ "" → cluster.leads (cluster.settle hops seed) = false) (left attempt : Nat)
    (delay : Duration) (idx : Nat) {addr : String} (here : cluster.leads (cluster.settle hops addr) = false) :
    (p.invokeLoop (cluster.env method jitter) left attempt delay (calling seeds idx addr)).result =
      some (attemptsExhausted p.maxAttempts) := by
  induction left generalizing attempt delay idx addr with
  | zero => rfl
  | succ left ih =>
    cases moved : cluster.redirect addr with
    | some target =>
      obtain ⟨call, turned⟩ :=
        invokeLoop_redirected p method jitter seeds moved left attempt delay idx
      rw [turned]
      refine ih (attempt + 1) delay idx ?_
      rw [MetadataCluster.settle_redirected (settles addr) moved]
      exact here
    | none =>
      rw [MetadataCluster.settle_here moved] at here
      cases left with
      | zero => exact invokeLoop_last p method jitter seeds here moved attempt delay idx
      | succ left =>
        obtain ⟨call, sleeps, next, turned⟩ :=
          invokeLoop_failed p method jitter seeds here moved left attempt delay idx
        rw [turned]
        refine ih (attempt + 1) next (idx + 1) ?_
        rcases seedAfter_cases seeds idx addr with same | ⟨member, named⟩
        · rw [same, MetadataCluster.settle_here moved]
          exact here
        · exact away _ member named

end

def MetadataCluster.LeadsFrom (cluster : MetadataCluster) (hops : Nat) (addr : String) : Prop :=
  cluster.leads (cluster.settle hops addr) = true

/-- While the servers stay as they are, a call ends with the answer of a leader exactly if the redirects
    from the cached connection or from a seed lead to one, whatever the other seeds answer and wherever
    the rotation stands; then the next call is answered by this leader at once. A round is needed for
    each address and each redirect. -/
theorem invoke_reaches_leader {ρ : Type} {cluster : MetadataCluster} (p : BackoffPolicy) (method : Method ρ)
    (jitter : Nat → Duration) {hops : Nat} (settles : ∀ addr, cluster.redirect (cluster.settle hops addr) = none)
    (seeds : List String)
    (enough : ((seeds.length + 1) * (hops + 1) : Nat) ≤ p.maxAttempts) {c : LeaderCache} (reached : Reached seeds c) :
    let call := p.invokeCall (cluster.env method jitter) c
    ((cluster.LeadsFrom hops c.currentAddr ∨ ∃ seed ∈ seeds, seed ≠ "" ∧ cluster.LeadsFrom hops seed) →
      ∃ leader, cluster.leads leader = true ∧ call.result = (cluster.reply method leader).map CallError.err ∧
        (p.invokeCall (cluster.env method jitter) call.cache).calls = [(leader, cluster.reply method leader)]) ∧
    (¬(cluster.LeadsFrom hops c.currentAddr ∨ ∃ seed ∈ seeds, seed ≠ "" ∧ cluster.LeadsFrom hops seed) →
      call.result = some (attemptsExhausted p.maxAttempts)) := by
  have rounds : (seeds.length + 1) * (hops + 1) ≤ p.maxAttempts.toNat := by omega
  have points : c = calling seeds c.nextIdx c.currentAddr := reached.points
  generalize c.nextIdx = idx at points
  generalize c.currentAddr = addr at points ⊢
  subst points
  dsimp only
  constructor
  · intro known
    have next : cluster.leads (cluster.settle hops addr) = true ∨ ∃ i, i < seeds.length ∧
        seeds.getD ((idx + 1 + i) % seeds.length) "" ≠ "" ∧
        cluster.leads (cluster.settle hops (seeds.getD ((idx + 1 + i) % seeds.length) "")) = true := by
      refine known.imp_right ?_
      rintro ⟨seed, member, named, leads⟩
      obtain ⟨i, below, turn⟩ := seed_comes_next member idx
      rw [← turn] at named leads
      exact ⟨i, below, named, leads⟩
    obtain ⟨leader, last, leads, ended⟩ :=
      invokeLoop_finds p method jitter seeds settles seeds.length rounds 0 p.base idx next
    refine ⟨leader, leads, congrArg Prod.fst ended, ?_⟩
    have cache : (p.invokeCall (cluster.env method jitter) (calling seeds idx addr)).cache = calling seeds last leader :=
      congrArg Prod.snd ended
    have positive : 0 < (seeds.length + 1) * (hops + 1) := by positivity
    obtain ⟨left, attempts⟩ := Nat.exists_eq_add_one_of_ne_zero (by omega : p.maxAttempts.toNat ≠ 0)
    rw [cache, BackoffPolicy.invokeCall, attempts, invokeLoop_answered p method jitter seeds leads]
  · intro unknown
    obtain ⟨here, away⟩ := not_or.mp unknown
    refine invokeLoop_misses p method jitter seeds settles ?_ _ 0 p.base idx (Bool.not_eq_true _ ▸ here)
    intro seed member named
    rw [← Bool.not_eq_true]
    exact fun leads => away ⟨seed, member, named, leads⟩

/-- Of the two seeds one is down, and the other follows a leader that is no seed. -/
def oneSeedDown : MetadataCluster where
  server addr :=
    if addr = "10.0.0.2:50050" then some (⟨false, "10.0.0.3:7000"⟩, { newEmptyMetadataFsm with
      mdNodeRegistry := (∅ : GoMap MetadataNodeEntry).insert "10.0.0.3:7000"
        ⟨"m3", "10.0.0.3:7000", "10.0.0.3:50050"⟩ })
    else if addr = "10.0.0.3:50050" then some (⟨true, "10.0.0.3:7000"⟩, newEmptyMetadataFsm)
    else none
  unreachable _ := ⟨.unavailable, "connection refused", none⟩
  down _ := .inl rfl

theorem oneSeedDown_redirect (addr : String) :
    oneSeedDown.redirect addr = if addr = "10.0.0.2:50050" then some "10.0.0.3:50050" else none := by
  unfold MetadataCluster.redirect oneSeedDown
  by_cases second : addr = "10.0.0.2:50050"
  · simp only [second, if_true]
    decide +kernel
  · by_cases third : addr = "10.0.0.3:50050"
    · simp [third]
    · simp [second, third]

theorem oneSeedDown_leads {addr : String} (leads : oneSeedDown.leads addr = true) : addr = "10.0.0.3:50050" := by
  by_contra other
  by_cases second : addr = "10.0.0.2:50050"
  · simp [MetadataCluster.leads, oneSeedDown, second] at leads
  · simp [MetadataCluster.leads, oneSeedDown, second, other] at leads

theorem invoke_reaches_leader_third :
    (BackoffPolicy.invokeCall ⟨⟨6⟩, 100000000, 5000000000, 2⟩
      (oneSeedDown.env (.heartbeat ∅ ⟨"n1", 100000, 0⟩ 1) fun _ => 0)
      (calling ["10.0.0.1:50050", "10.0.0.2:50050"] 0 "10.0.0.1:50050")).result =
        some (.new "rpc error: code = NotFound desc = node not registered") := by
  have settles : ∀ addr, oneSeedDown.redirect (oneSeedDown.settle 1 addr) = none := by
    intro addr
    by_cases second : addr = "10.0.0.2:50050"
    · simp [MetadataCluster.settle, oneSeedDown_redirect, second]
    · simp [MetadataCluster.settle, oneSeedDown_redirect, second]
  have started : Reached ["10.0.0.1:50050", "10.0.0.2:50050"]
      (calling ["10.0.0.1:50050", "10.0.0.2:50050"] 0 "10.0.0.1:50050") :=
    .new (show newLeaderAwareClient (fun _ => none) _ = _ from rfl)
  have follows : oneSeedDown.LeadsFrom 1 "10.0.0.2:50050" := by
    simp only [MetadataCluster.LeadsFrom, MetadataCluster.settle, oneSeedDown_redirect, if_true]
    rfl
  obtain ⟨leader, leads, answered, _⟩ := (invoke_reaches_leader ⟨⟨6⟩, 100000000, 5000000000, 2⟩
    (.heartbeat ∅ ⟨"n1", 100000, 0⟩ 1) (fun _ => 0) settles ["10.0.0.1:50050", "10.0.0.2:50050"] (by decide)
    started).1 (.inr ⟨"10.0.0.2:50050", by simp, by decide, follows⟩)
  rw [answered, oneSeedDown_leads leads]
  rfl

end DistributedFs.Internal
