import DistributedFs.Go.Float64
import DistributedFs.Internal.Retry

namespace DistributedFs.Internal

open Go Server

structure BackoffPolicy extends Policy where
  base : Duration
  max : Duration
  multiplier : ℚ

namespace BackoffPolicy

def sleep (p : BackoffPolicy) (delay jitter : Duration) : Duration := min (delay + jitter) p.max

def nextDelay (p : BackoffPolicy) (delay : Duration) : Duration :=
  min (Float64.truncate (Float64.mul (Float64.ofInt delay) p.multiplier)) p.max

end BackoffPolicy

/-- A `LeaderCache`; a connection is known by the address it was made for. -/
structure LeaderCache where
  currentAddr : String
  seedAddrs : List String
  nextIdx : Nat
  conn : Option String

namespace LeaderCache

def newLeaderCache (seedAddrs : List String) : LeaderCache := ⟨"", seedAddrs, 0, none⟩

/-- `Update`; `dial` is what `grpc.NewClient` says to an address. -/
def update (dial : String → Option GoError) (addr : String) (c : LeaderCache) : Option GoError × LeaderCache :=
  match dial addr with
  | some err => (some (.new ("leaderclient: failed to dial " ++ addr ++ ": " ++ err.text)), c)
  | none =>
    if c.currentAddr = addr ∧ c.conn.isSome then (none, c)
    else (none, { c with conn := some addr, currentAddr := addr })

def nextAddr (c : LeaderCache) : String :=
  if c.seedAddrs.length = 0 then c.currentAddr else c.seedAddrs.getD (c.nextIdx % c.seedAddrs.length) ""

def advanceNextIdx (c : LeaderCache) : LeaderCache := { c with nextIdx := c.nextIdx + 1 }

def follow (dial : String → Option GoError) (err : CallError) (c : LeaderCache) : Option LeaderCache :=
  match err with
  | .plain _ => none
  | .status err =>
    if err.code = .failedPrecondition then
      match err.leaderGrpcAddr with
      | none => none
      | some addr =>
        match c.update dial addr with
        | (none, c) => some c
        | (some _, _) => none
    else none

def rotate (dial : String → Option GoError) (c : LeaderCache) : LeaderCache :=
  let c := c.advanceNextIdx
  if c.conn = none ∨ c.nextAddr ≠ "" then (c.update dial c.nextAddr).2 else c

end LeaderCache

open LeaderCache

def connectAny (dial : String → Option GoError) : List String → LeaderCache → Option LeaderCache
  | [], _ => none
  | addr :: rest, c =>
    match c.update dial addr with
    | (none, c) => some c
    | (some _, c) => connectAny dial rest c.advanceNextIdx

def newLeaderAwareClient (dial : String → Option GoError) (seedAddrs : List String) :
    Except GoError LeaderCache :=
  match connectAny dial seedAddrs (newLeaderCache seedAddrs) with
  | some c => .ok c
  | none =>
    .error (.new ("leaderclient: failed to connect to any seed address: [" ++ " ".intercalate seedAddrs ++ "]"))

/-- What a call of `Invoke` meets: what can be dialled, the context, the answers of the servers
    that are called, and the random part of each sleep. -/
structure InvokeEnv where
  dial : String → Option GoError
  ctxErr : Nat → Option GoError
  reply : Nat → String → Option CallError
  jitter : Nat → Duration
  asleep : Nat → Option GoError

structure Sleep where
  after : Nat
  delay : Duration
  length : Duration

structure Invocation where
  result : Option GoError
  cache : LeaderCache
  calls : List (String × Option CallError)
  sleeps : List Sleep

def Invocation.after (call : String × Option CallError) (sleeps : List Sleep) (rest : Invocation) : Invocation :=
  { rest with calls := call :: rest.calls, sleeps := sleeps ++ rest.sleeps }

namespace BackoffPolicy

def invokeLoop (p : BackoffPolicy) (env : InvokeEnv) : Nat → Nat → Duration → LeaderCache → Invocation
  | 0, _, _, c => ⟨some (attemptsExhausted p.maxAttempts), c, [], []⟩
  | left + 1, attempt, delay, c =>
    match env.ctxErr attempt, c.conn with
    | some err, _ => ⟨some err, c, [], []⟩
    | none, none => ⟨some (.new "leaderclient: no metadata connection available"), c, [], []⟩
    | none, some addr =>
      match env.reply attempt addr with
      | none => ⟨none, c, [(addr, none)], []⟩
      | some err =>
        match c.follow env.dial err with
        | some c => (invokeLoop p env left (attempt + 1) delay c).after (addr, some err) []
        | none =>
          if err.retryable = false then ⟨some err.err, c, [(addr, some err)], []⟩
          else if left = 0 then (invokeLoop p env left (attempt + 1) delay c).after (addr, some err) []
          else
            let c := c.rotate env.dial
            let jitter := if 0 < delay.tdiv 2 then env.jitter attempt else 0
            let slept := ⟨attempt, delay, p.sleep delay jitter⟩
            match env.asleep attempt with
            | some stopped => ⟨some stopped, c, [(addr, some err)], [slept]⟩
            | none => (invokeLoop p env left (attempt + 1) (p.nextDelay delay) c).after (addr, some err) [slept]

def invokeCall (p : BackoffPolicy) (env : InvokeEnv) (c : LeaderCache) : Invocation :=
  p.invokeLoop env p.maxAttempts.toNat 0 p.base c

end BackoffPolicy

theorem rounds_congr {σ : Type} {maxAttempts : Int} {met met' : Nat → Round}
    {call call' : Nat → σ → Option CallError × σ} {left attempt : Nat}
    (same : ∀ k, attempt ≤ k → met k = met' k ∧ call k = call' k) (s : σ) :
    rounds maxAttempts met call left attempt s = rounds maxAttempts met' call' left attempt s := by
  induction left generalizing attempt s with
  | zero => rfl
  | succ left ih =>
    obtain ⟨round, answer⟩ := same attempt (Nat.le_refl _)
    have later := ih fun k after => same k (Nat.le_of_succ_le after)
    simp only [rounds, round, answer, later]

theorem redirects_of_follow {dial : String → Option GoError} {err : CallError} {c later : LeaderCache}
    (followed : c.follow dial err = some later) : err.redirects = true := by
  cases err with
  | plain err => cases followed
  | status err =>
    simp only [follow] at followed
    split at followed
    · rename_i code
      cases leader : err.leaderGrpcAddr with
      | none => simp [leader] at followed
      | some addr => simp [CallError.redirects, code, leader]
    · cases followed

def answered (p : BackoffPolicy) (env : InvokeEnv) (met : Nat → Round) (addrs : Nat → String)
    (left attempt : Nat) : Option GoError :=
  (rounds p.maxAttempts met (fun k (_ : Unit) => (env.reply k (addrs k), ())) left attempt ()).1

theorem invokeLoop_round (p : BackoffPolicy) (env : InvokeEnv) (left attempt : Nat) (delay : Duration)
    (c : LeaderCache) :
    ∃ round addr,
      (∀ met addrs, met attempt = round → addrs attempt = addr →
        (p.invokeLoop env (left + 1) attempt delay c).result = answered p env met addrs (left + 1) attempt) ∨
      ∃ next later,
        (p.invokeLoop env (left + 1) attempt delay c).result =
          (p.invokeLoop env left (attempt + 1) next later).result ∧
        ∀ met addrs, met attempt = round → addrs attempt = addr →
          answered p env met addrs (left + 1) attempt = answered p env met addrs left (attempt + 1) := by
  cases ctx : env.ctxErr attempt with
  | some err =>
    refine ⟨⟨some err, true, true, none⟩, "", .inl fun met addrs here _ => ?_⟩
    simp only [BackoffPolicy.invokeLoop, answered, ctx, rounds, here]
  | none =>
    cases conn : c.conn with
    | none =>
      refine ⟨⟨none, false, true, none⟩, "", .inl fun met addrs here _ => ?_⟩
      simp only [BackoffPolicy.invokeLoop, answered, ctx, conn, rounds, here, if_true]
    | some addr =>
      cases reply : env.reply attempt addr with
      | none =>
        refine ⟨⟨none, true, true, none⟩, addr, .inl fun met addrs here called => ?_⟩
        simp only [BackoffPolicy.invokeLoop, answered, ctx, conn, reply, rounds, here, called, Bool.true_eq_false,
          if_false]
      | some err =>
        cases followed : c.follow env.dial err with
        | some later =>
          refine ⟨⟨none, true, true, none⟩, addr, .inr ⟨delay, later, ?_, fun met addrs here called => ?_⟩⟩
          · simp only [BackoffPolicy.invokeLoop, ctx, conn, reply, followed]
            rfl
          · simp only [answered, rounds, here, called, reply, redirects_of_follow followed, Bool.true_eq_false,
              if_false, and_self, if_true]
        | none =>
          by_cases fatal : err.retryable = false
          · refine ⟨⟨none, true, false, none⟩, addr, .inl fun met addrs here called => ?_⟩
            simp only [BackoffPolicy.invokeLoop, answered, ctx, conn, reply, followed, rounds, here, called, fatal,
              Bool.true_eq_false, Bool.false_eq_true, if_false, and_false, if_true]
          · by_cases last : left = 0
            · refine ⟨⟨none, true, false, none⟩, addr, .inr ⟨delay, c, ?_, fun met addrs here called => ?_⟩⟩
              · simp only [BackoffPolicy.invokeLoop, ctx, conn, reply, followed, fatal, last, if_true]
                rfl
              · simp only [answered, rounds, here, called, reply, fatal, last, Bool.true_eq_false,
                  Bool.false_eq_true, if_false, and_false, if_true]
            · cases asleep : env.asleep attempt with
              | some stopped =>
                refine ⟨⟨none, true, false, some stopped⟩, addr, .inl fun met addrs here called => ?_⟩
                simp only [BackoffPolicy.invokeLoop, answered, ctx, conn, reply, followed, rounds, here, called,
                  fatal, last, asleep, Bool.true_eq_false, Bool.false_eq_true, if_false, and_false]
              | none =>
                refine ⟨⟨none, true, false, none⟩, addr,
                  .inr ⟨p.nextDelay delay, c.rotate env.dial, ?_, fun met addrs here called => ?_⟩⟩
                · simp only [BackoffPolicy.invokeLoop, ctx, conn, reply, followed, fatal, last, asleep, if_false]
                  rfl
                · simp only [answered, rounds, here, called, reply, fatal, last, Bool.true_eq_false,
                    Bool.false_eq_true, if_false, and_false]

/-- What `Invoke` returns with its cache and its delays is what `rounds` returns for some rounds
    in which each call is answered by a server that could be called. -/
theorem invokeLoop_rounds (p : BackoffPolicy) (env : InvokeEnv) (left attempt : Nat) (delay : Duration)
    (c : LeaderCache) :
    ∃ (met : Nat → Round) (addrs : Nat → String),
      (p.invokeLoop env left attempt delay c).result = answered p env met addrs left attempt := by
  induction left generalizing attempt delay c with
  | zero => exact ⟨fun _ => ⟨none, true, true, none⟩, fun _ => "", rfl⟩
  | succ left ih =>
    obtain ⟨round, addr, ends | ⟨next, later, result, goesOn⟩⟩ := invokeLoop_round p env left attempt delay c
    · exact ⟨fun _ => round, fun _ => addr, ends _ _ rfl rfl⟩
    · -- the rounds that follow, behind this one
      obtain ⟨met, addrs, same⟩ := ih (attempt + 1) next later
      refine ⟨Function.update met attempt round, Function.update addrs attempt addr, ?_⟩
      rw [result, same, goesOn _ _ (Function.update_self ..) (Function.update_self ..)]
      apply congrArg Prod.fst
      apply rounds_congr
      intro k after
      have other : k ≠ attempt := by omega
      simp only [Function.update_of_ne other, and_self]

def live (dial : String → Option GoError) (outcome : Nat → Option CallError) (jitter : Nat → Duration) :
    InvokeEnv :=
  ⟨dial, fun _ => none, fun k _ => outcome k, jitter, fun _ => none⟩

def Final : Option CallError → Prop
  | none => True
  | some err => err.retryable = false

def Followed (dial : String → Option GoError) : Option CallError → Prop
  | some (.status err) =>
    err.code = .failedPrecondition ∧ (err.leaderGrpcAddr.any fun addr => (dial addr).isNone) = true
  | _ => False

instance (reply : Option CallError) : Decidable (Final reply) :=
  match reply with
  | none => .isTrue trivial
  | some err => inferInstanceAs (Decidable (err.retryable = false))

instance (dial : String → Option GoError) (reply : Option CallError) : Decidable (Followed dial reply) :=
  match reply with
  | none => .isFalse id
  | some (.plain _) => .isFalse id
  | some (.status err) => inferInstanceAs (Decidable (err.code = .failedPrecondition ∧
      (err.leaderGrpcAddr.any fun addr => (dial addr).isNone) = true))

def failures (dial : String → Option GoError) (outcome : Nat → Option CallError) (n : Nat) : Nat :=
  (List.range n).countP fun i => ¬ Followed dial (outcome i)

/-- The result and the number of calls of an `Invoke` for which redirects are no failures: the
    first final answer, or the error after `maxAttempts` failed calls. -/
inductive Intended (maxAttempts : Int) (dial : String → Option GoError) (outcome : Nat → Option CallError) :
    Option GoError → Nat → Prop where
  | final {n : Nat} (undecided : ∀ i < n, ¬ Final (outcome i))
    (left : (failures dial outcome n : Int) < maxAttempts) (decided : Final (outcome n)) :
    Intended maxAttempts dial outcome ((outcome n).map CallError.err) (n + 1)
  | exhausted {n : Nat} (undecided : ∀ i < n, ¬ Final (outcome i))
    (left : ∀ i < n, (failures dial outcome i : Int) < maxAttempts)
    (used : (failures dial outcome n : Int) = maxAttempts) :
    Intended maxAttempts dial outcome (some (attemptsExhausted maxAttempts)) n

structure BackoffKept (p : BackoffPolicy) (dial : String → Option GoError) (outcome : Nat → Option CallError)
    (sleeps : List Sleep) : Prop where
  notRedirected : ∀ s ∈ sleeps, ¬ Followed dial (outcome s.after)
  delays : sleeps.map Sleep.delay = (List.range sleeps.length).map fun k => p.nextDelay^[k] p.base

theorem follow_of_followed {dial : String → Option GoError} {err : CallError}
    (followed : Followed dial (some err)) (c : LeaderCache) :
    ∃ later, c.follow dial err = some later ∧ later.conn.isSome := by
  cases err with
  | plain err => exact followed.elim
  | status err =>
    obtain ⟨code, dialled⟩ := followed
    obtain ⟨addr, leader, dialled⟩ := (Option.any_eq_true _ _).mp dialled
    simp only [follow, code, if_true, leader, update, Option.isNone_iff_eq_none.mp dialled]
    by_cases cached : c.currentAddr = addr ∧ c.conn.isSome
    · rw [if_pos cached]
      exact ⟨c, rfl, cached.2⟩
    · rw [if_neg cached]
      exact ⟨_, rfl, rfl⟩

theorem follow_of_not_followed {dial : String → Option GoError} {err : CallError}
    (stays : ¬ Followed dial (some err)) (c : LeaderCache) : c.follow dial err = none := by
  cases err with
  | plain err => rfl
  | status err =>
    simp only [follow]
    split
    · rename_i code
      cases leader : err.leaderGrpcAddr with
      | none => rfl
      | some addr =>
        cases dialled : dial addr with
        | none => exact absurd ⟨code, by rw [leader, Option.any_some, dialled]; rfl⟩ stays
        | some failed => simp only [update, dialled]
    · rfl

theorem retryable_of_followed {dial : String → Option GoError} {reply : Option CallError}
    (followed : Followed dial reply) : ¬ Final reply := by
  cases reply with
  | none => exact followed.elim
  | some err =>
    cases err with
    | plain err => exact followed.elim
    | status err =>
      obtain ⟨code, _⟩ := followed
      intro final
      simp [Final, CallError.retryable, code, isRetryableCode] at final

theorem update_connected (dial : String → Option GoError) (addr : String) {c : LeaderCache}
    (connected : c.conn.isSome) : (c.update dial addr).2.conn.isSome := by
  unfold update
  cases dial addr with
  | some err => exact connected
  | none =>
    dsimp only
    split
    · exact connected
    · rfl

theorem rotate_connected (dial : String → Option GoError) {c : LeaderCache} (connected : c.conn.isSome) :
    (c.rotate dial).conn.isSome := by
  have advanced : c.advanceNextIdx.conn.isSome := connected
  unfold rotate
  dsimp only
  split
  · exact update_connected dial _ advanced
  · exact advanced

section

variable (p : BackoffPolicy) (dial : String → Option GoError) {outcome : Nat → Option CallError}
  (jitter : Nat → Duration)

theorem invokeLoop_final (left : Nat) {attempt : Nat} (final : Final (outcome attempt)) (delay : Duration)
    {c : LeaderCache} (connected : c.conn.isSome) :
    ∃ addr, p.invokeLoop (live dial outcome jitter) (left + 1) attempt delay c =
      ⟨(outcome attempt).map CallError.err, c, [(addr, outcome attempt)], []⟩ := by
  obtain ⟨addr, conn⟩ := Option.isSome_iff_exists.mp connected
  refine ⟨addr, ?_⟩
  simp only [BackoffPolicy.invokeLoop, live, conn]
  cases reply : outcome attempt with
  | none => rfl
  | some err =>
    rw [reply] at final
    have stays : ¬ Followed dial (some err) := fun followed => retryable_of_followed followed final
    have fatal : err.retryable = false := final
    simp only [follow_of_not_followed stays, fatal, if_true]
    rfl

theorem invokeLoop_more (left : Nat) {attempt : Nat} (open_ : ¬ Final (outcome attempt)) (delay : Duration)
    {c : LeaderCache} (connected : c.conn.isSome) :
    ∃ call sleeps next later, later.conn.isSome ∧
      p.invokeLoop (live dial outcome jitter) (left + 1) attempt delay c =
        (p.invokeLoop (live dial outcome jitter) left (attempt + 1) next later).after call sleeps ∧
      ((sleeps = [] ∧ (next = delay ∨ left = 0)) ∨
        (¬ Followed dial (outcome attempt) ∧ next = p.nextDelay delay ∧
          ∃ length, sleeps = [⟨attempt, delay, length⟩])) := by
  obtain ⟨addr, conn⟩ := Option.isSome_iff_exists.mp connected
  cases reply : outcome attempt with
  | none =>
    rw [reply] at open_
    exact absurd trivial open_
  | some err =>
    rw [reply] at open_
    simp only [BackoffPolicy.invokeLoop, live, conn, reply]
    by_cases followed : Followed dial (some err)
    · obtain ⟨later, taken, kept⟩ := follow_of_followed followed c
      simp only [taken]
      exact ⟨_, [], delay, later, kept, rfl, .inl ⟨rfl, .inl rfl⟩⟩
    · have retried : ¬ err.retryable = false := open_
      simp only [follow_of_not_followed followed, retried]
      by_cases last : left = 0
      · subst last
        exact ⟨_, [], delay, c, connected, rfl, .inl ⟨rfl, .inr rfl⟩⟩
      · simp only [last, if_false]
        exact ⟨_, _, _, _, rotate_connected dial connected, rfl, .inr ⟨followed, rfl, _, rfl⟩⟩

theorem invokeLoop_decided (left : Nat) {attempt n : Nat}
    (undecided : ∀ i, attempt ≤ i → i < n → ¬ Final (outcome i))
    (later : attempt ≤ n) (inTime : n < attempt + left) (decided : Final (outcome n)) (delay : Duration)
    {c : LeaderCache} (connected : c.conn.isSome) :
    (p.invokeLoop (live dial outcome jitter) left attempt delay c).result = (outcome n).map CallError.err ∧
      (p.invokeLoop (live dial outcome jitter) left attempt delay c).calls.length = n + 1 - attempt := by
  induction left generalizing attempt delay c with
  | zero => omega
  | succ left ih =>
    by_cases here : n = attempt
    · subst here
      obtain ⟨addr, round⟩ := invokeLoop_final p dial jitter left decided delay connected
      rw [round]
      exact ⟨rfl, by simp⟩
    · have first := undecided attempt (Nat.le_refl _) (by omega)
      have beyond : ∀ i, attempt + 1 ≤ i → i < n → ¬ Final (outcome i) :=
        fun i low high => undecided i (by omega) high
      obtain ⟨call, sleeps, next, cache, kept, round, _⟩ := invokeLoop_more p dial jitter left first delay connected
      have rest := ih beyond (by omega) (by omega) next kept
      rw [round]
      refine ⟨rest.1, ?_⟩
      rw [Invocation.after, List.length_cons, rest.2]
      omega

theorem invokeLoop_undecided (left : Nat) {attempt : Nat}
    (undecided : ∀ i, attempt ≤ i → i < attempt + left → ¬ Final (outcome i)) (delay : Duration)
    {c : LeaderCache} (connected : c.conn.isSome) :
    (p.invokeLoop (live dial outcome jitter) left attempt delay c).result =
        some (attemptsExhausted p.maxAttempts) ∧
      (p.invokeLoop (live dial outcome jitter) left attempt delay c).calls.length = left := by
  induction left generalizing attempt delay c with
  | zero => exact ⟨rfl, rfl⟩
  | succ left ih =>
    have first := undecided attempt (Nat.le_refl _) (by omega)
    have beyond : ∀ i, attempt + 1 ≤ i → i < attempt + 1 + left → ¬ Final (outcome i) :=
      fun i low high => undecided i (by omega) (by omega)
    obtain ⟨call, sleeps, next, cache, kept, round, _⟩ := invokeLoop_more p dial jitter left first delay connected
    have rest := ih beyond next kept
    rw [round]
    refine ⟨rest.1, ?_⟩
    rw [Invocation.after, List.length_cons, rest.2]

theorem invokeLoop_sleeps (left attempt : Nat) (delay : Duration) {c : LeaderCache} (connected : c.conn.isSome) :
    let sleeps := (p.invokeLoop (live dial outcome jitter) left attempt delay c).sleeps
    (∀ s ∈ sleeps, ¬ Followed dial (outcome s.after)) ∧
      sleeps.map Sleep.delay = (List.range sleeps.length).map fun k => p.nextDelay^[k] delay := by
  induction left generalizing attempt delay c with
  | zero => exact ⟨fun _ member => absurd member List.not_mem_nil, rfl⟩
  | succ left ih =>
    by_cases final : Final (outcome attempt)
    · obtain ⟨addr, round⟩ := invokeLoop_final p dial jitter left final delay connected
      rw [round]
      exact ⟨fun _ member => absurd member List.not_mem_nil, rfl⟩
    · obtain ⟨call, sleeps, next, cache, kept, round, slept⟩ :=
        invokeLoop_more p dial jitter left final delay connected
      obtain ⟨after, delays⟩ := ih (attempt + 1) next kept
      rw [round]
      rcases slept with ⟨rfl, same⟩ | ⟨stays, rfl, length, rfl⟩
      · rcases same with rfl | rfl
        · exact ⟨after, delays⟩
        · exact ⟨fun _ member => absurd member List.not_mem_nil, rfl⟩
      · constructor
        · intro s member
          rcases List.mem_cons.mp member with rfl | member
          · exact stays
          · exact after s member
        · simp only [Invocation.after, List.singleton_append, List.map_cons, List.length_cons, delays,
            List.range_succ_eq_map, List.map_map]
          rfl

theorem failures_le (outcome : Nat → Option CallError) (n : Nat) : failures dial outcome n ≤ n := by
  have bound := List.countP_le_length (p := fun i => ¬ Followed dial (outcome i)) (l := List.range n)
  rwa [List.length_range] at bound

theorem failures_eq_iff (outcome : Nat → Option CallError) (n : Nat) :
    failures dial outcome n = n ↔ ∀ i < n, ¬ Followed dial (outcome i) := by
  have every := List.countP_eq_length (p := fun i => ¬ Followed dial (outcome i)) (l := List.range n)
  rw [List.length_range] at every
  rw [failures, every]
  simp

end

theorem invokeCall_backoff (p : BackoffPolicy) (dial : String → Option GoError)
    (outcome : Nat → Option CallError) (jitter : Nat → Duration) {c : LeaderCache} (connected : c.conn.isSome) :
    BackoffKept p dial outcome (p.invokeCall (live dial outcome jitter) c).sleeps := by
  obtain ⟨stays, delays⟩ := invokeLoop_sleeps p dial jitter p.maxAttempts.toNat 0 p.base connected
  exact ⟨stays, delays⟩

/-- What `Invoke` returns and how often it calls is what is meant exactly if one of the first
    `MaxAttempts` answers is final or none of them is a redirect: a redirect uses up an attempt,
    but no sleep. -/
theorem redirects_free_iff (p : BackoffPolicy) (positive : 1 ≤ p.maxAttempts) (dial : String → Option GoError)
    (outcome : Nat → Option CallError) (jitter : Nat → Duration) {c : LeaderCache}
    (connected : c.conn.isSome) :
    (Intended p.maxAttempts dial outcome (p.invokeCall (live dial outcome jitter) c).result
        (p.invokeCall (live dial outcome jitter) c).calls.length ∧
      BackoffKept p dial outcome (p.invokeCall (live dial outcome jitter) c).sleeps) ↔
    (∃ i : Nat, i < p.maxAttempts ∧ Final (outcome i)) ∨
      ∀ i : Nat, i < p.maxAttempts → ¬ Followed dial (outcome i) := by
  obtain ⟨rounds, count⟩ : ∃ rounds : Nat, p.maxAttempts = rounds := ⟨_, (Int.toNat_of_nonneg (by omega)).symm⟩
  have turns : p.maxAttempts.toNat = rounds := by omega
  by_cases decided : ∃ i : Nat, i < rounds ∧ Final (outcome i)
  · -- the first final answer comes in time, whatever came before it
    obtain ⟨n, ⟨inTime, final⟩, first⟩ : ∃ n, (n < rounds ∧ Final (outcome n)) ∧
        ∀ i < n, ¬ (i < rounds ∧ Final (outcome i)) :=
      ⟨Nat.find decided, Nat.find_spec decided, fun i before => Nat.find_min decided before⟩
    have undecided : ∀ i < n, ¬ Final (outcome i) := fun i before ends => first i before ⟨by omega, ends⟩
    have few := failures_le dial outcome n
    have start : ∀ i, 0 ≤ i → i < n → ¬ Final (outcome i) := fun i _ => undecided i
    obtain ⟨result, calls⟩ :=
      invokeLoop_decided p dial jitter rounds start (Nat.zero_le n) (by omega) final p.base connected
    constructor
    · exact fun _ => .inl ⟨n, by omega, final⟩
    · intro _
      refine ⟨?_, invokeCall_backoff p dial outcome jitter connected⟩
      rw [BackoffPolicy.invokeCall, turns, result, calls]
      exact .final undecided (by omega) final
  · have undecided : ∀ i < rounds, ¬ Final (outcome i) := fun i before ends => decided ⟨i, before, ends⟩
    have start : ∀ i, 0 ≤ i → i < 0 + rounds → ¬ Final (outcome i) := fun i _ before => undecided i (by omega)
    obtain ⟨result, calls⟩ := invokeLoop_undecided p dial jitter rounds start p.base connected
    have every := failures_eq_iff dial outcome rounds
    have backoff := invokeCall_backoff p dial outcome jitter connected
    rw [BackoffPolicy.invokeCall, turns] at backoff ⊢
    rw [result, calls]
    constructor
    · intro meant
      refine .inr fun i before => every.mp ?_ i (by omega)
      generalize given : some (attemptsExhausted p.maxAttempts) = answer at meant
      cases meant.1 with
      | final _ _ ends => exact absurd ends (undecided _ (Nat.lt_succ_self _))
      | exhausted _ _ used => omega
    · intro condition
      rcases condition with ⟨i, before, ends⟩ | unredirected
      · exact absurd ends (undecided i (by omega))
      · have used := every.mpr fun i before => unredirected i (by omega)
        refine ⟨.exhausted undecided ?_ (by omega), backoff⟩
        intro i before
        have few := failures_le dial outcome i
        omega

def redirected : Nat → Option CallError
  | 0 => some (.status ⟨.failedPrecondition, "not leader", some "10.0.0.2:50050"⟩)
  | _ => none

def twoAttempts : BackoffPolicy := ⟨⟨2⟩, 100000000, 5000000000, 2⟩

def oneAttempt : BackoffPolicy := ⟨⟨1⟩, 100000000, 5000000000, 2⟩

def atFollower : LeaderCache := ⟨"10.0.0.1:50050", ["10.0.0.1:50050"], 0, some "10.0.0.1:50050"⟩

theorem redirects_free_iff_spare :
    Intended 2 (fun _ => none) redirected
      (twoAttempts.invokeCall (live (fun _ => none) redirected fun _ => 0) atFollower).result
      (twoAttempts.invokeCall (live (fun _ => none) redirected fun _ => 0) atFollower).calls.length := by
  have condition : ∃ i : Nat, i < twoAttempts.maxAttempts ∧ Final (redirected i) := ⟨1, by decide, trivial⟩
  exact ((redirects_free_iff twoAttempts (by decide) (fun _ => none) redirected (fun _ => 0) rfl).mpr
    (.inl condition)).1

theorem redirect_uses_attempt :
    (oneAttempt.invokeCall (live (fun _ => none) redirected fun _ => 0) atFollower).result =
      some (.new "leaderclient: RPC failed after 1 attempts") ∧
    (oneAttempt.invokeCall (live (fun _ => none) redirected fun _ => 0) atFollower).calls.length = 1 ∧
    ¬ Intended 1 (fun _ => none) redirected
      (oneAttempt.invokeCall (live (fun _ => none) redirected fun _ => 0) atFollower).result
      (oneAttempt.invokeCall (live (fun _ => none) redirected fun _ => 0) atFollower).calls.length := by
  have result : (oneAttempt.invokeCall (live (fun _ => none) redirected fun _ => 0) atFollower).result =
      some (.new "leaderclient: RPC failed after 1 attempts") := by decide
  have calls : (oneAttempt.invokeCall (live (fun _ => none) redirected fun _ => 0) atFollower).calls.length = 1 := by
    decide
  refine ⟨result, calls, ?_⟩
  rw [calls]
  generalize (oneAttempt.invokeCall (live (fun _ => none) redirected fun _ => 0) atFollower).result = answer
  intro meant
  cases meant with
  | final _ _ ends => exact absurd ends (by decide)
  | exhausted _ _ used => exact absurd used (by decide)

end DistributedFs.Internal
