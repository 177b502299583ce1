import DistributedFs.Server.Rpc

namespace DistributedFs.Internal

open Go Server

structure Policy where
  maxAttempts : Int

/-- What the context of a retry loop does: its state at the start of each attempt, and whether it
    ends the sleep after one. -/
structure Waits where
  ctxErr : Nat → Option GoError
  asleep : Nat → Option GoError

def exhausted : Option GoError → GoError
  | none => .new "all retry attempts exhausted"
  | some lastErr => .join (.new "all retry attempts exhausted") lastErr

/-- The error of a unary call: a status, or an error that `status.FromError` does not know. -/
inductive CallError where
  | status (err : RpcError)
  | plain (err : GoError)
deriving DecidableEq

def CallError.err : CallError → GoError
  | status err => .new err.text
  | plain err => err

def isRetryableCode : Code → Bool
  | .unavailable | .deadlineExceeded | .aborted | .failedPrecondition => true
  | _ => false

def CallError.redirects : CallError → Bool
  | status err => err.code = .failedPrecondition ∧ err.leaderGrpcAddr.isSome
  | plain _ => false

def CallError.retryable : CallError → Bool
  | status err => isRetryableCode err.code
  | plain _ => true

/-- What one round of `Invoke` meets besides the call: the context, the connection of the leader
    cache, whether the cache takes the address of a redirect, and the end of the sleep. -/
structure Round where
  ctxErr : Option GoError
  connected : Bool
  updated : Bool
  asleep : Option GoError

section

variable {σ : Type}

/-- The loop of `Policy.Do` with `left` attempts to go; the operation of each attempt runs on the
    state that the attempts before it left. -/
def attempts (waits : Waits) (fn : Nat → σ → Option GoError × σ) :
    Nat → Nat → Option GoError → σ → Option GoError × σ
  | 0, _, lastErr, s => (some (exhausted lastErr), s)
  | left + 1, attempt, _, s =>
    match waits.ctxErr attempt with
    | some err => (some err, s)
    | none =>
      match fn attempt s with
      | (none, s) => (none, s)
      | (some lastErr, s) =>
        if left = 0 then (some (exhausted (some lastErr)), s)
        else
          match waits.asleep attempt with
          | some err => (some err, s)
          | none => attempts waits fn left (attempt + 1) (some lastErr) s

def Policy.do_ (p : Policy) (waits : Waits) (fn : Nat → σ → Option GoError × σ) (s : σ) :
    Option GoError × σ :=
  attempts waits fn p.maxAttempts.toNat 0 none s

def attemptsExhausted (maxAttempts : Int) : GoError :=
  .new ("leaderclient: RPC failed after " ++ maxAttempts.repr ++ " attempts")

def rounds (maxAttempts : Int) (met : Nat → Round) (call : Nat → σ → Option CallError × σ) :
    Nat → Nat → σ → Option GoError × σ
  | 0, _, s => (some (attemptsExhausted maxAttempts), s)
  | left + 1, attempt, s =>
    match (met attempt).ctxErr with
    | some err => (some err, s)
    | none =>
      if (met attempt).connected = false then
        (some (.new "leaderclient: no metadata connection available"), s)
      else
        match call attempt s with
        | (none, s) => (none, s)
        | (some err, s) =>
          if err.redirects ∧ (met attempt).updated then
            rounds maxAttempts met call left (attempt + 1) s
          else if err.retryable = false then (some err.err, s)
          else
            -- the last round does not sleep
            match if left = 0 then none else (met attempt).asleep with
            | some err => (some err, s)
            | none => rounds maxAttempts met call left (attempt + 1) s

def Policy.invoke (p : Policy) (met : Nat → Round) (call : Nat → σ → Option CallError × σ) (s : σ) :
    Option GoError × σ :=
  rounds p.maxAttempts met call p.maxAttempts.toNat 0 s

structure Keeps {ε : Type} (Inv Done : σ → Prop) (result : Option ε × σ) : Prop where
  kept : Inv result.2
  done : result.1 = none → Done result.2

variable {Inv Done : σ → Prop}

theorem Keeps.failed {ε : Type} {s : σ} (kept : Inv s) (err : ε) : Keeps Inv Done (some err, s) where
  kept := kept
  done := nofun

theorem Keeps.seen {ε δ : Type} {result : Option ε × σ} (keeps : Keeps Inv Done result)
    {answer : Option δ} (honest : answer = none → result.1 = none) :
    Keeps Inv Done (answer, result.2) where
  kept := keeps.kept
  done nil := keeps.done (honest nil)

theorem attempts_keeps {waits : Waits} {fn : Nat → σ → Option GoError × σ}
    (step : ∀ k s, Inv s → Keeps Inv Done (fn k s)) (left attempt : Nat) (lastErr : Option GoError)
    {s : σ} (start : Inv s) : Keeps Inv Done (attempts waits fn left attempt lastErr s) := by
  induction left generalizing attempt lastErr s with
  | zero => exact .failed start _
  | succ left ih =>
    have turn := step attempt s start
    unfold attempts
    cases waits.ctxErr attempt with
    | some err => exact .failed start err
    | none =>
      generalize fn attempt s = result at turn
      obtain ⟨answer, later⟩ := result
      cases answer with
      | none => exact turn
      | some lastErr =>
        dsimp only
        split
        · exact .failed turn.kept _
        · cases waits.asleep attempt with
          | some err => exact .failed turn.kept err
          | none => exact ih (attempt + 1) (some lastErr) turn.kept

theorem rounds_keeps {maxAttempts : Int} {met : Nat → Round} {call : Nat → σ → Option CallError × σ}
    (step : ∀ k s, Inv s → Keeps Inv Done (call k s)) (left attempt : Nat) {s : σ} (start : Inv s) :
    Keeps Inv Done (rounds maxAttempts met call left attempt s) := by
  induction left generalizing attempt s with
  | zero => exact .failed start _
  | succ left ih =>
    have turn := step attempt s start
    unfold rounds
    cases (met attempt).ctxErr with
    | some err => exact .failed start err
    | none =>
      dsimp only
      split
      · exact .failed start _
      · generalize call attempt s = result at turn
        obtain ⟨answer, later⟩ := result
        cases answer with
        | none => exact ⟨turn.kept, fun _ => turn.done rfl⟩
        | some err =>
          dsimp only
          split
          · exact ih (attempt + 1) turn.kept
          · split
            · exact .failed turn.kept _
            · split
              · exact .failed turn.kept _
              · exact ih (attempt + 1) turn.kept

theorem Policy.do_keeps (p : Policy) {waits : Waits} {fn : Nat → σ → Option GoError × σ}
    (step : ∀ k s, Inv s → Keeps Inv Done (fn k s)) {s : σ} (start : Inv s) :
    Keeps Inv Done (p.do_ waits fn s) :=
  attempts_keeps step _ 0 none start

theorem Policy.invoke_keeps (p : Policy) {met : Nat → Round} {call : Nat → σ → Option CallError × σ}
    (step : ∀ k s, Inv s → Keeps Inv Done (call k s)) {s : σ} (start : Inv s) :
    Keeps Inv Done (p.invoke met call s) :=
  rounds_keeps step _ 0 start

end

end DistributedFs.Internal
