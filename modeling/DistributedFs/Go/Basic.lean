import Mathlib.Algebra.Order.Ring.Int
import Mathlib.Order.Lattice

namespace Go

/-- A Go `error` value: `errors.New` text, or two errors under `errors.Join`. -/
inductive GoError where
  | new (text : String)
  | join (first second : GoError)
deriving DecidableEq, Repr

def GoError.text : GoError → String
  | .new text => text
  | .join first second => first.text ++ "\n" ++ second.text

/-- `time.Time` as nanoseconds after the zero `Time`, so `0` is `time.Time{}`. -/
abbrev Time := Int

abbrev Duration := Int

def maxDuration : Duration := 2 ^ 63 - 1
def minDuration : Duration := -2 ^ 63

/-- `t.Sub(u)`, which saturates instead of overflowing. -/
def Time.sub (t u : Time) : Duration := max minDuration (min maxDuration (t - u))

theorem bind_eq_ok {ε α β : Type} {x : Except ε α} {f : α → Except ε β} {r : β}
    (ran : x >>= f = .ok r) : ∃ a, x = .ok a ∧ f a = .ok r := by
  cases x with
  | error err => cases ran
  | ok a => exact ⟨a, rfl, ran⟩

theorem ok_of_mapError {ε δ α : Type} {x : Except ε α} {f : ε → δ} {a : α} (same : x.mapError f = .ok a) :
    x = .ok a := by
  cases x with
  | error err => cases same
  | ok value =>
    cases same
    rfl

end Go
