import DynamicAmm.Base.BoundedLoop
import DynamicAmm.Js.Call

/-!
# The StableSwap solvers

Newton's method on `bigint`, twenty steps at most, for the invariant of two balances and for the balance
that goes with the other one under a given invariant. A loop keeps the current iterate and the one
before it, because the test compares the two.
-/

namespace DynamicAmm.Client

open Js BoundedLoop

def abs (a : Int) : Int := if a > 0 then a else -a

def maxIters : Nat := 20

structure Iterate where
  prev : Int
  cur : Int
  deriving DecidableEq, Repr

/-- The loop test: the last two iterates differ by more than one. -/
def Iterate.moving (s : Iterate) : Bool := abs (s.cur - s.prev) > 1

def computeDStep (Ann amountA amountB : Int) (s : Iterate) : Throwing Iterate := do
  let d := s.cur
  let dP ← bigDiv (d * d) (amountA * 2)
  let dP ← bigDiv (dP * d) (amountB * 2)
  let dNumerator := d * (Ann * (amountA + amountB) + dP * 2)
  let dDenominator := d * (Ann - 1) + dP * (2 + 1)
  let next ← bigDiv dNumerator dDenominator
  pure ⟨d, next⟩

def computeD (ampFactor amountA amountB : Int) : Throwing Int := do
  let Ann := ampFactor * 2
  let S := amountA + amountB
  if S = 0 then pure 0
  else
    let s ← loopWhile Iterate.moving (computeDStep Ann amountA amountB) maxIters ⟨0, S⟩
    pure s.cur

def computeYStep (b c : Int) (s : Iterate) : Throwing Iterate := do
  let y := s.cur
  let next ← bigDiv (y * y + c) (2 * y + b)
  pure ⟨y, next⟩

def computeY (ampFactor x d : Int) : Throwing Int := do
  let Ann := ampFactor * 2
  let quotient ← bigDiv d Ann
  let b := x + quotient - d
  let c ← bigDiv (d * d * d) (2 * (2 * (x * Ann)))
  let s ← loopWhile Iterate.moving (computeYStep b c) maxIters ⟨0, d⟩
  pure s.cur

end DynamicAmm.Client
