import DynamicAmm.Client.State

/-!
# The constant product curve of the client

A port of the SPL token swap onto `BN`. The price impact is a quotient of decimals; it is the exact
quotient here, and `none` stands for the `NaN` or infinity that a zero divisor gives.
-/

namespace DynamicAmm.Client

open Js

structure OutResult where
  outAmount : Int
  priceImpact : Option ℚ
  deriving DecidableEq

def getPriceImpact (amount amountWithoutSlippage : Int) : Option ℚ :=
  let diff := amountWithoutSlippage - amount
  if amountWithoutSlippage = 0 then none else some ((diff : ℚ) / amountWithoutSlippage)

/-- The quotient rounded up, and the divisor lowered to the least one with that quotient. -/
def ceilDiv (lhs rhs : Int) : Throwing (Int × Int) := do
  let quotient ← BN.div lhs rhs
  -- Avoid dividing a small number by a big one and returning 1, and instead fail.
  if quotient = 0 then throw "ceilDiv result in zero"
  let remainder ← BN.mod lhs rhs
  if remainder > 0 then
    let quotient := quotient + 1
    let rhs ← BN.div lhs quotient
    let remainder ← BN.mod lhs quotient
    pure (quotient, if remainder > 0 then rhs + 1 else rhs)
  else
    pure (quotient, rhs)

namespace ConstantProductSwap

def computeOutAmountWithoutSlippage (sourceAmount swapSourceAmount swapDestinationAmount : Int) :
    Throwing Int :=
  BN.div (sourceAmount * swapDestinationAmount) swapSourceAmount

def computeOutAmount (sourceAmount swapSourceAmount swapDestinationAmount : Int) : Throwing OutResult := do
  let invariant := swapSourceAmount * swapDestinationAmount
  let (newSwapDestinationAmount, _) ← ceilDiv invariant (swapSourceAmount + sourceAmount)
  let destinationAmountSwapped := swapDestinationAmount - newSwapDestinationAmount
  if destinationAmountSwapped = 0 then throw "Swap result in zero"
  let destinationAmountWithoutSlippage ←
    computeOutAmountWithoutSlippage sourceAmount swapSourceAmount swapDestinationAmount
  pure {
    outAmount := destinationAmountSwapped
    priceImpact := getPriceImpact destinationAmountSwapped destinationAmountWithoutSlippage }

def computeInAmount (destAmount swapSourceAmount swapDestinationAmount : Int) : Throwing Int := do
  let invariant := swapSourceAmount * swapDestinationAmount
  let (newSwapSourceAmount, _) ← ceilDiv invariant (swapDestinationAmount - destAmount)
  let sourceAmount := newSwapSourceAmount - swapSourceAmount
  if sourceAmount = 0 then throw "Swap result in zero"
  pure sourceAmount

end ConstantProductSwap

end DynamicAmm.Client
