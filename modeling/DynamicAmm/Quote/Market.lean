import DynamicAmm.Proof.Quote.Product

/-!
# A market of quoted swaps

Traders swap against one pool in any order, each at what `compute_quote` says for the accounts as they are.
A swap that is refused leaves the accounts alone. In between time passes, and the stake accounts that a
depeg price is read from change. The ledger keeps what all traders together paid and received.
-/

namespace DynamicAmm.Quote

open Rust Program

structure Ledger where
  paidA : Nat
  paidB : Nat
  receivedA : Nat
  receivedB : Nat
  protocolFeeA : Nat
  protocolFeeB : Nat
  deriving DecidableEq, Repr

def Ledger.empty : Ledger := ⟨0, 0, 0, 0, 0, 0⟩

def Ledger.record (ledger : Ledger) (inAmount protocolFee outAmount : Nat) : TradeDirection → Ledger
  | .aToB =>
      { ledger with
        paidA := ledger.paidA + inAmount
        protocolFeeA := ledger.protocolFeeA + protocolFee
        receivedB := ledger.receivedB + outAmount }
  | .bToA =>
      { ledger with
        paidB := ledger.paidB + inAmount
        protocolFeeB := ledger.protocolFeeB + protocolFee
        receivedA := ledger.receivedA + outAmount }

/-- The tokens of a swap go into the reserve of one vault and come out of that of the other. -/
def QuoteData.moveTokens (quoteData : QuoteData) (steps : QuoteSteps) : TradeDirection → Option QuoteData
  | .aToB => do
      let inReserve ← checkedAdd quoteData.vaultAToken.amount steps.inAmountAfterProtocolFee
      let outReserve ← checkedSub quoteData.vaultBToken.amount steps.result.outAmount
      some { quoteData with vaultAToken := ⟨inReserve⟩, vaultBToken := ⟨outReserve⟩ }
  | .bToA => do
      let inReserve ← checkedAdd quoteData.vaultBToken.amount steps.inAmountAfterProtocolFee
      let outReserve ← checkedSub quoteData.vaultAToken.amount steps.result.outAmount
      some { quoteData with vaultAToken := ⟨outReserve⟩, vaultBToken := ⟨inReserve⟩ }

variable (accounts : StakeAccounts) (libraries : CurveLibraries)

def QuoteData.swap (quoteData : QuoteData) (inTokenMint : Pubkey) (inAmount : UInt64) :
    Option (QuoteData × QuoteSteps) :=
  match computeQuoteSteps accounts libraries inTokenMint inAmount quoteData with
  | .ok steps => do
      let swapped ← quoteData.execute inTokenMint steps
      let moved ← swapped.moveTokens steps (quoteData.directionOf inTokenMint)
      let pool := (updateBaseVirtualPrice accounts quoteData.pool quoteData.clock quoteData.stakeData).2
      some ({ moved with pool }, steps)
  | _ => none

structure Market where
  quoteData : QuoteData
  ledger : Ledger

inductive Event where
  | swap (inTokenMint : Pubkey) (inAmount : UInt64)
  | wait (clock : Clock) (stakeData : StakeData)

def Event.IsSwap : Event → Prop
  | .swap _ _ => True
  | .wait _ _ => False

instance : DecidablePred Event.IsSwap
  | .swap _ _ => isTrue trivial
  | .wait _ _ => isFalse id

def Market.step (market : Market) : Event → Market
  | .swap inTokenMint inAmount =>
      match market.quoteData.swap accounts libraries inTokenMint inAmount with
      | some (quoteData, steps) =>
          { quoteData
            ledger := market.ledger.record inAmount.toNat steps.protocolFee.toNat steps.result.outAmount.toNat
              (market.quoteData.directionOf inTokenMint) }
      | none => market
  | .wait clock stakeData =>
      -- The clock never runs backwards.
      if market.quoteData.clock.unixTimestamp ≤ clock.unixTimestamp then
        { market with quoteData := { market.quoteData with clock, stakeData } }
      else market

def Market.run (market : Market) (events : List Event) : Market :=
  events.foldl (Market.step accounts libraries) market

def QuoteData.open (quoteData : QuoteData) : Market := ⟨quoteData, .empty⟩

end DynamicAmm.Quote
