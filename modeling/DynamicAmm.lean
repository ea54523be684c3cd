import DynamicAmm.Base.Base64
import DynamicAmm.Base.BoundedLoop
import DynamicAmm.Base.Brackets
import DynamicAmm.Base.Seeds
import DynamicAmm.Base.Codec
import DynamicAmm.Base.Convergence
import DynamicAmm.Base.ShareVault
import DynamicAmm.Base.ShareValue
import DynamicAmm.Base.Exchange
import DynamicAmm.Base.Footprint
import DynamicAmm.Base.IndexSearch
import DynamicAmm.Base.NestedShare
import DynamicAmm.Base.Pattern
import DynamicAmm.Base.ProductCurve
import DynamicAmm.Base.PooledSwap
import DynamicAmm.Base.QuadraticNewton
import DynamicAmm.Base.Schema
import DynamicAmm.Base.StableCurve
import DynamicAmm.Base.StableCone
import DynamicAmm.Base.StableStep
import DynamicAmm.Base.StableSettling
import DynamicAmm.Base.StableImbalance
import DynamicAmm.Base.StableExit
import DynamicAmm.Base.StableTracking
import DynamicAmm.Rust.Checked
import DynamicAmm.Program.Amm
import DynamicAmm.Program.Accounts
import DynamicAmm.Program.Address
import DynamicAmm.Program.Vault
import DynamicAmm.Quote.Depeg
import DynamicAmm.Quote.SwapCurve
import DynamicAmm.Quote.ComputeQuote
import DynamicAmm.Quote.Market
import DynamicAmm.RustClient.EventLog
import DynamicAmm.RustClient.ExecutionTrace
import DynamicAmm.Js.Call
import DynamicAmm.Js.Keeps
import DynamicAmm.Js.Map
import DynamicAmm.Client.State
import DynamicAmm.Client.Address
import DynamicAmm.Client.Calculator
import DynamicAmm.Client.ConstantProduct
import DynamicAmm.Client.CreateConfig
import DynamicAmm.Client.Decode
import DynamicAmm.Client.StableSwap
import DynamicAmm.Client.SwapQuote
import DynamicAmm.Client.Liquidity
import DynamicAmm.Client.Loading
import DynamicAmm.Client.Idl
import DynamicAmm.Client.LockEscrow
import DynamicAmm.Client.MaxSwap
import DynamicAmm.Client.MemecoinQuote
import DynamicAmm.Client.Search
import DynamicAmm.Client.Transactions
import DynamicAmm.Client.Updates
import DynamicAmm.Proof.Quote.Settled
import DynamicAmm.Proof.Quote.Backing
import DynamicAmm.Proof.Quote.Product
import DynamicAmm.Proof.Quote.Fee
import DynamicAmm.Proof.Quote.Unlocking
import DynamicAmm.Proof.Quote.Market
import DynamicAmm.Proof.Quote.Pooled
import DynamicAmm.Proof.Quote.Order
import DynamicAmm.Proof.Quote.Panic
import DynamicAmm.Proof.Quote.StableScaling
import DynamicAmm.Proof.Curve.Operations
import DynamicAmm.Proof.Curve.Solvers
import DynamicAmm.Proof.Curve.Swaps
import DynamicAmm.Proof.Curve.Bracket
import DynamicAmm.Proof.Curve.Accuracy
import DynamicAmm.Proof.Curve.Balance
import DynamicAmm.Proof.Curve.Monotone
import DynamicAmm.Proof.Curve.Mint
import DynamicAmm.Proof.Curve.RoundTrip
import DynamicAmm.Proof.Curve.Scaling
import DynamicAmm.Proof.Curve.Runs
import DynamicAmm.Proof.Curve.SpotPrice
import DynamicAmm.Proof.Curve.Tracking
import DynamicAmm.Proof.Client.Accounts
import DynamicAmm.Proof.Client.Quote
import DynamicAmm.Proof.Client.DepegCache
import DynamicAmm.Proof.Client.Liquidity
import DynamicAmm.Proof.Client.BalancedDeposit
import DynamicAmm.Proof.Client.ConstantProduct
import DynamicAmm.Proof.Client.BestPayout
import DynamicAmm.Proof.Client.Conversions
import DynamicAmm.Proof.Client.ClosedForm
import DynamicAmm.Proof.Client.ConfigParameters
import DynamicAmm.Proof.Client.CreateConfig
import DynamicAmm.Proof.Client.DepositWithdraw
import DynamicAmm.Proof.Client.Loading
import DynamicAmm.Proof.Client.LockEscrow
import DynamicAmm.Proof.Client.Payable
import DynamicAmm.Proof.Client.Pooled
import DynamicAmm.Proof.Client.MaxSwap
import DynamicAmm.Proof.Client.MemecoinVault
import DynamicAmm.Proof.Client.MemecoinAgreement
import DynamicAmm.Proof.Client.MemecoinFrame
import DynamicAmm.Proof.Client.Search
import DynamicAmm.Proof.Client.Transactions
import DynamicAmm.Proof.Client.Signatures
import DynamicAmm.Proof.Client.TransactionRuns
import DynamicAmm.Proof.Client.Updates
import DynamicAmm.Proof.Log.Lines
import DynamicAmm.Proof.Log.Attribution
import DynamicAmm.Proof.Log.Malformed
import DynamicAmm.Proof.Address
import DynamicAmm.Proof.Agreement
import DynamicAmm.Proof.Deposit
import DynamicAmm.Proof.DepositAmount
import DynamicAmm.Proof.Fees
import DynamicAmm.Proof.Refresh
