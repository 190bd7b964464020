import Hubblenet.Lib.Search
import Hubblenet.Lib.Slice
import Hubblenet.Lib.Go
import Hubblenet.Orderbook.Types
import Hubblenet.Lib.Heap
import Hubblenet.Orderbook.MarginMath
import Hubblenet.Orderbook.MemoryDb
import Hubblenet.Orderbook.Invariant
import Hubblenet.Orderbook.Events
import Hubblenet.Orderbook.Snapshot
import Hubblenet.Lib.Loop
import Hubblenet.Precompile.Bibliophile
import Hubblenet.Precompile.Ticks
import Hubblenet.Lib.Abi
import Hubblenet.Lib.Json
import Hubblenet.Orderbook.Codec
import Hubblenet.Precompile.MatchingValidation
import Hubblenet.Precompile.JurorV2
import Hubblenet.Precompile.Juror
import Hubblenet.Evm.LimitOrder
import Hubblenet.Orderbook.Funding
import Hubblenet.Orderbook.TempMatching
import Hubblenet.Orderbook.Liquidation
import Hubblenet.Orderbook.MatchingPipeline
import Hubblenet.Orderbook.Pipeline
import Hubblenet.Orderbook.HubbleMath
import Hubblenet.Precompile.MarginAccount
import Hubblenet.Orderbook.MarginView
import Hubblenet.Orderbook.TradingApi
import Hubblenet.Orderbook.VirtualReserved
import Hubblenet.Orderbook.Reads
import Hubblenet.Orderbook.Cancel
import Hubblenet.Orderbook.ImpactPrice
import Hubblenet.Orderbook.AcceptedEvents
import Hubblenet.Orderbook.Interleaving
import Hubblenet.Lib.MapRange
import Hubblenet.Orderbook.Depth
import Hubblenet.Precompile.LimitOrders
import Hubblenet.Orderbook.Reorg
