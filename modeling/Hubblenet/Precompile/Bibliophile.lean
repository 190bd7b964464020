import Hubblenet.Orderbook.Types

/-!
# What the precompiles read of the EVM state

`bibliophile.BibliophileClient` is the interface through which the precompiles read the storage of the Hubble
contracts. Its implementation reads fixed slots of the contract at the address it is given; nothing checks that
the address is a registered market, so every read may return anything a contract can store there. The model
is the record of the methods the modelled precompiles call, each a function of its arguments; a storage word
read with `.Big()` is an `Int` (a real one is in `[0, 2^256)`), an `int64` status is an `Int`.

`GetNotionalPositionAndMargin` and `GetAvailableMargin` are not methods of this record: they are computed from the
contracts' storage in `Precompile.MarginAccount` (`Bibliophile.getNotionalPositionAndMargin`). Left out: the
margin-account, fee and margin-fraction reads of the placement checks, and `GetAccessibleState` except for the chain
id of `validateExecuteSignedOrder`.
-/

namespace Hubblenet

/-- `bibliophile.BibliophileClient`, the methods the modelled precompiles call. -/
structure BibliophileClient where
  -- clearing house and positions
  getMarketAddressFromMarketID : Int → Address
  getSize : Address → Address → Int
  -- the order handlers' records of limit, IOC and signed orders
  getBlockPlaced : Hash → Int
  getOrderFilledAmount : Hash → Int
  getOrderStatus : Hash → Int
  iOC_GetBlockPlaced : Hash → Int
  iOC_GetOrderFilledAmount : Hash → Int
  iOC_GetOrderStatus : Hash → Int
  iOC_GetExpirationCap : Int
  getSignedOrderFilledAmount : Hash → Int
  getSignedOrderStatus : Hash → Int
  isTradingAuthority : Address → Address → Bool
  /-- the size of a trader's open reduce-only orders in a market -/
  getReduceOnlyAmount : Address → Int → Int
  hasReferrer : Address → Bool
  -- market parameters
  getMinSizeRequirement : Int → Int
  getPriceMultiplier : Address → Int
  /-- the oracle spread bounds `(upperBound, lowerBound)` of a market -/
  getUpperAndLowerBoundForMarket : Int → Int × Int
  /-- the liquidation bounds `(upperBound, lowerBound)` of a market -/
  getAcceptableBoundsForLiquidation : Int → Int × Int
  getActiveMarketsCount : Int
  getTimeStamp : Nat
  -- the bids and asks lists of an AMM: their heads, and for each price the next one and the size at it
  getBidsHead : Address → Int
  getAsksHead : Address → Int
  getNextBidPrice : Address → Int → Int
  getNextAskPrice : Address → Int → Int
  getBidSize : Address → Int → Int
  getAskSize : Address → Int → Int
  getImpactMarginNotional : Address → Int
  /-- the chain id of the node's snow context, as the string `ids.ID.String` gives -/
  snowChainID : String
  deriving Inhabited

end Hubblenet
