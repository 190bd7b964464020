import Hubblenet.Lib.Go

/-!
# Orders and the records of the order book

The data of `hubbleutils` (`BaseOrder`, `LimitOrder`, `IOCOrder`, `SignedOrder`: the orders as the order-book
contracts and the precompiles see them) and of the validator's `orderbook` package (`Order`, its `Lifecycle`
stack, the `Trader` records). A `*big.Int` is an `Int`, a `uint64` a `Nat`, a `common.Hash` or
`common.Address` the number its bytes spell; Go's struct embedding is `extends`.

The `Order` methods read a record: its unfilled quantity, the top of its lifecycle stack (`getOrderStatus`,
which panics on an empty stack), the expiry of its raw order (`getExpireAt`, a type assertion that panics when
the raw order is not of the order's type) and whether it is post-only (`isPostOnly`).
-/

namespace Hubblenet

open Go

/-- `common.Hash`: 32 bytes, as the number they spell. -/
abbrev Hash := Nat

/-- `common.Address`: 20 bytes, as the number they spell. -/
abbrev Address := Nat

/-- `hu.Market = int`. -/
abbrev Market := Int

/-- `hu.OrderType`, a `uint8` enumeration. -/
inductive OrderType where
  | limit
  | ioc
  | signed
  deriving DecidableEq, Repr, Inhabited

/-- The `uint8` of an order type: `Limit = 0`, `IOC = 1`, `Signed = 2`. -/
def OrderType.code : OrderType → Nat
  | .limit => 0
  | .ioc => 1
  | .signed => 2

/-- The order type a `uint8` names, if any. -/
def OrderType.ofCode? : Nat → Option OrderType
  | 0 => some .limit
  | 1 => some .ioc
  | 2 => some .signed
  | _ => none

/-- `hu.BaseOrder`: the fields every order carries. -/
structure BaseOrder where
  ammIndex : Int
  trader : Address
  baseAssetQuantity : Int
  price : Int
  salt : Int
  reduceOnly : Bool
  deriving DecidableEq, Repr, Inhabited

/-- `hu.LimitOrder`, the `Order` struct of the `LimitOrderBook` contract. -/
structure LimitOrder extends BaseOrder where
  postOnly : Bool
  deriving DecidableEq, Repr, Inhabited

/-- `hu.IOCOrder`, the `IOCOrder` struct of the `IOCOrderBook` contract. -/
structure IOCOrder extends BaseOrder where
  orderType : Nat
  expireAt : Int
  deriving DecidableEq, Repr, Inhabited

/-- `hu.SignedOrder`: a post-only order signed off chain, with its signature. -/
structure SignedOrder extends LimitOrder where
  orderType : Nat
  expireAt : Int
  sig : List UInt8
  deriving DecidableEq, Repr, Inhabited

/-- `orderbook.PositionType`. -/
inductive PositionType where
  | long
  | short
  deriving DecidableEq, Repr, Inhabited

/-- `orderbook.Status`, the entries of an order's lifecycle stack. -/
inductive Status where
  | placed
  | fulFilled
  | cancelled
  | executionFailed
  deriving DecidableEq, Repr, Inhabited

/-- `orderbook.Lifecycle`: a status, the block that set it and a note. -/
structure Lifecycle where
  blockNumber : Nat
  status : Status
  info : String
  deriving DecidableEq, Repr, Inhabited

/-- `orderbook.ContractOrder`: the dynamic value behind `Order.RawOrder`. -/
inductive ContractOrder where
  | limit (o : LimitOrder)
  | ioc (o : IOCOrder)
  | signed (o : SignedOrder)
  deriving DecidableEq, Repr, Inhabited

/-- `orderbook.Order`, the validator's record of an order. -/
structure Order where
  id : Hash
  market : Market
  positionType : PositionType
  trader : Address
  baseAssetQuantity : Int
  filledBaseAssetQuantity : Int
  salt : Int
  price : Int
  reduceOnly : Bool
  lifecycleList : List Lifecycle
  /-- the block the order was placed in -/
  blockNumber : Int
  rawOrder : ContractOrder
  orderType : OrderType
  deriving DecidableEq, Repr, Inhabited

namespace Order

/-- `GetUnFilledBaseAssetQuantity`. -/
def getUnFilledBaseAssetQuantity (o : Order) : Int := o.baseAssetQuantity - o.filledBaseAssetQuantity

/-- `getOrderStatus`: the last lifecycle entry; indexing an empty stack panics. -/
def getOrderStatus (o : Order) : Except Panic Lifecycle :=
  match o.lifecycleList.getLast? with
  | some l => .ok l
  | none => .error .indexOutOfRange

/-- `getExpireAt`: the expiry of an IOC or signed order, `0` for a limit order. -/
def getExpireAt (o : Order) : Except Panic Int :=
  if o.orderType = .ioc then
    match o.rawOrder with
    | .ioc r => .ok r.expireAt
    | _ => .error .typeAssertion
  else if o.orderType = .signed then
    match o.rawOrder with
    | .signed r => .ok r.expireAt
    | _ => .error .typeAssertion
  else .ok 0

/-- `isPostOnly`: the post-only flag of a limit or signed raw order, checked assertions only. -/
def isPostOnly (o : Order) : Bool :=
  match o.orderType, o.rawOrder with
  | .limit, .limit r => r.postOnly
  | .signed, .signed r => r.postOnly
  | _, _ => false

end Order

/-- `orderbook.Position`; every `*big.Int` of it may be nil. -/
structure Position where
  openNotional : Option Int
  size : Option Int
  unrealisedFunding : Option Int
  lastPremiumFraction : Option Int
  liquidationThreshold : Option Int
  deriving DecidableEq, Repr, Inhabited

/-- `orderbook.Margin`. -/
structure Margin where
  available : Int
  deposited : GoMap Int Int
  reserved : Int
  virtualReserved : Int

/-- `orderbook.Trader`. -/
structure Trader where
  positions : GoMap Market Position
  margin : Margin

/-- `getBlankTrader`: no positions, zero margins, collateral `0` deposited at zero. -/
def getBlankTrader : Trader where
  positions := ∅
  margin :=
    { available := 0
      deposited := AList.singleton 0 0
      reserved := 0
      virtualReserved := 0 }

end Hubblenet
