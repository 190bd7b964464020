import Hubblenet.Orderbook.Events
import Hubblenet.Orderbook.Codec

/-!
# The temp matcher's decoders against the events processor

While it builds a block, `TempMatcher.GetMatchingTxs` plays the pending `placeOrders` transactions of
`LimitOrderBook` and `IOCOrderBook` into a copy of the order book. It decodes their call data itself
(`getLimitOrdersFromMethodData`, `getIOCOrdersFromMethodData`): the two share one loop, `getOrdersFromMethodData`,
and differ only in the order type they decode, its hash and the raw order they keep. Once the block is accepted
the events processor adds the same orders from their `OrderAccepted` logs (`limitOrderRecord`, `iocOrderRecord`).

`getOrdersFromMethodData_eq_ok` says what the loop returns: each order of the call data, in order, under its
hash, at the block being built. Against the logs (`methodDataOrders_eq_ok_iff`): a limit order is the record the
log gives, with the block number as the builder holds it; an IOC order is the log's record with its order type
`Limit` where the log gives `IOC`, because both decoders set `OrderType: Limit`. The log's block number is a
`uint64` cast to `int64`, so the two block numbers agree below `2 ^ 63`.
-/

namespace Hubblenet

open Go Lib Lib.Abi

/-- The `Order` the temp matcher builds from one decoded order: unfilled, no lifecycle yet, with the trader the
order names and the block number the builder passes. -/
def methodDataOrder (orderId : Hash) (order : BaseOrder) (rawOrder : ContractOrder) (orderType : OrderType)
    (blockNumber : Int) : Order where
  id := orderId
  market := toInt64 order.ammIndex
  positionType := getPositionTypeBasedOnBaseAssetQuantity order.baseAssetQuantity
  trader := order.trader
  baseAssetQuantity := order.baseAssetQuantity
  filledBaseAssetQuantity := 0
  salt := order.salt
  price := order.price
  reduceOnly := order.reduceOnly
  lifecycleList := []
  blockNumber := blockNumber
  rawOrder := rawOrder
  orderType := orderType

/-- The loop of `getLimitOrdersFromMethodData` and `getIOCOrdersFromMethodData`. `unpackOrders` is
`abiMethod.Inputs.Unpack` followed by the JSON round trip into the order type; the first error of it or of a hash
ends the call. -/
def getOrdersFromMethodData {α : Type} (unpackOrders : Bytes → Except String (List α))
    (hash : α → Except String Hash) (toBaseOrder : α → BaseOrder) (rawOrder : α → ContractOrder)
    (orderType : OrderType) (methodData : Bytes) (blockNumber : Int) : Except String (List Order) := do
  let orders ← unpackOrders methodData
  orders.mapM fun order => do
    let orderId ← hash order
    pure (methodDataOrder orderId (toBaseOrder order) (rawOrder order) orderType blockNumber)

/-- `getLimitOrdersFromMethodData`. -/
def getLimitOrdersFromMethodData (keccak256 : Bytes → Bytes)
    (unpackOrders : Bytes → Except String (List LimitOrder)) (methodData : Bytes) (blockNumber : Int) :
    Except String (List Order) :=
  getOrdersFromMethodData unpackOrders (LimitOrder.hash keccak256) LimitOrder.toBaseOrder .limit .limit methodData
    blockNumber

/-- `getIOCOrdersFromMethodData`: its orders are built with `OrderType: Limit`, as those of
`getLimitOrdersFromMethodData`. -/
def getIOCOrdersFromMethodData (keccak256 : Bytes → Bytes)
    (unpackOrders : Bytes → Except String (List IOCOrder)) (methodData : Bytes) (blockNumber : Int) :
    Except String (List Order) :=
  getOrdersFromMethodData unpackOrders (IOCOrder.hash keccak256) IOCOrder.toBaseOrder .ioc .limit methodData
    blockNumber

section MethodData

variable {α : Type} {unpackOrders : Bytes → Except String (List α)} {hash : α → Except String Hash}
  {toBaseOrder : α → BaseOrder} {rawOrder : α → ContractOrder} {orderType : OrderType} {methodData : Bytes}
  {blockNumber : Int}

/-- **What the loop returns**: the call data unpacked, and each of its orders under its hash, in order. -/
theorem getOrdersFromMethodData_eq_ok {orders : List Order} :
    getOrdersFromMethodData unpackOrders hash toBaseOrder rawOrder orderType methodData blockNumber = .ok orders ↔
      ∃ decoded, unpackOrders methodData = .ok decoded ∧
        List.Forall₂ (fun o r => ∃ orderId, hash o = .ok orderId ∧
          methodDataOrder orderId (toBaseOrder o) (rawOrder o) orderType blockNumber = r) decoded orders := by
  rw [getOrdersFromMethodData, bind_eq_ok]
  -- each order: its hash, then its record
  simp only [mapM_eq_ok, bind_eq_ok, pure, Except.pure, Except.ok.injEq]

end MethodData

/-- **The temp matcher's orders against the logs'**: the limit orders of a `placeOrders` call are, each under its
hash, the records of their `OrderAccepted` logs in the block being built, with the builder's block number; the IOC
orders are the records of their logs with the block number so and with the order type `Limit` in place of
`IOC`. -/
theorem methodDataOrders_eq_ok_iff (keccak256 : Bytes → Bytes)
    (unpackLimitOrders : Bytes → Except String (List LimitOrder))
    (unpackIOCOrders : Bytes → Except String (List IOCOrder)) (methodData : Bytes) (b : Nat) (orders : List Order) :
    (getLimitOrdersFromMethodData keccak256 unpackLimitOrders methodData b = .ok orders ↔
      ∃ limitOrders, unpackLimitOrders methodData = .ok limitOrders ∧
        List.Forall₂ (fun o r => ∃ orderHash, o.hash keccak256 = .ok orderHash ∧
          { limitOrderRecord o.trader orderHash o b with blockNumber := b } = r) limitOrders orders) ∧
    (getIOCOrdersFromMethodData keccak256 unpackIOCOrders methodData b = .ok orders ↔
      ∃ iocOrders, unpackIOCOrders methodData = .ok iocOrders ∧
        List.Forall₂ (fun o r => ∃ orderHash, o.hash keccak256 = .ok orderHash ∧
          { iocOrderRecord o.trader orderHash o b with blockNumber := b, orderType := .limit } = r)
          iocOrders orders) :=
  ⟨getOrdersFromMethodData_eq_ok, getOrdersFromMethodData_eq_ok⟩

/-- The IOC order `sampleIOCOrder` placed in block `1`: the temp matcher adds it as a limit order, its
`OrderAccepted` log as an IOC order. -/
theorem iocOrder_methodData_orderType :
    getIOCOrdersFromMethodData (fun _ => []) (fun _ => .ok [sampleIOCOrder]) [] 1 =
        .ok [{ iocOrderRecord sampleIOCOrder.trader (fromBytes []) sampleIOCOrder 1 with
          blockNumber := (1 : Nat), orderType := .limit }] ∧
      (iocOrderRecord sampleIOCOrder.trader (fromBytes []) sampleIOCOrder 1).orderType = .ioc := by
  have hrange : sampleIOCOrder.InAbiRange := by unfold IOCOrder.InAbiRange BaseOrder.InAbiRange; decide
  obtain ⟨bs, henc, -, -⟩ := iocOrder_roundtrip hrange
  have hhash := IOCOrder.hash_of_encode henc (fun _ => [])
  have h := (methodDataOrders_eq_ok_iff (fun _ => []) (fun _ => .ok []) (fun _ => .ok [sampleIOCOrder]) [] 1
    [{ iocOrderRecord sampleIOCOrder.trader (fromBytes []) sampleIOCOrder 1 with
      blockNumber := (1 : Nat), orderType := .limit }]).2
  exact ⟨h.mpr ⟨_, rfl, .cons ⟨_, hhash, rfl⟩ .nil⟩, rfl⟩

end Hubblenet
