import Hubblenet.Orderbook.TradingApi

/-!
# The margin a signed order reserves over its life

`PlaceOrder` reserves the margin of a signed order's whole quantity in the trader's `VirtualReserved`;
`UpdateFilledBaseAssetQuantity` gives back the margin of each fill, and `deleteOrderWithoutLock` (called by
`Accept`, `Delete` and `RemoveExpiredSignedOrders`) that of the unfilled rest. Each amount is `GetRequiredMargin` of
its own quantity, rounded down twice, so what is given back is at most what was reserved
(`sum_getRequiredMargin_le`) and may be less. Over the life of an order the trader's reserve grows by what the
rounding kept (`placeOrder_fills_delete_virtualReserved`): one unit for a unit order at price `1` filled at
`0.500002` (`signedOrder_reserve_drift`).
-/

namespace Hubblenet

namespace InMemoryDatabase

open Go Lib

/-- A trader's virtually reserved margin; a trader with no record has none. -/
def virtualReservedOf (db : InMemoryDatabase) (trader : Address) : Int :=
  ((db.traderMap.lookup trader).getD getBlankTrader).margin.virtualReserved

/-- The fills `UpdateFilledBaseAssetQuantity` applies to one order in turn, each a quantity and a block. -/
def applyFills (cs : ConfigService) (orderId : Hash) : InMemoryDatabase → List (Int × Nat) → InMemoryDatabase
  | db, [] => db
  | db, (quantity, blockNumber) :: fills =>
    applyFills cs orderId (db.updateFilledBaseAssetQuantity cs quantity orderId blockNumber).state fills

/-- The terms of an order that a fill leaves as they are. -/
structure SameTerms (a b : Order) : Prop where
  trader : a.trader = b.trader
  positionType : a.positionType = b.positionType
  baseAssetQuantity : a.baseAssetQuantity = b.baseAssetQuantity
  price : a.price = b.price
  reduceOnly : a.reduceOnly = b.reduceOnly
  orderType : a.orderType = b.orderType

theorem SameTerms.refl (a : Order) : SameTerms a a := ⟨rfl, rfl, rfl, rfl, rfl, rfl⟩

theorem SameTerms.trans {a b c : Order} (hab : SameTerms a b) (hbc : SameTerms b c) : SameTerms a c :=
  ⟨hab.1.trans hbc.1, hab.2.trans hbc.2, hab.3.trans hbc.3, hab.4.trans hbc.4, hab.5.trans hbc.5,
    hab.6.trans hbc.6⟩

theorem sameTerms_filledRecord (o : Order) (quantity : Int) (blockNumber : Nat) :
    SameTerms (filledRecord o quantity blockNumber) o := by
  unfold filledRecord
  dsimp only
  split_ifs <;> exact ⟨rfl, rfl, rfl, rfl, rfl, rfl⟩

/-- A fill moves the filled quantity towards the order's side: up for a long, down for a short. -/
theorem filledRecord_filled (o : Order) (quantity : Int) (blockNumber : Nat) :
    (filledRecord o quantity blockNumber).filledBaseAssetQuantity =
      o.filledBaseAssetQuantity + if o.positionType = .long then quantity else -quantity := by
  unfold filledRecord
  dsimp only
  cases o.positionType <;> split_ifs <;> first | contradiction | simp [Int.sub_eq_add_neg]

variable {db : InMemoryDatabase}

theorem virtualReservedOf_of_traderMap {db' : InMemoryDatabase} (h : db'.traderMap = db.traderMap) :
    db'.virtualReservedOf = db.virtualReservedOf := by
  funext trader
  simp [virtualReservedOf, h]

@[simp] theorem virtualReservedOf_updateVirtualReservedMargin (trader t : Address) (a : Int) :
    (db.updateVirtualReservedMargin trader a).virtualReservedOf t =
      db.virtualReservedOf t + if t = trader then a else 0 := by
  unfold virtualReservedOf updateVirtualReservedMargin
  by_cases h : t = trader
  · subst h
    simp
  · simp [AList.lookup_insert_ne h, h]

/-! ## One call at a time -/

/-- `AddSignedOrder` of a signed order: its record at the next free pointer, mapped under its id, and its margin
added to its trader's reserve. -/
theorem addSignedOrder_spec {order : Order} (hsigned : order.orderType = .signed) (requiredMargin : Int) :
    (db.addSignedOrder order requiredMargin).orders.lookup order.id = some db.heap.length ∧
      (db.addSignedOrder order requiredMargin).deref db.heap.length = placedRecord order ∧
      db.heap.length < (db.addSignedOrder order requiredMargin).heap.length ∧
      ∀ t, (db.addSignedOrder order requiredMargin).virtualReservedOf t =
        db.virtualReservedOf t + if t = order.trader then requiredMargin else 0 := by
  have hvr : (db.addOrderWithoutLock order).virtualReservedOf = db.virtualReservedOf :=
    virtualReservedOf_of_traderMap (by simp [addOrderWithoutLock])
  have hadd : db.addSignedOrder order requiredMargin =
      (db.addOrderWithoutLock order).updateVirtualReservedMargin order.trader requiredMargin := by
    simp [addSignedOrder, hsigned]
  rw [hadd]
  refine ⟨by simp [addOrderWithoutLock], by simp [addOrderWithoutLock, deref], by simp [addOrderWithoutLock],
    fun t => ?_⟩
  rw [virtualReservedOf_updateVirtualReservedMargin, hvr]

/-- A fill of a nonnegative quantity writes the filled record and gives back the margin of the fill if the order
is signed and not reduce-only. -/
theorem updateFilledBaseAssetQuantity_of_nonneg {cs : ConfigService} {orderId : Hash} {p : Ptr}
    (hp : db.orders.lookup orderId = some p) {quantity : Int} (hq : 0 ≤ quantity) (blockNumber : Nat) :
    (db.updateFilledBaseAssetQuantity cs quantity orderId blockNumber).state =
      (db.setRecord p (filledRecord (db.deref p) quantity blockNumber)).fillMargin cs
        (filledRecord (db.deref p) quantity blockNumber) quantity := by
  simp [updateFilledBaseAssetQuantity, hp, Int.not_lt.mpr hq]

@[simp] theorem fillMargin_orders (cs : ConfigService) (o : Order) (quantity : Int) :
    (db.fillMargin cs o quantity).orders = db.orders := by
  unfold fillMargin
  split <;> simp

@[simp] theorem fillMargin_heap (cs : ConfigService) (o : Order) (quantity : Int) :
    (db.fillMargin cs o quantity).heap = db.heap := by
  unfold fillMargin
  split <;> simp

@[simp] theorem deref_fillMargin (cs : ConfigService) (o : Order) (quantity : Int) (q : Ptr) :
    (db.fillMargin cs o quantity).deref q = db.deref q := by
  unfold fillMargin
  split <;> simp

theorem virtualReservedOf_fillMargin (cs : ConfigService) (o : Order) (quantity : Int) (t : Address) :
    (db.fillMargin cs o quantity).virtualReservedOf t = db.virtualReservedOf t -
      if o.orderType = .signed ∧ o.reduceOnly = false ∧ t = o.trader then
        getRequiredMargin o.price quantity cs.getMinAllowableMargin 0
      else 0 := by
  unfold fillMargin
  split_ifs <;> simp_all [Int.sub_eq_add_neg]

/-- `deleteOrderWithoutLock` gives back the margin of the unfilled rest of a signed order that is not
reduce-only. -/
theorem virtualReservedOf_deleteOrderWithoutLock {cs : ConfigService} {orderId : Hash} {p : Ptr}
    (hp : db.orders.lookup orderId = some p) (t : Address) :
    (db.deleteOrderWithoutLock cs orderId).virtualReservedOf t = db.virtualReservedOf t -
      if (db.deref p).orderType = .signed ∧ (db.deref p).reduceOnly = false ∧ t = (db.deref p).trader then
        getRequiredMargin (db.deref p).price (db.deref p).getUnFilledBaseAssetQuantity.natAbs
          cs.getMinAllowableMargin 0
      else 0 := by
  -- unlinking the order touches the sides and the map only
  have hunlink : ∀ db₁ : InMemoryDatabase, db₁.traderMap = db.traderMap →
      ({ db₁ with orders := db₁.orders.erase orderId } : InMemoryDatabase).virtualReservedOf =
        db.virtualReservedOf := fun db₁ h => virtualReservedOf_of_traderMap h
  unfold deleteOrderWithoutLock
  simp only [hp]
  by_cases hsigned : (db.deref p).orderType = .signed ∧ (db.deref p).reduceOnly = false
  · rw [if_pos hsigned, virtualReservedOf_updateVirtualReservedMargin, hunlink _ (by split <;> simp)]
    by_cases ht : t = (db.deref p).trader
    · simp [hsigned, ht, Int.sub_eq_add_neg]
    · simp [ht]
  · rw [if_neg hsigned, if_neg (fun h => hsigned ⟨h.1, h.2.1⟩), Int.sub_zero]
    refine congrFun (hunlink _ ?_) t
    split <;> simp

/-! ## A run of fills -/

variable {cs : ConfigService} {orderId : Hash} {p : Ptr}

/-- **A run of fills** of a signed order that is not reduce-only leaves its record in place with the same terms
and the filled quantity moved by their sum, and takes the margin of each fill off its trader's reserve. The
induction is on the fills, with the record's terms as the invariant. -/
theorem applyFills_spec (fills : List (Int × Nat)) (hfills : ∀ f ∈ fills, 0 ≤ f.1)
    (hp : db.orders.lookup orderId = some p) (hlt : p < db.heap.length)
    (hsigned : (db.deref p).orderType = .signed) (hro : (db.deref p).reduceOnly = false) :
    (db.applyFills cs orderId fills).orders.lookup orderId = some p ∧
      p < (db.applyFills cs orderId fills).heap.length ∧
      SameTerms ((db.applyFills cs orderId fills).deref p) (db.deref p) ∧
      ((db.applyFills cs orderId fills).deref p).filledBaseAssetQuantity = (db.deref p).filledBaseAssetQuantity +
        (if (db.deref p).positionType = .long then (fills.map (·.1)).sum else -(fills.map (·.1)).sum) ∧
      (db.applyFills cs orderId fills).virtualReservedOf (db.deref p).trader =
        db.virtualReservedOf (db.deref p).trader -
          (fills.map fun f => getRequiredMargin (db.deref p).price f.1 cs.getMinAllowableMargin 0).sum := by
  induction fills generalizing db with
  | nil => simp [applyFills, hp, hlt, SameTerms.refl]
  | cons f fills ih =>
    obtain ⟨quantity, blockNumber⟩ := f
    have hq : 0 ≤ quantity := hfills _ List.mem_cons_self
    set o := db.deref p with ho
    set r := filledRecord o quantity blockNumber with hr
    -- the state after the first fill: the map and heap of `db`, the filled record at `p`, one margin given back
    set db₁ := (db.setRecord p r).fillMargin cs r quantity with hdb₁
    have hstep : (db.updateFilledBaseAssetQuantity cs quantity orderId blockNumber).state = db₁ :=
      updateFilledBaseAssetQuantity_of_nonneg hp hq blockNumber
    have hterms : SameTerms r o := sameTerms_filledRecord o quantity blockNumber
    have hp₁ : db₁.orders.lookup orderId = some p := by simp [hdb₁, hp]
    have hlt₁ : p < db₁.heap.length := by simp [hdb₁, hlt]
    have hderef₁ : db₁.deref p = r := by simp [hdb₁, deref_setRecord _ _ _ _ hlt]
    have hvr₁ : db₁.virtualReservedOf o.trader =
        db.virtualReservedOf o.trader - getRequiredMargin o.price quantity cs.getMinAllowableMargin 0 := by
      rw [hdb₁, virtualReservedOf_fillMargin, virtualReservedOf_of_traderMap (setRecord_traderMap db p r)]
      simp [hterms.orderType, hsigned, hterms.reduceOnly, hro, hterms.trader, hterms.price]
    obtain ⟨hp', hlt', hterms', hfilled', hvr'⟩ :=
      ih (fun g hg => hfills g (List.mem_cons_of_mem _ hg)) hp₁ hlt₁
        (by rw [hderef₁, hterms.orderType, hsigned]) (by rw [hderef₁, hterms.reduceOnly, hro])
    rw [hderef₁] at hterms' hfilled' hvr'
    simp only [applyFills, hstep]
    refine ⟨hp', hlt', hterms'.trans hterms, ?_, ?_⟩
    · rw [hfilled', filledRecord_filled, hterms.positionType]
      split_ifs <;> simp only [List.map_cons, List.sum_cons] <;> omega
    · rw [hterms.trader, hterms.price] at hvr'
      rw [hvr', hvr₁]
      simp only [List.map_cons, List.sum_cons]
      omega

/-! ## The life of a signed order -/

/-- What is left of a placed order after fills that sum to at most its size: its size less the fills. -/
theorem abs_unfilled_of_fills {baseAssetQuantity filled total : Int} (hbaq : baseAssetQuantity ≠ 0)
    (hfilled : filled =
      if getPositionTypeBasedOnBaseAssetQuantity baseAssetQuantity = .long then total else -total)
    (hsum : total ≤ |baseAssetQuantity|) :
    |baseAssetQuantity - filled| = |baseAssetQuantity| - total := by
  unfold getPositionTypeBasedOnBaseAssetQuantity at hfilled
  rcases lt_or_gt_of_ne hbaq with hneg | hpos
  · -- a short: the fills bring the quantity up towards zero
    rw [if_neg (by simp [Int.sign_eq_neg_one_of_neg hneg])] at hfilled
    rw [abs_of_neg hneg] at hsum ⊢
    rw [abs_of_nonpos (by omega)]
    omega
  · rw [if_pos (by simp [Int.sign_eq_one_of_pos hpos])] at hfilled
    rw [abs_of_pos hpos] at hsum ⊢
    rw [abs_of_nonneg (by omega)]
    omega

end InMemoryDatabase

open InMemoryDatabase

/-- **The reserve over a signed order's life.** A signed order accepted by `PlaceOrder`, filled by positive
quantities that add up to at most its size and then deleted, leaves its trader's virtually reserved margin above
where it was before by the margin of the whole quantity less the margins of the fills and of the rest, each rounded
down on its own; with a nonnegative margin ratio the reserve never ends below where it started. -/
theorem placeOrder_fills_delete_virtualReserved {s : Signing} {cs : ConfigService} {now : Nat}
    {db db₁ : InMemoryDatabase} {order : SignedOrder} {orderId : Hash} {shouldTriggerMatching : Bool}
    {fills : List (Int × Nat)}
    (hplace : placeOrder s cs now db order = .ok (orderId, shouldTriggerMatching, db₁))
    (hfills : ∀ f ∈ fills, 0 < f.1) (hsum : (fills.map (·.1)).sum ≤ |order.baseAssetQuantity|) :
    ((db₁.applyFills cs orderId fills).deleteOrderWithoutLock cs orderId).virtualReservedOf order.trader =
        db.virtualReservedOf order.trader +
          (getRequiredMargin order.price |order.baseAssetQuantity| cs.getMinAllowableMargin 0 -
            (fills.map fun f => getRequiredMargin order.price f.1 cs.getMinAllowableMargin 0).sum -
            getRequiredMargin order.price (|order.baseAssetQuantity| - (fills.map (·.1)).sum)
              cs.getMinAllowableMargin 0) ∧
      (0 ≤ cs.getMinAllowableMargin →
        db.virtualReservedOf order.trader ≤
          ((db₁.applyFills cs orderId fills).deleteOrderWithoutLock cs orderId).virtualReservedOf order.trader) := by
  obtain ⟨trader, signer, -, -, hv, hro, -, -, rfl⟩ := placeOrder_eq_ok hplace
  obtain ⟨-, hbaq, -, rfl⟩ := validateSignedOrder_eq_ok hv
  set r := placedSignedOrder orderId order.trader order
  set m := getRequiredMargin order.price |order.baseAssetQuantity| cs.getMinAllowableMargin 0
  -- the placement: the record at the next free pointer, the margin of the whole quantity reserved
  obtain ⟨hp, hderef, hlt, hvr₀⟩ := @addSignedOrder_spec db r rfl m
  set db₁ := db.addSignedOrder r m
  have hrec : SameTerms (db₁.deref db.heap.length) r := by
    rw [hderef]
    exact ⟨rfl, rfl, rfl, rfl, rfl, rfl⟩
  -- the fills: the record keeps its terms, each fill gives back its margin
  have hfills' : ∀ f ∈ fills, 0 ≤ f.1 := fun f hf => (hfills f hf).le
  obtain ⟨hp₂, -, hterms₂, hfilled₂, hvr₂⟩ := @applyFills_spec db₁ cs orderId db.heap.length fills hfills' hp hlt
    (hrec.orderType.trans rfl) (hrec.reduceOnly.trans hro)
  set db₂ := db₁.applyFills cs orderId fills
  have hterms := hterms₂.trans hrec
  rw [hrec.trader, hrec.price] at hvr₂
  rw [hrec.positionType, hderef] at hfilled₂
  -- the deletion gives back the margin of what is left, `|size| - Σ fills`
  have hrest : ((db₂.deref db.heap.length).getUnFilledBaseAssetQuantity.natAbs : Int) =
      |order.baseAssetQuantity| - (fills.map (·.1)).sum := by
    rw [Int.natCast_natAbs, Order.getUnFilledBaseAssetQuantity, hterms.baseAssetQuantity]
    exact abs_unfilled_of_fills hbaq (by rw [hfilled₂]; simp [placedRecord, r, placedSignedOrder]) hsum
  have hdelete := @virtualReservedOf_deleteOrderWithoutLock db₂ cs orderId db.heap.length hp₂ order.trader
  rw [if_pos ⟨hterms.orderType, hterms.reduceOnly.trans hro, hterms.trader.symm⟩, hrest, hterms.price,
    show r.price = order.price from rfl] at hdelete
  rw [show r.trader = order.trader from rfl, show r.price = order.price from rfl] at hvr₂
  rw [hdelete, hvr₂, hvr₀, if_pos (show order.trader = r.trader from rfl)]
  refine ⟨by ring, fun hmam => ?_⟩
  -- what is given back is at most what was reserved
  have hle := @sum_getRequiredMargin_le order.price _ hmam (|order.baseAssetQuantity| - (fills.map (·.1)).sum)
    (fills.map (·.1))
  simp only [List.map_map, Function.comp_def, add_sub_cancel] at hle
  omega

/-- Trader `0` with one unit of the one collateral deposited. -/
def fundedTrader : Trader where
  positions := ∅
  margin := ⟨0, AList.singleton 0 1000000, 0, 0⟩

/-- A book with no orders and trader `0` funded. -/
def fundedBook : InMemoryDatabase := { newInMemoryDatabase with traderMap := AList.singleton 0 fundedTrader }

/-- `oneMarketConfig` with a minimum allowable margin of `0.2`, the unit collateral and the market at price `1`. -/
def marginConfig : ConfigService :=
  { oneMarketConfig with
    getMinAllowableMargin := 200000
    getCollaterals := [unitCollateral]
    getUnderlyingPrices := [1000000] }

/-- A post-only signed long order of trader `0` for one unit of market `0` at price `1`. -/
def unitLong : SignedOrder := ⟨⟨⟨0, 0, 10 ^ 18, 1000000, 0, false⟩, true⟩, 2, 0, List.replicate 65 27⟩

/-- A unit order at price `1` reserves `0.2` of margin; filled at `0.500002` and deleted, it gives back
`100000` and `99999`, and one unit stays reserved. -/
theorem signedOrder_reserve_drift :
    ∃ db₁, placeOrder zeroKeySigning marginConfig 0 fundedBook unitLong = .ok (5, false, db₁) ∧
      ((db₁.applyFills marginConfig 5 [(500002 * 10 ^ 12, 1)]).deleteOrderWithoutLock marginConfig 5).virtualReservedOf
          unitLong.trader = fundedBook.virtualReservedOf unitLong.trader + 1 := by
  obtain ⟨db₁, hplace⟩ :=
    @placeOrder_ok_of_map zeroKeySigning marginConfig 0 fundedBook unitLong 5 false (by decide +kernel)
  refine ⟨db₁, hplace, ?_⟩
  rw [(placeOrder_fills_delete_virtualReserved hplace (by decide) (by decide)).1]
  decide

end Hubblenet
