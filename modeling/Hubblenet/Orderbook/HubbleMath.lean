import Hubblenet.Orderbook.Types
import Hubblenet.Orderbook.MarginMath

/-!
# The margin accounting of `hubbleutils`

`hubbleutils/margin_math.go` computes a trader's notional position and margin from two records: a
`HubbleState` (collaterals, prices, the markets to count, the margin parameters) and a `UserState` (positions,
deposits, pending funding, reserved margin). The validator and the precompiles assemble these records from their
own data and call the same functions, so this module is shared by both sides.

The market loop `getTotalNotionalPositionAndUnrealizedPnl` adds up `getOptimalPnl` over the active markets, so
`GetNotionalPositionAndMargin` is the sum of what each market contributes (`getNotionalPositionAndMargin_eq_sum`);
a market where the trader holds nothing adds nothing (`getOptimalPnl_of_size_eq_zero`).

Go maps that are only read are functions to `Option`: a missing key reads as nil.

`getOptimalPnl` values an open position at the oracle (or settlement) price from `V2` on, and before that picks
between the oracle and the mid price by the mode: by unrealised profit in `V1`, by margin fraction in `V0`
(`getOptimalPnl_V2`, `getOptimalPnl_V1`, `getOptimalPnl_V0`). Whether it panics does not depend on the mode
(`getOptimalPnl_ok_iff`), and outside `V0` the maintenance mode counts at least the profit of the min-allowable one,
market by market and so over the loop (`getNotionalPositionAndMargin_margin_le`).
-/

namespace Hubblenet.Hu

open Go

/-- `hu.Collateral`: price and weight scaled by `1e6`. -/
structure Collateral where
  price : Int
  weight : Int
  decimals : UInt8
  deriving DecidableEq, Repr

/-- `hu.Position`. -/
structure Position where
  openNotional : Int
  size : Int
  deriving DecidableEq, Repr

/-- `hu.UpgradeVersion`. -/
inductive UpgradeVersion where
  | V0
  | V1
  | V2
  deriving DecidableEq, Repr

/-- `hu.MarginMode`. -/
inductive MarginMode where
  | maintenance_Margin
  | min_Allowable_Margin
  deriving DecidableEq, Repr

/-- `hu.HubbleState`. The precompiles leave the margin parameters nil, and nothing they call reads them. -/
structure HubbleState where
  assets : List Collateral
  oraclePrices : Market → Option Int
  midPrices : Market → Option Int
  settlementPrices : Market → Option Int
  activeMarkets : List Market
  minAllowableMargin : Int
  maintenanceMargin : Int
  takerFee : Int
  upgradeVersion : UpgradeVersion

/-- `hu.UserState`; `ReduceOnlyAmounts` is passed on its own where it is read (`InMemoryDatabase.cancellationOf`). -/
structure UserState where
  positions : Market → Option Position
  margins : List (Option Int)
  pendingFunding : Int
  reservedMargin : Int

/-- `hu.ArrayToMap`: the `i`-th price under market `i`. -/
def arrayToMap (prices : List Int) : Market → Option Int :=
  fun market => if 0 ≤ market then prices[market.toNat]? else none

/-- `hu.Unscale`. -/
def unscale (a : Int) (decimals : UInt8) : Int := a / 10 ^ decimals.toNat

/-- `hu.WeightedAndSpotCollateral`: the deposits valued at the collateral prices, with and without the collateral
weights. `margins[i]` is read for every asset `i`: fewer margins than assets panics. -/
def weightedAndSpotCollateral : List Collateral → List (Option Int) → Except Panic (Int × Int)
  | [], _ => .ok (0, 0)
  | _ :: _, [] => .error .indexOutOfRange
  | asset :: assets, margin :: margins => do
    let (weighted, spot) ← weightedAndSpotCollateral assets margins
    match margin with
    | none => pure (weighted, spot)
    | some m =>
      if m.sign = 0 then pure (weighted, spot)
      else
        let numerator := m * asset.price
        pure (weighted + unscale (numerator * asset.weight) (asset.decimals + 6),
          spot + unscale numerator asset.decimals)

/-- `hu.GetNormalizedMargin`. -/
def getNormalizedMargin (assets : List Collateral) (margins : List (Option Int)) : Except Panic Int := do
  let (weighted, _) ← weightedAndSpotCollateral assets margins
  pure weighted

/-- `hu.GetNotionalPosition`. -/
def getNotionalPosition (price size : Int) : Int := |div1e18 (price * size)|

/-- `hu.GetPositionMetadata`: notional, unrealised profit and margin fraction of one position. -/
def getPositionMetadata (price openNotional size margin : Int) : Int × Int × Int :=
  let notionalPosition := getNotionalPosition price size
  if notionalPosition.sign = 0 then (0, 0, 0)
  else
    let uPnL := if size.sign > 0 then notionalPosition - openNotional else openNotional - notionalPosition
    (notionalPosition, uPnL, mul1e6 (margin + uPnL) / notionalPosition)

/-- The price `getOptimalPnl` values a position at: the settlement price of a settled market, else the oracle's. -/
def valuationPrice (hState : HubbleState) (market : Market) : Option Int :=
  match hState.settlementPrices market with
  | some settlementPrice => if settlementPrice.sign ≠ 0 then some settlementPrice else hState.oraclePrices market
  | none => hState.oraclePrices market

/-- `hu.getOptimalPnl`: notional and unrealised profit of the position in one market. From `V2` on, at the
oracle (or settlement) price; before, at the oracle or the mid price, whichever is worse for the trader in the
mode asked. A missing price is a nil `*big.Int` and panics. -/
def getOptimalPnl (hState : HubbleState) (position : Option Position) (margin : Int) (market : Market)
    (marginMode : MarginMode) : Except Panic (Int × Int) :=
  match position with
  | none => .ok (0, 0)
  | some position =>
    if position.size.sign = 0 then .ok (0, 0)
    else
      match valuationPrice hState market with
      | none => .error .nilDereference
      | some price =>
        let (oracleBasedNotional, oracleBasedUnrealizedPnl, oracleBasedMF) :=
          getPositionMetadata price position.openNotional position.size margin
        if hState.upgradeVersion = .V2 then .ok (oracleBasedNotional, oracleBasedUnrealizedPnl)
        else
          match hState.midPrices market with
          | none => .error .nilDereference
          | some midPrice =>
            let (notionalPosition, unrealizedPnl, midPriceBasedMF) :=
              getPositionMetadata midPrice position.openNotional position.size margin
            if hState.upgradeVersion = .V1 then
              if (marginMode = .maintenance_Margin ∧ oracleBasedUnrealizedPnl > unrealizedPnl) ∨
                  (marginMode = .min_Allowable_Margin ∧ oracleBasedUnrealizedPnl < unrealizedPnl) then
                .ok (oracleBasedNotional, oracleBasedUnrealizedPnl)
              else .ok (notionalPosition, unrealizedPnl)
            else if (marginMode = .maintenance_Margin ∧ oracleBasedMF > midPriceBasedMF) ∨
                (marginMode = .min_Allowable_Margin ∧ oracleBasedMF < midPriceBasedMF) then
              .ok (oracleBasedNotional, oracleBasedUnrealizedPnl)
            else .ok (notionalPosition, unrealizedPnl)

/-- `hu.GetTotalNotionalPositionAndUnrealizedPnl`: `getOptimalPnl` summed over the active markets. -/
def getTotalNotionalPositionAndUnrealizedPnl (hState : HubbleState) (userState : UserState) (margin : Int)
    (marginMode : MarginMode) : Except Panic (Int × Int) :=
  loop hState.activeMarkets 0 0
where
  loop : List Market → Int → Int → Except Panic (Int × Int)
    | [], notionalPosition, unrealizedPnl => .ok (notionalPosition, unrealizedPnl)
    | market :: markets, notionalPosition, unrealizedPnl => do
      let (n, u) ← getOptimalPnl hState (userState.positions market) margin market marginMode
      loop markets (notionalPosition + n) (unrealizedPnl + u)

/-- `hu.GetNotionalPositionAndMargin`: the notional position, and the margin with pending funding taken off and
unrealised profit added. -/
def getNotionalPositionAndMargin (hState : HubbleState) (userState : UserState) (marginMode : MarginMode) :
    Except Panic (Int × Int) := do
  let normalized ← getNormalizedMargin hState.assets userState.margins
  let margin := normalized - userState.pendingFunding
  let (notionalPosition, unrealizedPnl) ←
    getTotalNotionalPositionAndUnrealizedPnl hState userState margin marginMode
  pure (notionalPosition, margin + unrealizedPnl)

/-- `hu.GetAvailableMargin_`. -/
def getAvailableMargin_ (notionalPosition margin reservedMargin minAllowableMargin : Int) : Int :=
  margin - div1e6 (notionalPosition * minAllowableMargin) - reservedMargin

/-- `hu.GetAvailableMargin`. -/
def getAvailableMargin (hState : HubbleState) (userState : UserState) : Except Panic Int := do
  let (notionalPosition, margin) ← getNotionalPositionAndMargin hState userState .min_Allowable_Margin
  pure (getAvailableMargin_ notionalPosition margin userState.reservedMargin hState.minAllowableMargin)

/-- `math.MaxInt64`. -/
def maxInt64 : Int := 2 ^ 63 - 1

/-- `hu.GetMarginFraction`: `MaxInt64` for a trader with no notional position. -/
def getMarginFraction (hState : HubbleState) (userState : UserState) : Except Panic Int := do
  let (notionalPosition, margin) ← getNotionalPositionAndMargin hState userState .maintenance_Margin
  if notionalPosition.sign = 0 then pure maxInt64 else pure (mul1e6 margin / notionalPosition)

section Sums

variable {hState : HubbleState} {userState : UserState} {margin : Int} {marginMode : MarginMode}

/-- A market where the trader holds nothing adds nothing, whatever the prices. -/
theorem getOptimalPnl_of_size_eq_zero {position : Option Position} {market : Market}
    (h : ∀ p ∈ position, p.size = 0) : getOptimalPnl hState position margin market marginMode = .ok (0, 0) := by
  cases position with
  | none => rfl
  | some p => simp [getOptimalPnl, h p rfl]

/-- The market loop, from the running totals `n` and `u`, adds to them what `getOptimalPnl` gives each market, and
panics at the first market that panics. -/
theorem loop_eq_sum : ∀ (markets : List Market) (n u : Int),
    getTotalNotionalPositionAndUnrealizedPnl.loop hState userState margin marginMode markets n u =
      (fun rs : List (Int × Int) => (n + (rs.map Prod.fst).sum, u + (rs.map Prod.snd).sum)) <$>
        markets.mapM fun market => getOptimalPnl hState (userState.positions market) margin market marginMode
  | [], n, u => by simp [getTotalNotionalPositionAndUnrealizedPnl.loop, pure, Except.pure, Functor.map, Except.map]
  | market :: markets, n, u => by
    rw [getTotalNotionalPositionAndUnrealizedPnl.loop, List.mapM_cons]
    cases getOptimalPnl hState (userState.positions market) margin market marginMode with
    | error e => rfl
    | ok r =>
      simp only [bind, Except.bind, loop_eq_sum markets]
      cases markets.mapM fun market => getOptimalPnl hState (userState.positions market) margin market marginMode with
      | error e => rfl
      | ok rs =>
        simp only [Functor.map, Except.map, pure, Except.pure, List.map_cons, List.sum_cons, Except.ok.injEq,
          Prod.mk.injEq]
        omega

/-- `GetNotionalPositionAndMargin` is the sum, over the active markets, of what `getOptimalPnl` gives each one at
the margin net of pending funding: the notionals make the notional position, and the unrealised profits are added
to the margin. -/
theorem getNotionalPositionAndMargin_eq_sum (marginMode : MarginMode) :
    getNotionalPositionAndMargin hState userState marginMode = (do
      let normalized ← getNormalizedMargin hState.assets userState.margins
      let margin := normalized - userState.pendingFunding
      let rs ← hState.activeMarkets.mapM fun market =>
        getOptimalPnl hState (userState.positions market) margin market marginMode
      pure ((rs.map Prod.fst).sum, margin + (rs.map Prod.snd).sum)) := by
  unfold getNotionalPositionAndMargin getTotalNotionalPositionAndUnrealizedPnl
  cases getNormalizedMargin hState.assets userState.margins with
  | error e => rfl
  | ok normalized =>
    simp only [bind, Except.bind, loop_eq_sum]
    cases hState.activeMarkets.mapM fun market =>
        getOptimalPnl hState (userState.positions market) (normalized - userState.pendingFunding) market
          marginMode with
    | error e => rfl
    | ok rs => simp [Functor.map, Except.map, pure, Except.pure]

end Sums

/-- The notional position and the unrealised profit of `position` valued at `price`. -/
def pnlAt (price : Int) (position : Position) (margin : Int) : Int × Int :=
  ((getPositionMetadata price position.openNotional position.size margin).1,
    (getPositionMetadata price position.openNotional position.size margin).2.1)

/-- The margin fraction of `position` valued at `price`. -/
def mfAt (price : Int) (position : Position) (margin : Int) : Int :=
  (getPositionMetadata price position.openNotional position.size margin).2.2

/-- `r` is the candidate `a` or `b` whose key, `ka` or `kb`, is `better` than the other's; either one on a tie. -/
def ChosenBy (better : Int → Int → Prop) (r a b : Int × Int) (ka kb : Int) : Prop :=
  r = a ∧ better ka kb ∨ r = b ∧ better kb ka

/-- Keeping `a` when its key is the greater chooses by the greater key. -/
theorem ChosenBy.of_ite_gt {ε : Type} (ka kb : Int) (a b : Int × Int) :
    ∃ r, (if ka > kb then (.ok a : Except ε (Int × Int)) else .ok b) = .ok r ∧ ChosenBy (· ≥ ·) r a b ka kb := by
  by_cases h : ka > kb
  · exact ⟨a, if_pos h, .inl ⟨rfl, le_of_lt h⟩⟩
  · exact ⟨b, if_neg h, .inr ⟨rfl, not_lt.mp h⟩⟩

/-- Keeping `a` when its key is the smaller chooses by the smaller key. -/
theorem ChosenBy.of_ite_lt {ε : Type} (ka kb : Int) (a b : Int × Int) :
    ∃ r, (if ka < kb then (.ok a : Except ε (Int × Int)) else .ok b) = .ok r ∧ ChosenBy (· ≤ ·) r a b ka kb := by
  by_cases h : ka < kb
  · exact ⟨a, if_pos h, .inl ⟨rfl, le_of_lt h⟩⟩
  · exact ⟨b, if_neg h, .inr ⟨rfl, not_lt.mp h⟩⟩

section Modes

theorem ite_ok_exists {ε α : Type} (c : Prop) [Decidable c] (a b : α) :
    ∃ r, (if c then (.ok a : Except ε α) else .ok b) = .ok r := by
  split_ifs <;> exact ⟨_, rfl⟩

variable {hState : HubbleState} {p : Position} {margin : Int} {market : Market} {price : Int}

theorem getOptimalPnl_of_open (hsize : p.size ≠ 0) (hprice : valuationPrice hState market = some price)
    (mode : MarginMode) :
    getOptimalPnl hState (some p) margin market mode =
      if hState.upgradeVersion = .V2 then .ok (pnlAt price p margin)
      else match hState.midPrices market with
        | none => .error .nilDereference
        | some midPrice =>
          if hState.upgradeVersion = .V1 then
            if (mode = .maintenance_Margin ∧ (pnlAt price p margin).2 > (pnlAt midPrice p margin).2) ∨
                (mode = .min_Allowable_Margin ∧ (pnlAt price p margin).2 < (pnlAt midPrice p margin).2) then
              .ok (pnlAt price p margin)
            else .ok (pnlAt midPrice p margin)
          else if (mode = .maintenance_Margin ∧ mfAt price p margin > mfAt midPrice p margin) ∨
              (mode = .min_Allowable_Margin ∧ mfAt price p margin < mfAt midPrice p margin) then
            .ok (pnlAt price p margin)
          else .ok (pnlAt midPrice p margin) := by
  simp only [getOptimalPnl, Int.sign_eq_zero_iff_zero, hsize, if_false, hprice]
  rfl

/-- From `V2` on a position is valued at the oracle (or settlement) price in both modes. -/
theorem getOptimalPnl_V2 (hsize : p.size ≠ 0) (hprice : valuationPrice hState market = some price)
    (hv : hState.upgradeVersion = .V2) (mode : MarginMode) :
    getOptimalPnl hState (some p) margin market mode = .ok (pnlAt price p margin) := by
  rw [getOptimalPnl_of_open hsize hprice, if_pos hv]

/-- In `V1` the maintenance mode takes the larger unrealised profit and the min-allowable mode the smaller. -/
theorem getOptimalPnl_V1 (hsize : p.size ≠ 0) (hprice : valuationPrice hState market = some price) {midPrice : Int}
    (hmid : hState.midPrices market = some midPrice) (hv : hState.upgradeVersion = .V1) :
    (∃ r, getOptimalPnl hState (some p) margin market .maintenance_Margin = .ok r ∧
      ChosenBy (· ≥ ·) r (pnlAt price p margin) (pnlAt midPrice p margin) (pnlAt price p margin).2
        (pnlAt midPrice p margin).2) ∧
    ∃ r, getOptimalPnl hState (some p) margin market .min_Allowable_Margin = .ok r ∧
      ChosenBy (· ≤ ·) r (pnlAt price p margin) (pnlAt midPrice p margin) (pnlAt price p margin).2
        (pnlAt midPrice p margin).2 := by
  simp only [getOptimalPnl_of_open hsize hprice, hv, hmid, reduceCtorEq, if_false, if_true, true_and, false_and,
    or_false, false_or]
  exact ⟨ChosenBy.of_ite_gt _ _ _ _, ChosenBy.of_ite_lt _ _ _ _⟩

/-- In `V0` the maintenance mode takes the valuation with the larger margin fraction and the min-allowable mode the
one with the smaller. -/
theorem getOptimalPnl_V0 (hsize : p.size ≠ 0) (hprice : valuationPrice hState market = some price) {midPrice : Int}
    (hmid : hState.midPrices market = some midPrice) (hv : hState.upgradeVersion = .V0) :
    (∃ r, getOptimalPnl hState (some p) margin market .maintenance_Margin = .ok r ∧
      ChosenBy (· ≥ ·) r (pnlAt price p margin) (pnlAt midPrice p margin) (mfAt price p margin)
        (mfAt midPrice p margin)) ∧
    ∃ r, getOptimalPnl hState (some p) margin market .min_Allowable_Margin = .ok r ∧
      ChosenBy (· ≤ ·) r (pnlAt price p margin) (pnlAt midPrice p margin) (mfAt price p margin)
        (mfAt midPrice p margin) := by
  simp only [getOptimalPnl_of_open hsize hprice, hv, hmid, reduceCtorEq, if_false, true_and, false_and,
    or_false, false_or]
  exact ⟨ChosenBy.of_ite_gt _ _ _ _, ChosenBy.of_ite_lt _ _ _ _⟩

variable {position : Option Position}

/-- Whether `getOptimalPnl` panics does not depend on the mode. -/
theorem getOptimalPnl_ok_iff (mode mode' : MarginMode) :
    (∃ r, getOptimalPnl hState position margin market mode = .ok r) ↔
      ∃ r, getOptimalPnl hState position margin market mode' = .ok r := by
  rcases position with _ | p
  · simp [getOptimalPnl]
  by_cases hsize : p.size = 0
  · simp [getOptimalPnl_of_size_eq_zero (show ∀ q ∈ some p, q.size = 0 by simp [hsize])]
  cases hprice : valuationPrice hState market with
  | none => simp [getOptimalPnl, hsize, hprice]
  | some price =>
    simp only [getOptimalPnl_of_open hsize hprice]
    cases hState.midPrices market with
    | none => split_ifs <;> simp
    | some midPrice =>
      -- past the guards each mode chooses one of two results, both of them `ok`
      split_ifs
      · simp
      all_goals exact iff_of_true (ite_ok_exists _ _ _) (ite_ok_exists _ _ _)

/-- Outside `V0` a market adds at least as much unrealised profit in the maintenance mode as in the
min-allowable one. -/
theorem getOptimalPnl_snd_le (hv : hState.upgradeVersion ≠ .V0) {r r' : Int × Int}
    (hmax : getOptimalPnl hState position margin market .maintenance_Margin = .ok r)
    (hmin : getOptimalPnl hState position margin market .min_Allowable_Margin = .ok r') : r'.2 ≤ r.2 := by
  rcases position with _ | p
  · cases hmax; cases hmin; exact le_rfl
  by_cases hsize : p.size = 0
  · have hzero := fun mode => @getOptimalPnl_of_size_eq_zero hState margin mode (some p) market
      (by simp [hsize])
    rw [hzero] at hmax hmin
    cases hmax; cases hmin; exact le_rfl
  cases hprice : valuationPrice hState market with
  | none => simp [getOptimalPnl, hsize, hprice] at hmax
  | some price =>
    cases hversion : hState.upgradeVersion with
    | V0 => exact absurd hversion hv
    | V2 =>
      rw [getOptimalPnl_V2 hsize hprice hversion] at hmax hmin
      cases hmax; cases hmin; exact le_rfl
    | V1 =>
      cases hmid : hState.midPrices market with
      | none => simp [getOptimalPnl, hsize, hprice, hversion, hmid] at hmax
      | some midPrice =>
        -- the larger of the two profits against the smaller
        obtain ⟨⟨r₁, h₁, hc₁⟩, ⟨r₂, h₂, hc₂⟩⟩ :=
          @getOptimalPnl_V1 hState p margin market price hsize hprice midPrice hmid hversion
        rw [h₁] at hmax
        rw [h₂] at hmin
        cases hmax; cases hmin
        rcases hc₁ with ⟨rfl, _⟩ | ⟨rfl, _⟩ <;> rcases hc₂ with ⟨rfl, _⟩ | ⟨rfl, _⟩ <;> omega

variable {userState : UserState}

/-- The market loop panics in one mode exactly when it panics in the other. -/
theorem loop_ok_iff (mode mode' : MarginMode) : ∀ (markets : List Market) (n u n' u' : Int),
    (∃ r, getTotalNotionalPositionAndUnrealizedPnl.loop hState userState margin mode markets n u = .ok r) ↔
      ∃ r, getTotalNotionalPositionAndUnrealizedPnl.loop hState userState margin mode' markets n' u' = .ok r
  | [], _, _, _, _ => by simp [getTotalNotionalPositionAndUnrealizedPnl.loop]
  | market :: markets, n, u, n', u' => by
    simp only [getTotalNotionalPositionAndUnrealizedPnl.loop]
    exact exists_bind_eq_ok_iff (getOptimalPnl_ok_iff mode mode')
      fun _ _ _ _ => loop_ok_iff mode mode' markets _ _ _ _

/-- Outside `V0` the market loop adds at least as much unrealised profit in the maintenance mode as in the
min-allowable one. -/
theorem loop_snd_le (hv : hState.upgradeVersion ≠ .V0) : ∀ (markets : List Market) (n u n' u' : Int), u' ≤ u →
    ∀ r r', getTotalNotionalPositionAndUnrealizedPnl.loop hState userState margin .maintenance_Margin markets n u =
        .ok r →
      getTotalNotionalPositionAndUnrealizedPnl.loop hState userState margin .min_Allowable_Margin markets n' u' =
        .ok r' → r'.2 ≤ r.2
  | [], _, _, _, _, hu, r, r', h, h' => by
    cases h; cases h'; exact hu
  | market :: markets, n, u, n', u', hu, r, r', h, h' => by
    simp only [getTotalNotionalPositionAndUnrealizedPnl.loop] at h h'
    cases hmax : getOptimalPnl hState (userState.positions market) margin market .maintenance_Margin with
    | error e => simp [hmax, bind, Except.bind] at h
    | ok a =>
      cases hmin : getOptimalPnl hState (userState.positions market) margin market .min_Allowable_Margin with
      | error e => simp [hmin, bind, Except.bind] at h'
      | ok a' =>
        simp only [hmax, hmin, bind, Except.bind] at h h'
        exact loop_snd_le hv markets _ _ _ _ (add_le_add hu (getOptimalPnl_snd_le hv hmax hmin)) r r' h h'

theorem getNotionalPositionAndMargin_ok_iff (mode mode' : MarginMode) :
    (∃ r, getNotionalPositionAndMargin hState userState mode = .ok r) ↔
      ∃ r, getNotionalPositionAndMargin hState userState mode' = .ok r := by
  unfold getNotionalPositionAndMargin getTotalNotionalPositionAndUnrealizedPnl
  refine exists_bind_eq_ok_iff Iff.rfl fun normalized normalized' h h' => ?_
  obtain rfl : normalized = normalized' := Except.ok.inj (h.symm.trans h')
  -- the loop decides; the margin is added after it in both modes
  exact exists_bind_eq_ok_iff (loop_ok_iff mode mode' _ 0 0 0 0) fun _ _ _ _ => by simp [pure, Except.pure]

theorem getNotionalPositionAndMargin_margin_le (hv : hState.upgradeVersion ≠ .V0) {n m n' m' : Int}
    (hmax : getNotionalPositionAndMargin hState userState .maintenance_Margin = .ok (n, m))
    (hmin : getNotionalPositionAndMargin hState userState .min_Allowable_Margin = .ok (n', m')) : m' ≤ m := by
  unfold getNotionalPositionAndMargin getTotalNotionalPositionAndUnrealizedPnl at hmax hmin
  cases hnorm : getNormalizedMargin hState.assets userState.margins with
  | error e => simp [hnorm, bind, Except.bind] at hmax
  | ok normalized =>
    simp only [hnorm, bind, Except.bind] at hmax hmin
    cases h : getTotalNotionalPositionAndUnrealizedPnl.loop hState userState (normalized - userState.pendingFunding)
        .maintenance_Margin hState.activeMarkets 0 0 with
    | error e => simp [h] at hmax
    | ok r =>
      cases h' : getTotalNotionalPositionAndUnrealizedPnl.loop hState userState
          (normalized - userState.pendingFunding) .min_Allowable_Margin hState.activeMarkets 0 0 with
      | error e => simp [h'] at hmin
      | ok r' =>
        simp only [h, h', pure, Except.pure, Except.ok.injEq, Prod.mk.injEq] at hmax hmin
        have hle := loop_snd_le hv hState.activeMarkets 0 0 0 0 le_rfl r r' h h'
        omega

end Modes

/-- **The margin modes of `getOptimalPnl`.** An open position is valued, from `V2` on, at the oracle (or non-zero
settlement) price in both modes; in `V1` at that price or the mid price, whichever gives the larger unrealised
profit in the maintenance mode and the smaller in the min-allowable one; in `V0` by the larger and the smaller
margin fraction. `GetNotionalPositionAndMargin` adds up, over the active markets, what `getOptimalPnl` gives each
one. So outside `V0` it panics in both modes or in neither, and its margin in the maintenance mode is at least its
margin in the min-allowable one. -/
theorem getOptimalPnl_margin_modes :
    (∀ (hState : HubbleState) (p : Position) (margin : Int) (market : Market) (price : Int), p.size ≠ 0 →
      valuationPrice hState market = some price → hState.upgradeVersion = .V2 → ∀ mode,
        getOptimalPnl hState (some p) margin market mode = .ok (pnlAt price p margin)) ∧
    (∀ (hState : HubbleState) (p : Position) (margin : Int) (market : Market) (price midPrice : Int), p.size ≠ 0 →
      valuationPrice hState market = some price → hState.midPrices market = some midPrice →
      hState.upgradeVersion = .V1 →
        (∃ r, getOptimalPnl hState (some p) margin market .maintenance_Margin = .ok r ∧
          ChosenBy (· ≥ ·) r (pnlAt price p margin) (pnlAt midPrice p margin) (pnlAt price p margin).2
            (pnlAt midPrice p margin).2) ∧
        ∃ r, getOptimalPnl hState (some p) margin market .min_Allowable_Margin = .ok r ∧
          ChosenBy (· ≤ ·) r (pnlAt price p margin) (pnlAt midPrice p margin) (pnlAt price p margin).2
            (pnlAt midPrice p margin).2) ∧
    (∀ (hState : HubbleState) (p : Position) (margin : Int) (market : Market) (price midPrice : Int), p.size ≠ 0 →
      valuationPrice hState market = some price → hState.midPrices market = some midPrice →
      hState.upgradeVersion = .V0 →
        (∃ r, getOptimalPnl hState (some p) margin market .maintenance_Margin = .ok r ∧
          ChosenBy (· ≥ ·) r (pnlAt price p margin) (pnlAt midPrice p margin) (mfAt price p margin)
            (mfAt midPrice p margin)) ∧
        ∃ r, getOptimalPnl hState (some p) margin market .min_Allowable_Margin = .ok r ∧
          ChosenBy (· ≤ ·) r (pnlAt price p margin) (pnlAt midPrice p margin) (mfAt price p margin)
            (mfAt midPrice p margin)) ∧
    (∀ (hState : HubbleState) (userState : UserState) (mode : MarginMode),
      getNotionalPositionAndMargin hState userState mode = (do
        let normalized ← getNormalizedMargin hState.assets userState.margins
        let margin := normalized - userState.pendingFunding
        let rs ← hState.activeMarkets.mapM fun market =>
          getOptimalPnl hState (userState.positions market) margin market mode
        pure ((rs.map Prod.fst).sum, margin + (rs.map Prod.snd).sum))) ∧
    ∀ (hState : HubbleState) (userState : UserState), hState.upgradeVersion ≠ .V0 →
      ((∃ r, getNotionalPositionAndMargin hState userState .maintenance_Margin = .ok r) ↔
        ∃ r, getNotionalPositionAndMargin hState userState .min_Allowable_Margin = .ok r) ∧
      ∀ n m n' m', getNotionalPositionAndMargin hState userState .maintenance_Margin = .ok (n, m) →
        getNotionalPositionAndMargin hState userState .min_Allowable_Margin = .ok (n', m') → m' ≤ m :=
  ⟨fun _ _ _ _ _ hsize hprice hv mode => getOptimalPnl_V2 hsize hprice hv mode,
    fun _ _ _ _ _ _ hsize hprice hmid hv => getOptimalPnl_V1 hsize hprice hmid hv,
    fun _ _ _ _ _ _ hsize hprice hmid hv => getOptimalPnl_V0 hsize hprice hmid hv,
    fun _ _ mode => getNotionalPositionAndMargin_eq_sum mode,
    fun _ _ hv => ⟨getNotionalPositionAndMargin_ok_iff _ _,
      fun _ _ _ _ hmax hmin => getNotionalPositionAndMargin_margin_le hv hmax hmin⟩⟩

/-- A long of one unit opened at a notional of `10`, in market `0`. -/
def longPosition : Position := { openNotional := 10000000, size := 10 ^ 18 }

/-- One active market, `0`, with the oracle price `12` and the mid price `11`, at upgrade version `v`. -/
def oneMarketState (v : UpgradeVersion) : HubbleState :=
  { assets := [], oraclePrices := fun _ => some 12000000, midPrices := fun _ => some 11000000,
    settlementPrices := fun _ => none, activeMarkets := [0], minAllowableMargin := 0, maintenanceMargin := 0,
    takerFee := 0, upgradeVersion := v }

/-- The trader of `longPosition`, with no deposit and no pending funding. -/
def longTrader : UserState :=
  { positions := fun m => if m = 0 then some longPosition else none, margins := [], pendingFunding := 0,
    reservedMargin := 0 }

/-- The long's profit is `2` at the oracle price and `1` at the mid price: in `V1` the maintenance mode counts the
first and the min-allowable mode the second, and so do the margins. -/
theorem getOptimalPnl_margin_modes_longPosition :
    longPosition.size ≠ 0 ∧ (∀ v, valuationPrice (oneMarketState v) 0 = some 12000000) ∧
      (∀ v, (oneMarketState v).midPrices 0 = some 11000000) ∧
      getOptimalPnl (oneMarketState .V2) (some longPosition) 0 0 .min_Allowable_Margin =
        .ok (pnlAt 12000000 longPosition 0) ∧
      (∃ r, getOptimalPnl (oneMarketState .V1) (some longPosition) 0 0 .min_Allowable_Margin = .ok r ∧
        ChosenBy (· ≤ ·) r (pnlAt 12000000 longPosition 0) (pnlAt 11000000 longPosition 0)
          (pnlAt 12000000 longPosition 0).2 (pnlAt 11000000 longPosition 0).2) ∧
      (∃ r, getOptimalPnl (oneMarketState .V0) (some longPosition) 0 0 .maintenance_Margin = .ok r ∧
        ChosenBy (· ≥ ·) r (pnlAt 12000000 longPosition 0) (pnlAt 11000000 longPosition 0)
          (mfAt 12000000 longPosition 0) (mfAt 11000000 longPosition 0)) ∧
      (oneMarketState .V1).upgradeVersion ≠ .V0 ∧
      ∃ n m n' m', getNotionalPositionAndMargin (oneMarketState .V1) longTrader .maintenance_Margin = .ok (n, m) ∧
        getNotionalPositionAndMargin (oneMarketState .V1) longTrader .min_Allowable_Margin = .ok (n', m') ∧
        m' ≤ m := by
  have hsize : longPosition.size ≠ 0 := by decide
  have hprice : ∀ v, valuationPrice (oneMarketState v) 0 = some 12000000 := fun _ => rfl
  have hmid : ∀ v, (oneMarketState v).midPrices 0 = some 11000000 := fun _ => rfl
  obtain ⟨hV2, hV1, hV0, -, hle⟩ := getOptimalPnl_margin_modes
  refine ⟨hsize, hprice, hmid, hV2 _ _ _ _ _ hsize (hprice .V2) rfl .min_Allowable_Margin,
    (hV1 _ _ _ _ _ _ hsize (hprice .V1) (hmid .V1) rfl).2, (hV0 _ _ _ _ _ _ hsize (hprice .V0) (hmid .V0) rfl).1,
    by decide, ?_⟩
  have hmax : getNotionalPositionAndMargin (oneMarketState .V1) longTrader .maintenance_Margin =
      .ok (12000000, 2000000) := by decide
  have hmin : getNotionalPositionAndMargin (oneMarketState .V1) longTrader .min_Allowable_Margin =
      .ok (11000000, 1000000) := by decide
  exact ⟨_, _, _, _, hmax, hmin, (hle (oneMarketState .V1) longTrader (by decide)).2 _ _ _ _ hmax hmin⟩

end Hubblenet.Hu
