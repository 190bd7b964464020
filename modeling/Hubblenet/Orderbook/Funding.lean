import Hubblenet.Orderbook.MemoryDb

/-!
# Pending funding: the validator's view against the precompile's

A position owes `(cumulativePremiumFraction - lastPremiumFraction) * size / 1e18` of funding. The in-memory
database stores it in `UnrealisedFunding` on two paths: `UpdateUnrealisedFunding` computes it with
`calcPendingFunding`, which moves a negative product up by `1e18 - 1` so that the division rounds toward zero, and
`UpdateLastPremiumFraction` divides with `Div1e18`, Euclidean like `math/big`, which rounds down. The precompile
(`Bibliophile.getPendingFundingPayment`) divides with `Div1e18` as well.

`roundTowardZero_ediv_eq_iff`: the two roundings agree exactly when the product is non-negative or a multiple of
`1e18`. So `UpdateLastPremiumFraction` stores what the precompile computes (`unrealisedFunding_updateLastPremiumFraction`)
and `UpdateUnrealisedFunding` does so only on those products (`pendingFunding_agrees_iff`): a short position
owing a fraction of a unit is charged one unit less in memory than on chain.
-/

namespace Hubblenet

open Go Lib

/-- The division of `calcPendingFunding`: a negative dividend is moved up by `1e18 - 1` before `Div1e18`. -/
def roundTowardZeroDiv1e18 (result : Int) : Int :=
  div1e18 (if result < 0 then result + (10 ^ 18 - 1) else result)

/-- `calcPendingFunding`; a nil fraction reads as zero, a nil or zero size owes nothing. -/
def calcPendingFunding (cumulativePremiumFraction lastPremiumFraction size : Option Int) : Int :=
  match size with
  | none => 0
  | some size =>
    if size = 0 then 0
    else roundTowardZeroDiv1e18 ((cumulativePremiumFraction.getD 0 - lastPremiumFraction.getD 0) * size)

/-- Rounding toward zero and rounding down agree on the non-negative dividends and on the multiples of `1e18`. -/
theorem roundTowardZero_ediv_eq_iff (x : Int) :
    roundTowardZeroDiv1e18 x = div1e18 x ↔ 0 ≤ x ∨ 10 ^ 18 ∣ x := by
  unfold roundTowardZeroDiv1e18 div1e18
  have hd : (10 : Int) ^ 18 = 1000000000000000000 := by norm_num
  split_ifs with hx
  · -- `x + 1e18 - 1` reaches the next multiple of `1e18` unless `x` is one
    rw [hd]
    omega
  · exact iff_of_true rfl (.inl (by omega))

namespace Bibliophile

/-- `getPendingFundingPayment`: the funding a trader owes in a market, from the AMM's cumulative premium fraction
and the trader's last premium fraction and size, as storage holds them. -/
def getPendingFundingPayment (cumulativePremiumFraction lastPremiumFraction size : Int) : Int :=
  div1e18 ((cumulativePremiumFraction - lastPremiumFraction) * size)

end Bibliophile

namespace InMemoryDatabase

variable (db : InMemoryDatabase)

/-- The `UnrealisedFunding` stored for a trader's position in a market, if there is one. -/
def unrealisedFundingOf (trader : Address) (market : Market) : Option Int :=
  ((db.traderMap.lookup trader).bind fun t => t.positions.lookup market).bind (·.unrealisedFunding)

/-- `UpdateUnrealisedFunding`: record the market's fraction, and refresh the funding of every trader's position in
the market. -/
def updateUnrealisedFunding (market : Market) (cumulativePremiumFraction : Int) : InMemoryDatabase :=
  let refresh (t : Trader) : Trader :=
    match t.positions.lookup market with
    | none => t
    | some position =>
      { t with
        positions := t.positions.insert market
          { position with
            unrealisedFunding :=
              some (calcPendingFunding (some cumulativePremiumFraction) position.lastPremiumFraction position.size) } }
  { db with
    cumulativePremiumFraction := db.cumulativePremiumFraction.insert market cumulativePremiumFraction
    traderMap := mapVals refresh db.traderMap }

/-- `UpdateLastPremiumFraction`: a trader or a position seen for the first time starts blank; the funding is
computed from the position's size, and a position without one panics after its fraction was written. -/
def updateLastPremiumFraction (market : Market) (trader : Address) (lastPremiumFraction cumulativePremiumFraction : Int) :
    Outcome InMemoryDatabase :=
  let t := (db.traderMap.lookup trader).getD getBlankTrader
  let position : Position := (t.positions.lookup market).getD ⟨none, none, none, none, none⟩
  let position := { position with lastPremiumFraction := some lastPremiumFraction }
  let write (p : Position) : InMemoryDatabase :=
    { db with traderMap := db.traderMap.insert trader { t with positions := t.positions.insert market p } }
  match position.size with
  | none => ⟨write position, some .nilDereference⟩
  | some size =>
    ⟨write { position with
        unrealisedFunding := some (div1e18 ((cumulativePremiumFraction - lastPremiumFraction) * size)) }, none⟩

variable {db}

/-- After `UpdateUnrealisedFunding`, a position of the market holds `calcPendingFunding` of its fraction and
size. -/
theorem unrealisedFundingOf_updateUnrealisedFunding {market : Market} {c : Int} {trader : Address} {t : Trader}
    {position : Position} (ht : db.traderMap.lookup trader = some t) (hp : t.positions.lookup market = some position) :
    (db.updateUnrealisedFunding market c).unrealisedFundingOf trader market =
      some (calcPendingFunding (some c) position.lastPremiumFraction position.size) := by
  simp [unrealisedFundingOf, updateUnrealisedFunding, ht, hp]

/-- After `UpdateLastPremiumFraction` of a position with a size, the position holds what the precompile computes
from the same values. -/
theorem unrealisedFunding_updateLastPremiumFraction {market : Market} {trader : Address} {l c s : Int}
    (hs : (((db.traderMap.lookup trader).getD getBlankTrader).positions.lookup market).bind (·.size) = some s) :
    (db.updateLastPremiumFraction market trader l c).panic = none ∧
      (db.updateLastPremiumFraction market trader l c).state.unrealisedFundingOf trader market =
        some (Bibliophile.getPendingFundingPayment c l s) := by
  cases hp : ((db.traderMap.lookup trader).getD getBlankTrader).positions.lookup market with
  | none => simp [hp] at hs
  | some position =>
    rw [hp, Option.bind_some] at hs
    simp [updateLastPremiumFraction, unrealisedFundingOf, hp, hs, Bibliophile.getPendingFundingPayment]

/-- **The in-memory funding against the precompile's**: for a position of fraction `l` and size `s`, what
`UpdateUnrealisedFunding` stores at the market's fraction `c` is the precompile's pending funding exactly when
`(c - l) * s` is non-negative or a multiple of `1e18`; what `UpdateLastPremiumFraction` stores always is. -/
theorem pendingFunding_agrees_iff (db : InMemoryDatabase) (market : Market) (trader : Address) (t : Trader)
    (position : Position) (c l s : Int) (ht : db.traderMap.lookup trader = some t)
    (hp : t.positions.lookup market = some position) (hl : position.lastPremiumFraction = some l)
    (hs : position.size = some s) :
    ((db.updateUnrealisedFunding market c).unrealisedFundingOf trader market =
        some (Bibliophile.getPendingFundingPayment c l s) ↔ 0 ≤ (c - l) * s ∨ 10 ^ 18 ∣ (c - l) * s) ∧
      (db.updateLastPremiumFraction market trader l c).state.unrealisedFundingOf trader market =
        some (Bibliophile.getPendingFundingPayment c l s) := by
  refine ⟨?_, (unrealisedFunding_updateLastPremiumFraction (by simp [ht, hp, hs])).2⟩
  rw [unrealisedFundingOf_updateUnrealisedFunding ht hp, hl, hs, Option.some.injEq, calcPendingFunding,
    Bibliophile.getPendingFundingPayment, Option.getD_some, Option.getD_some]
  split_ifs with hzero
  · -- a flat position owes nothing on either side
    subst hzero
    exact iff_of_true (by simp [div1e18]) (.inl (by simp))
  · exact roundTowardZero_ediv_eq_iff _

/-- A trader `7` whose position in market `0` has size `1` and fraction `1`. -/
def fundingBook : InMemoryDatabase :=
  { newInMemoryDatabase with
    traderMap := AList.singleton 7 { getBlankTrader with positions := AList.singleton 0 ⟨some 0, some 1, none, some 1, none⟩ } }

/-- At the market's fraction `0` the position owes `-1e-18` of a unit: the in-memory database stores `0`, the
precompile computes `-1`. -/
theorem pendingFunding_short_fraction :
    ¬ (0 ≤ ((0 : Int) - 1) * 1 ∨ (10 : Int) ^ 18 ∣ ((0 : Int) - 1) * 1) ∧
      (fundingBook.updateUnrealisedFunding 0 0).unrealisedFundingOf 7 0 = some 0 ∧
      Bibliophile.getPendingFundingPayment 0 1 1 = -1 ∧
      (fundingBook.updateUnrealisedFunding 0 0).unrealisedFundingOf 7 0 ≠
        some (Bibliophile.getPendingFundingPayment 0 1 1) := by
  have h := pendingFunding_agrees_iff fundingBook 0 7 _ _ 0 1 1 rfl rfl rfl rfl
  have hnot : ¬ (0 ≤ ((0 : Int) - 1) * 1 ∨ (10 : Int) ^ 18 ∣ ((0 : Int) - 1) * 1) := by decide
  refine ⟨hnot, ?_, by decide, fun heq => hnot (h.1.mp heq)⟩
  rw [unrealisedFundingOf_updateUnrealisedFunding rfl rfl]
  decide

end InMemoryDatabase

end Hubblenet
