import Hubblenet.Orderbook.Funding

/-!
# Liquidation thresholds and the positions to liquidate

`UpdatePosition` keeps, beside each position's size, a liquidation threshold: how much of the position one
liquidation may take. An ordinary update (`PositionModified`) recomputes it from the market's max liquidation ratio
and min size (`getLiquidationThreshold`); a liquidation (`PositionLiquidated`) keeps it; both then clip it to the
new size, with the size's sign. `determinePositionToLiquidate` turns the threshold of a trader's open position into
a `LiquidablePosition`, rounded down to a multiple of the min size.

* `liquidationThreshold_updatePosition`, `size_updatePosition`: what one update leaves; `updatePosition_spec` also
  says that only a liquidation of a position without a threshold panics.
* `thresholdInv_updatePosition` (one update) and `thresholdInv_updatePositions` (a run): the threshold has the
  size's sign, is at most the size and, on an open position, at least the min size, as long as every size is a
  multiple of the min size and every liquidation finds the position open.
* `liquidation_of_flat_position_zero_threshold`: a liquidation of a flat position leaves an open position with a zero
  threshold.
* `determinePositionToLiquidate_ok`: on a trader whose positions keep the invariant, the position to liquidate is a
  non-zero multiple of the min size, at most the position, with its sign.
* `determinePositionToLiquidate_last_open`: the loop has no `break`, so the position it returns is in the last of
  the markets where the trader is open, not the first its comment names (`liquidates_last_open_market`).
-/

namespace Hubblenet

open Go Lib

namespace Utils

/-- `utils.BigIntMax`. -/
def bigIntMax (x y : Int) : Int := if x > y then x else y

/-- `utils.BigIntMinAbs`: the smaller of the magnitudes. -/
def bigIntMinAbs (x y : Int) : Int := if |x| < |y| then |x| else |y|

@[simp] theorem bigIntMax_eq_max (x y : Int) : bigIntMax x y = max x y := by
  unfold bigIntMax
  split_ifs with h
  · exact (max_eq_left h.le).symm
  · exact (max_eq_right (not_lt.mp h)).symm

@[simp] theorem bigIntMinAbs_eq_min (x y : Int) : bigIntMinAbs x y = min |x| |y| := by
  unfold bigIntMinAbs
  split_ifs with h
  · exact (min_eq_left h.le).symm
  · exact (min_eq_right (not_lt.mp h)).symm

end Utils

/-- `getLiquidationThreshold`: the larger of `maxLiquidationRatio` (a fraction scaled by `1e6`) of the size and the
min size, with the size's sign. -/
def getLiquidationThreshold (maxLiquidationRatio minSizeRequirement size : Int) : Int :=
  let absSize := |size|
  let maxLiquidationSize := div1e6 (absSize * maxLiquidationRatio)
  let liquidationThreshold := Utils.bigIntMax maxLiquidationSize minSizeRequirement
  liquidationThreshold * size.sign

/-- A call `UpdatePosition(trader, market, size, openNotional, isLiquidation, _)`: `isLiquidation` for
`PositionLiquidated`, not for `PositionModified`. -/
structure PositionUpdate where
  size : Int
  openNotional : Int
  isLiquidation : Bool
  deriving DecidableEq, Repr

/-! ## The threshold invariant -/

/-- The threshold of a position against its size, in a market of min size `minSize`: both are set, the threshold
has the size's sign, is at most the size and, while the position is open, at least `minSize`. -/
def ThresholdInv (minSize : Int) (p : Position) : Prop :=
  ∃ size T, p.size = some size ∧ p.liquidationThreshold = some T ∧ T.sign = size.sign ∧ |T| ≤ |size| ∧
    (size ≠ 0 → minSize ≤ |T|)

section Threshold

variable {minSize T size : Int}

/-- Clipping to a multiple of a positive min size gives the size's sign, at most the size, and keeps the min size
while the size is not zero, if the threshold clipped did. -/
theorem clip_thresholdInv (hmin : 0 < minSize) (hdvd : minSize ∣ size) (hT : size ≠ 0 → minSize ≤ |T|) :
    (min |T| |size| * size.sign).sign = size.sign ∧ |min |T| |size| * size.sign| ≤ |size| ∧
      (size ≠ 0 → minSize ≤ |min |T| |size| * size.sign|) := by
  rcases eq_or_ne size 0 with rfl | hsize
  · simp
  · -- a non-zero multiple of `minSize` is at least `minSize`
    have hle : minSize ≤ |size| := Int.le_of_dvd (abs_pos.mpr hsize) ((dvd_abs _ _).mpr hdvd)
    have hclip : minSize ≤ min |T| |size| := le_min (hT hsize) hle
    have habs : |min |T| |size| * size.sign| = min |T| |size| := by
      rw [abs_mul, Int.abs_sign_of_ne_zero hsize, mul_one, abs_of_nonneg (by omega)]
    refine ⟨?_, ?_, fun _ => ?_⟩
    · rw [Int.sign_mul, Int.sign_eq_one_iff_pos.mpr (by omega), one_mul, Int.sign_sign]
    · rw [habs]
      exact min_le_right _ _
    · rw [habs]
      exact hclip

/-- An open position's fresh threshold is the larger of its share and the min size. -/
theorem abs_getLiquidationThreshold {maxLiquidationRatio : Int} (hmin : 0 < minSize) (hsize : size ≠ 0) :
    |getLiquidationThreshold maxLiquidationRatio minSize size| = max (div1e6 (|size| * maxLiquidationRatio)) minSize := by
  unfold getLiquidationThreshold
  dsimp only
  rw [Utils.bigIntMax_eq_max, abs_mul, Int.abs_sign_of_ne_zero hsize, mul_one,
    abs_of_pos (lt_of_lt_of_le hmin (le_max_right _ _))]

end Threshold

namespace InMemoryDatabase

variable (db : InMemoryDatabase)

/-- The position of a trader in a market, if the database holds one. -/
def positionOf (trader : Address) (market : Market) : Option Position :=
  (db.traderMap.lookup trader).bind fun t => t.positions.lookup market

/-- `UpdatePosition`. A trader or a position seen for the first time starts blank (a position with every field
nil), and a market without a cumulative premium fraction gets `0`. A position that was flat takes the market's
fraction and no funding. An ordinary update recomputes the threshold and a liquidation keeps it; either way it is
then clipped to the new size, with the size's sign, in place: clipping a nil threshold panics, after the size was
written. -/
def updatePosition (cs : ConfigService) (trader : Address) (market : Market) (size openNotional : Int)
    (isLiquidation : Bool) : Outcome InMemoryDatabase :=
  let t := (db.traderMap.lookup trader).getD getBlankTrader
  let position : Position := (t.positions.lookup market).getD ⟨none, none, none, none, none⟩
  let cumulativePremiumFraction :=
    if (db.cumulativePremiumFraction.lookup market).isSome then db.cumulativePremiumFraction
    else db.cumulativePremiumFraction.insert market 0
  let position :=
    if position.size.getD 0 = 0 then
      { position with
        lastPremiumFraction := some ((cumulativePremiumFraction.lookup market).getD 0)
        unrealisedFunding := some 0 }
    else position
  let position := { position with size := some size, openNotional := some openNotional }
  let position :=
    if !isLiquidation then
      { position with
        liquidationThreshold := some (getLiquidationThreshold (cs.getMaxLiquidationRatio market)
          (cs.getMinSizeRequirement market) size) }
    else position
  let write (p : Position) : InMemoryDatabase :=
    { db with
      cumulativePremiumFraction
      traderMap := db.traderMap.insert trader { t with positions := t.positions.insert market p } }
  match position.liquidationThreshold with
  | none => ⟨write position, some .nilDereference⟩
  | some liquidationThreshold =>
    ⟨write { position with
      liquidationThreshold := some (Utils.bigIntMinAbs liquidationThreshold size * size.sign) }, none⟩

/-- `UpdatePosition` calls on one trader and market, each on the state the one before left: the events processor
recovers a panic and keeps the writes made before it. -/
def updatePositions (cs : ConfigService) (trader : Address) (market : Market) (updates : List PositionUpdate) :
    InMemoryDatabase :=
  updates.foldl (fun d u => (d.updatePosition cs trader market u.size u.openNotional u.isLiquidation).state) db

/-- The threshold `UpdatePosition` clips: a fresh one on an ordinary update, the stored one on a liquidation. -/
def thresholdToClip (cs : ConfigService) (trader : Address) (market : Market) (size : Int) (isLiquidation : Bool) :
    Option Int :=
  if isLiquidation then (db.positionOf trader market).bind (·.liquidationThreshold)
  else some (getLiquidationThreshold (cs.getMaxLiquidationRatio market) (cs.getMinSizeRequirement market) size)

variable {db}

/-- A trader seen for the first time has no positions. -/
theorem lookup_positions_getD (trader : Address) (market : Market) :
    ((db.traderMap.lookup trader).getD getBlankTrader).positions.lookup market = db.positionOf trader market := by
  cases h : db.traderMap.lookup trader <;> simp [positionOf, getBlankTrader, h]

section Update

variable {cs : ConfigService} {trader : Address} {market : Market} {size openNotional : Int} {isLiquidation : Bool}

/-- **One update**: the position holds the new size and the clipped threshold, and the update panics exactly when
there is no threshold to clip. -/
theorem updatePosition_spec :
    ∃ p, (db.updatePosition cs trader market size openNotional isLiquidation).state.positionOf trader market =
        some p ∧ p.size = some size ∧
      p.liquidationThreshold = (db.thresholdToClip cs trader market size isLiquidation).map
        (fun T => min |T| |size| * size.sign) ∧
      ((db.updatePosition cs trader market size openNotional isLiquidation).panic = none ↔
        (db.thresholdToClip cs trader market size isLiquidation).isSome) := by
  unfold updatePosition thresholdToClip
  dsimp only
  simp only [lookup_positions_getD]
  cases isLiquidation with
  | false =>
    -- an ordinary update always has a threshold to clip
    simp [positionOf]
  | true =>
    -- the funding reset of a flat position leaves its threshold as it was
    cases hp : db.positionOf trader market <;> split <;> simp_all [positionOf] <;> split_ifs at * <;> simp_all

theorem size_updatePosition :
    ((db.updatePosition cs trader market size openNotional isLiquidation).state.positionOf trader market).bind
      (·.size) = some size := by
  obtain ⟨p, hp, hsize, -⟩ := @updatePosition_spec db cs trader market size openNotional
    isLiquidation
  simp [hp, hsize]

theorem liquidationThreshold_updatePosition :
    ((db.updatePosition cs trader market size openNotional isLiquidation).state.positionOf trader market).bind
        (·.liquidationThreshold) =
      (db.thresholdToClip cs trader market size isLiquidation).map (fun T => min |T| |size| * size.sign) := by
  obtain ⟨p, hp, -, hT, -⟩ := @updatePosition_spec db cs trader market size openNotional
    isLiquidation
  simp [hp, hT]

/-- An update leaves the trader's other positions alone. -/
theorem positionOf_updatePosition_of_ne {market' : Market} (h : market' ≠ market) :
    (db.updatePosition cs trader market size openNotional isLiquidation).state.positionOf trader market' =
      db.positionOf trader market' := by
  unfold updatePosition
  dsimp only
  split <;> simp [positionOf, AList.lookup_insert_ne h] <;> cases db.traderMap.lookup trader <;>
    simp [getBlankTrader]

/-- **The invariant, one update**: with a positive min size, a size that is a multiple of it, and a liquidation
only of an open position, `UpdatePosition` does not panic and keeps `ThresholdInv`. -/
theorem thresholdInv_updatePosition (hmin : 0 < cs.getMinSizeRequirement market)
    (hdvd : cs.getMinSizeRequirement market ∣ size)
    (hinv : ∀ p, db.positionOf trader market = some p → ThresholdInv (cs.getMinSizeRequirement market) p)
    (hopen : isLiquidation = true → ∃ s, (db.positionOf trader market).bind (·.size) = some s ∧ s ≠ 0) :
    (db.updatePosition cs trader market size openNotional isLiquidation).panic = none ∧
      ∀ p, (db.updatePosition cs trader market size openNotional isLiquidation).state.positionOf trader market =
        some p → ThresholdInv (cs.getMinSizeRequirement market) p := by
  -- the threshold to clip exists and keeps the min size on an open position
  obtain ⟨T, hclip, hT⟩ : ∃ T, db.thresholdToClip cs trader market size isLiquidation = some T ∧
      (size ≠ 0 → cs.getMinSizeRequirement market ≤ |T|) := by
    cases isLiquidation with
    | false =>
      refine ⟨_, rfl, fun hsize => ?_⟩
      rw [abs_getLiquidationThreshold hmin hsize]
      exact le_max_right _ _
    | true =>
      obtain ⟨s, hs, hs0⟩ := hopen rfl
      obtain ⟨p, hp, hps⟩ := Option.bind_eq_some_iff.mp hs
      obtain ⟨size₀, T₀, hsize₀, hT₀, -, -, hmin₀⟩ := hinv p hp
      rw [hsize₀, Option.some_inj] at hps
      subst hps
      exact ⟨T₀, by simp [thresholdToClip, hp, hT₀], fun _ => hmin₀ hs0⟩
  obtain ⟨p, hp, hsize, hpT, hpanic⟩ := @updatePosition_spec db cs trader market size
    openNotional isLiquidation
  refine ⟨hpanic.mpr (by simp [hclip]), fun p' hp' => ?_⟩
  rw [hp, Option.some_inj] at hp'
  subst hp'
  obtain ⟨hsign, hle, hkeep⟩ := clip_thresholdInv hmin hdvd hT
  exact ⟨size, _, hsize, by rw [hpT, hclip]; rfl, hsign, hle, hkeep⟩

end Update

theorem updatePositions_cons (cs : ConfigService) (trader : Address) (market : Market) (u : PositionUpdate)
    (us : List PositionUpdate) :
    db.updatePositions cs trader market (u :: us) =
      (db.updatePosition cs trader market u.size u.openNotional u.isLiquidation).state.updatePositions cs trader
        market us :=
  rfl

/-- Every liquidation in `updates` finds the position open: the size before it (`size` before the first) is set and
not zero. -/
def liquidatesOpen : Option Int → List PositionUpdate → Bool
  | _, [] => true
  | size, u :: us => (!u.isLiquidation || size.any (· != 0)) && liquidatesOpen (some u.size) us

/-- **The invariant over a run**: `UpdatePosition` calls whose sizes are multiples of a positive min size, and
whose liquidations find the position open, keep `ThresholdInv`. -/
theorem thresholdInv_updatePositions {cs : ConfigService} {trader : Address} {market : Market}
    (hmin : 0 < cs.getMinSizeRequirement market) :
    ∀ {updates : List PositionUpdate} {db : InMemoryDatabase},
      (∀ u ∈ updates, cs.getMinSizeRequirement market ∣ u.size) →
      (∀ p, db.positionOf trader market = some p → ThresholdInv (cs.getMinSizeRequirement market) p) →
      liquidatesOpen ((db.positionOf trader market).bind (·.size)) updates = true →
      ∀ p, (db.updatePositions cs trader market updates).positionOf trader market = some p →
        ThresholdInv (cs.getMinSizeRequirement market) p
  | [], _, _, hinv, _ => hinv
  | u :: us, db, hdvd, hinv, hopen => by
    simp only [liquidatesOpen, Bool.and_eq_true, Bool.or_eq_true, Bool.not_eq_true'] at hopen
    obtain ⟨hfirst, hrest⟩ := hopen
    -- the first update keeps the invariant, and leaves the size the next liquidation finds
    have hstep := @thresholdInv_updatePosition db cs trader market u.size u.openNotional u.isLiquidation hmin
      (hdvd u List.mem_cons_self) hinv fun hliq => by
        rcases hfirst with h | h
        · exact absurd hliq (by simp [h])
        · obtain ⟨s, hs, hs0⟩ := (Option.any_eq_true _ _).mp h
          exact ⟨s, hs, by simpa using hs0⟩
    rw [← @size_updatePosition db cs trader market u.size u.openNotional u.isLiquidation] at hrest
    rw [updatePositions_cons]
    exact thresholdInv_updatePositions hmin (fun v hv => hdvd v (List.mem_cons_of_mem u hv)) hstep.2 hrest

/-- A run on one market leaves the trader's other positions alone. -/
theorem positionOf_updatePositions_of_ne {cs : ConfigService} {trader : Address} {market market' : Market}
    (h : market' ≠ market) :
    ∀ (updates : List PositionUpdate) (db : InMemoryDatabase),
      (db.updatePositions cs trader market updates).positionOf trader market' = db.positionOf trader market'
  | [], _ => rfl
  | u :: us, db => by
    rw [updatePositions_cons, positionOf_updatePositions_of_ne h us, positionOf_updatePosition_of_ne h]

end InMemoryDatabase

/-! ## The position to liquidate -/

/-- `LiquidablePosition`: a trader's position to liquidate in a market, signed like the position, and how much of it
this run has filled. -/
structure LiquidablePosition where
  address : Address
  market : Market
  size : Int
  marginFraction : Int
  filledSize : Int
  positionType : PositionType
  deriving DecidableEq, Repr

/-- `GetUnfilledSize`. -/
def LiquidablePosition.getUnfilledSize (liq : LiquidablePosition) : Int := liq.size - liq.filledSize

/-- `determinePositionToLiquidate`: the position in the last of `markets` where the trader is open (the loop runs
on past the first), of its threshold's magnitude rounded down to a multiple of the market's min size, with the
position's sign. `none` is the zero `LiquidablePosition{}` of a trader open nowhere. A nil size or threshold, a
missing min size or a zero one panic. -/
def determinePositionToLiquidate (trader : Trader) (addr : Address) (marginFraction : Int) (markets : List Market)
    (minSizes : List Int) : Except Panic (Option LiquidablePosition) :=
  loop 0 markets none
where
  /-- The loop from index `i` on, with the position found so far. -/
  loop (i : Nat) : List Market → Option LiquidablePosition → Except Panic (Option LiquidablePosition)
    | [], liquidable => .ok liquidable
    | market :: markets, liquidable =>
      match trader.positions.lookup market with
      | none => loop (i + 1) markets liquidable
      | some position =>
        match position.size with
        | none => .error .nilDereference
        | some size =>
          if size.sign = 0 then loop (i + 1) markets liquidable
          else
            match position.liquidationThreshold, minSizes[i]? with
            | none, _ => .error .nilDereference
            | some _, none => .error .indexOutOfRange
            | some liquidationThreshold, some minSize => do
              let quotient ← bigDiv |liquidationThreshold| minSize
              let liquidableSize := quotient * minSize
              loop (i + 1) markets (some
                { address := addr
                  market := market
                  size := if size.sign = -1 then -liquidableSize else liquidableSize
                  marginFraction := marginFraction
                  filledSize := 0
                  positionType := if size.sign = -1 then .short else .long })

/-- A position to liquidate of an open position of the trader, in a market `k` of `markets`: a non-zero multiple of
the market's min size, at most the position, with its sign and its side. -/
def SizedByThreshold (trader : Trader) (markets : List Market) (minSizes : List Int) (l : LiquidablePosition) :
    Prop :=
  ∃ (k : Nat) (p : Position) (size minSize : Int), markets[k]? = some l.market ∧ minSizes[k]? = some minSize ∧
    trader.positions.lookup l.market = some p ∧ p.size = some size ∧ size ≠ 0 ∧
    minSize ∣ l.size ∧ l.size ≠ 0 ∧ |l.size| ≤ |size| ∧ l.size.sign = size.sign ∧
    l.positionType = if size < 0 then .short else .long

/-- A threshold that keeps the min size, rounded down to a multiple of it and given the position's sign: a
non-zero multiple of the min size, at most the position, with its sign. -/
theorem liquidableSize_spec {T size minSize : Int} (hmin : 0 < minSize) (hsize : size ≠ 0)
    (hle : |T| ≤ |size|) (hkeep : minSize ≤ |T|) :
    minSize ∣ (if size.sign = -1 then -(|T| / minSize * minSize) else |T| / minSize * minSize) ∧
      (if size.sign = -1 then -(|T| / minSize * minSize) else |T| / minSize * minSize) ≠ 0 ∧
      |if size.sign = -1 then -(|T| / minSize * minSize) else |T| / minSize * minSize| ≤ |size| ∧
      (if size.sign = -1 then -(|T| / minSize * minSize) else |T| / minSize * minSize).sign = size.sign := by
  -- the rounded magnitude lies in `[minSize, |T|]`
  have hq : 1 ≤ |T| / minSize := (Int.le_ediv_iff_mul_le hmin).mpr (by omega)
  have hlow : minSize ≤ |T| / minSize * minSize := by nlinarith
  have hhigh : |T| / minSize * minSize ≤ |T| := Int.ediv_mul_le _ hmin.ne'
  have hdvd : minSize ∣ |T| / minSize * minSize := Dvd.intro_left _ rfl
  rcases Int.sign_trichotomy size with hs | hs | hs
  · -- a long position
    have hpos : 0 < size := Int.sign_eq_one_iff_pos.mp hs
    rw [hs, if_neg (by decide)]
    refine ⟨hdvd, by omega, ?_, Int.sign_eq_one_iff_pos.mpr (by omega)⟩
    rw [abs_of_pos (by omega)]
    exact hhigh.trans hle
  · exact absurd (Int.sign_eq_zero_iff_zero.mp hs) hsize
  · -- a short position
    rw [hs, if_pos rfl]
    refine ⟨(dvd_neg).mpr hdvd, by omega, ?_, Int.sign_eq_neg_one_iff_neg.mpr (by omega)⟩
    rw [abs_neg, abs_of_pos (by omega)]
    exact hhigh.trans hle

/-- The trader holds no open position in any of `ms`: a position there, if any, has size `0`. -/
def FlatIn (trader : Trader) (ms : List Market) : Prop :=
  ∀ m ∈ ms, ∀ q, trader.positions.lookup m = some q → q.size = some 0

/-- `market`, at index `j` of `ms`, is the last market of `ms` where the trader is open. -/
def LastOpenAt (trader : Trader) (ms : List Market) (j : Nat) (market : Market) : Prop :=
  ms[j]? = some market ∧
    (∃ p size, trader.positions.lookup market = some p ∧ p.size = some size ∧ size ≠ 0) ∧
    ∀ k, j < k → ∀ m ∈ ms[k]?, ∀ q, trader.positions.lookup m = some q → q.size = some 0

theorem LastOpenAt.cons {trader : Trader} {ms : List Market} {j : Nat} {market : Market}
    (h : LastOpenAt trader ms j market) (x : Market) : LastOpenAt trader (x :: ms) (j + 1) market := by
  obtain ⟨hj, hopen, hlater⟩ := h
  refine ⟨hj, hopen, fun k hk => ?_⟩
  obtain ⟨k, rfl⟩ : ∃ k', k = k' + 1 := ⟨k - 1, by omega⟩
  exact hlater k (by omega)

section Determine

variable {trader : Trader} {addr : Address} {marginFraction : Int} {markets : List Market} {minSizes : List Int}

/-- The loop of `determinePositionToLiquidate`, on a trader whose positions in `markets` keep the invariant with a
positive min size each: it does not panic, what it returns is sized by a threshold, and it returns nothing only
when it started with nothing and the trader is flat in every market it visits. -/
theorem determinePositionToLiquidate_loop
    (hinv : ∀ (k : Nat) (market : Market), markets[k]? = some market → ∃ minSize, minSizes[k]? = some minSize ∧ 0 < minSize ∧
      ∀ p, trader.positions.lookup market = some p → ThresholdInv minSize p) :
    ∀ (ms : List Market) (i : Nat) (acc : Option LiquidablePosition), (∀ j, ms[j]? = markets[i + j]?) →
      (∀ l, acc = some l → SizedByThreshold trader markets minSizes l) →
      ∃ r, determinePositionToLiquidate.loop trader addr marginFraction minSizes i ms acc = .ok r ∧
        (∀ l, r = some l → SizedByThreshold trader markets minSizes l) ∧
        (r = none → acc = none ∧ ∀ market ∈ ms, ∀ p, trader.positions.lookup market = some p → p.size = some 0)
  | [], _, acc, _, hacc => ⟨acc, rfl, hacc, fun h => ⟨h, by simp⟩⟩
  | market :: ms, i, acc, hms, hacc => by
    have hshift : ∀ j, ms[j]? = markets[i + 1 + j]? := fun j => by
      rw [show i + 1 + j = i + (j + 1) by omega, ← hms (j + 1)]
      rfl
    obtain ⟨minSize, hminSize, hmin, hpos⟩ := hinv i market (by simpa using (hms 0).symm)
    rw [determinePositionToLiquidate.loop]
    cases hp : trader.positions.lookup market with
    | none =>
      -- no position here: the loop moves on
      obtain ⟨r, hr, hgood, hnone⟩ := determinePositionToLiquidate_loop hinv ms (i + 1) acc hshift hacc
      refine ⟨r, hr, hgood, fun h => ⟨(hnone h).1, ?_⟩⟩
      intro m hm p hmp
      rcases List.mem_cons.mp hm with rfl | hm
      · rw [hp] at hmp
        cases hmp
      · exact (hnone h).2 m hm p hmp
    | some p =>
      obtain ⟨size, T, hsize, hT, hsign, hle, hkeep⟩ := hpos p hp
      simp only [hsize]
      by_cases hflat : size.sign = 0
      · -- a flat position: the loop moves on
        have hzero : size = 0 := Int.sign_eq_zero_iff_zero.mp hflat
        obtain ⟨r, hr, hgood, hnone⟩ := determinePositionToLiquidate_loop hinv ms (i + 1) acc hshift hacc
        refine ⟨r, by simp [hflat, hr], hgood, fun h => ⟨(hnone h).1, ?_⟩⟩
        intro m hm p' hmp
        rcases List.mem_cons.mp hm with rfl | hm
        · rw [hp, Option.some_inj] at hmp
          rw [← hmp, hsize, hzero]
        · exact (hnone h).2 m hm p' hmp
      · -- an open position: it is the one to liquidate, unless a later market has one too
        have hsize0 : size ≠ 0 := fun h => hflat (by rw [h]; rfl)
        have hspec := liquidableSize_spec hmin hsize0 hle (hkeep hsize0)
        let l : LiquidablePosition :=
          { address := addr, market := market
            size := if size.sign = -1 then -(|T| / minSize * minSize) else |T| / minSize * minSize
            marginFraction := marginFraction, filledSize := 0
            positionType := if size.sign = -1 then .short else .long }
        have hl : SizedByThreshold trader markets minSizes l := by
          refine ⟨i, p, size, minSize, by simpa using (hms 0).symm, hminSize, hp, hsize, hsize0, hspec.1, hspec.2.1,
            hspec.2.2.1, hspec.2.2.2, ?_⟩
          simp only [l, ← Int.sign_eq_neg_one_iff_neg]
        obtain ⟨r, hr, hgood, hnone⟩ := determinePositionToLiquidate_loop hinv ms (i + 1) (some l) hshift
          (fun l' hl' => by rw [Option.some_inj] at hl'; exact hl' ▸ hl)
        refine ⟨r, ?_, hgood, fun h => absurd (hnone h).1 (by simp)⟩
        simp only [if_neg hflat, hT, hminSize, bigDiv, if_neg hmin.ne', bind, Except.bind]
        exact hr

/-- **The position to liquidate**: on a trader whose positions in `markets` keep the invariant with a positive min
size each, `determinePositionToLiquidate` does not panic; what it returns is a non-zero multiple of its market's
min size, at most the position, with its sign; and it returns nothing only for a trader flat in every market. -/
theorem determinePositionToLiquidate_ok
    (hinv : ∀ (k : Nat) (market : Market), markets[k]? = some market → ∃ minSize, minSizes[k]? = some minSize ∧ 0 < minSize ∧
      ∀ p, trader.positions.lookup market = some p → ThresholdInv minSize p) :
    ∃ r, determinePositionToLiquidate trader addr marginFraction markets minSizes = .ok r ∧
      (∀ l, r = some l → SizedByThreshold trader markets minSizes l) ∧
      (r = none → ∀ market ∈ markets, ∀ p, trader.positions.lookup market = some p → p.size = some 0) := by
  obtain ⟨r, hr, hgood, hnone⟩ := @determinePositionToLiquidate_loop trader addr marginFraction markets
    minSizes hinv markets 0 none (fun j => by rw [Nat.zero_add]) (fun _ h => by cases h)
  exact ⟨r, hr, hgood, fun h => (hnone h).2⟩

/-- The loop returns the position it started with, past markets where the trader is flat, or that of the last
market where the trader is open. -/
theorem determinePositionToLiquidate_loop_eq_some {l : LiquidablePosition} :
    ∀ (ms : List Market) (i : Nat) (acc : Option LiquidablePosition),
      determinePositionToLiquidate.loop trader addr marginFraction minSizes i ms acc = .ok (some l) →
      (acc = some l ∧ FlatIn trader ms) ∨ ∃ j, LastOpenAt trader ms j l.market
  | [], _, acc, h => .inl ⟨by cases h; rfl, by simp [FlatIn]⟩
  | market :: ms, i, acc, h => by
    rw [determinePositionToLiquidate.loop] at h
    -- a flat market leaves the result to the rest of the list
    have hflat : (∀ q, trader.positions.lookup market = some q → q.size = some 0) →
        determinePositionToLiquidate.loop trader addr marginFraction minSizes (i + 1) ms acc = .ok (some l) →
        (acc = some l ∧ FlatIn trader (market :: ms)) ∨ ∃ j, LastOpenAt trader (market :: ms) j l.market := by
      intro hm hrest
      rcases determinePositionToLiquidate_loop_eq_some ms (i + 1) acc hrest with ⟨hacc, hms⟩ | ⟨j, hj⟩
      · exact .inl ⟨hacc, List.forall_mem_cons.mpr ⟨hm, hms⟩⟩
      · exact .inr ⟨j + 1, hj.cons market⟩
    cases hp : trader.positions.lookup market with
    | none =>
      simp only [hp] at h
      exact hflat (fun q hq => by simp [hp] at hq) h
    | some position =>
      simp only [hp] at h
      cases hs : position.size with
      | none => simp [hs] at h
      | some size =>
        simp only [hs] at h
        by_cases h0 : size.sign = 0
        · rw [if_pos h0] at h
          have : size = 0 := Int.sign_eq_zero_iff_zero.mp h0
          exact hflat (fun q hq => by simp_all) h
        · rw [if_neg h0] at h
          split at h
          · cases h
          · cases h
          rename_i T minSize _ _
          cases hq : bigDiv |T| minSize with
          | error e => simp [hq, bind, Except.bind] at h
          | ok quotient =>
            simp only [hq, bind, Except.bind] at h
            -- the market is open: it is the result unless a later one is
            rcases determinePositionToLiquidate_loop_eq_some ms (i + 1) _ h with ⟨hacc, hms⟩ | ⟨j, hj⟩
            · cases hacc
              refine .inr ⟨0, rfl, ⟨position, size, hp, hs, fun h' => h0 (by simp [h'])⟩, fun k hk m hm => ?_⟩
              obtain ⟨k, rfl⟩ : ∃ k', k = k' + 1 := ⟨k - 1, by omega⟩
              exact hms m (List.mem_of_getElem? (show ms[k]? = some m from hm))
            · exact .inr ⟨j + 1, hj.cons market⟩

/-- **`determinePositionToLiquidate` liquidates the last open market.** Whatever the markets and min sizes, a
position it returns is in a market where the trader is open, and the trader is flat in every market after it. -/
theorem determinePositionToLiquidate_last_open {l : LiquidablePosition}
    (h : determinePositionToLiquidate trader addr marginFraction markets minSizes = .ok (some l)) :
    ∃ j, LastOpenAt trader markets j l.market := by
  rcases determinePositionToLiquidate_loop_eq_some markets 0 none h with ⟨hacc, -⟩ | hlast
  · cases hacc
  · exact hlast

end Determine

open InMemoryDatabase in
/-- **The threshold over a run of updates, and the position to liquidate.** Let every market's min size be
positive, every size of a run of `UpdatePosition` calls on a trader and market be a multiple of the market's, and
every liquidation in it find the position open, from a state where the trader's positions keep `ThresholdInv`.
Then after the run the position keeps it (the threshold has the size's sign, is at most the size and at least the
min size while open); an ordinary update sets it to `min(|size|, max(|size| * r / 1e6, s))` with the size's sign;
and `determinePositionToLiquidate` over any markets, with their min sizes, does not panic and returns a position
that is a non-zero multiple of its market's min size, at most the position and with its sign, or nothing when the
trader is flat in every one. -/
theorem liquidationThreshold_invariant (cs : ConfigService) (trader : Address) (market : Market)
    (updates : List PositionUpdate) (db : InMemoryDatabase) (markets : List Market) (marginFraction : Int)
    (hmin : ∀ m, 0 < cs.getMinSizeRequirement m)
    (hdvd : ∀ u ∈ updates, cs.getMinSizeRequirement market ∣ u.size)
    (hinit : ∀ m p, db.positionOf trader m = some p → ThresholdInv (cs.getMinSizeRequirement m) p)
    (hopen : liquidatesOpen ((db.positionOf trader market).bind (·.size)) updates = true) :
    (∀ p, (db.updatePositions cs trader market updates).positionOf trader market = some p →
      ThresholdInv (cs.getMinSizeRequirement market) p) ∧
    (∀ size openNotional,
      ((db.updatePosition cs trader market size openNotional false).state.positionOf trader market).bind
          (·.liquidationThreshold) =
        some (min |size| (max (div1e6 (|size| * cs.getMaxLiquidationRatio market)) (cs.getMinSizeRequirement market)) *
          size.sign)) ∧
    ∃ r, determinePositionToLiquidate
        (((db.updatePositions cs trader market updates).traderMap.lookup trader).getD getBlankTrader) trader
        marginFraction markets (markets.map cs.getMinSizeRequirement) = .ok r ∧
      (∀ l, r = some l → SizedByThreshold
        (((db.updatePositions cs trader market updates).traderMap.lookup trader).getD getBlankTrader) markets
        (markets.map cs.getMinSizeRequirement) l) ∧
      (r = none → ∀ m ∈ markets, ∀ p,
        (((db.updatePositions cs trader market updates).traderMap.lookup trader).getD getBlankTrader).positions.lookup
          m = some p → p.size = some 0) := by
  have hrun := thresholdInv_updatePositions (hmin market) hdvd (hinit market) hopen
  refine ⟨hrun, fun size openNotional => ?_, ?_⟩
  · -- an ordinary update: the fresh threshold, clipped
    rw [liquidationThreshold_updatePosition]
    simp only [thresholdToClip, Bool.false_eq_true, if_false, Option.map_some]
    rcases eq_or_ne size 0 with rfl | hsize
    · simp
    · rw [abs_getLiquidationThreshold (hmin market) hsize, min_comm]
  · -- every position of the trader keeps the invariant: the run's market by the run, the others untouched
    apply determinePositionToLiquidate_ok
    intro k m hk
    refine ⟨cs.getMinSizeRequirement m, by simp [hk], hmin m, fun p hp => ?_⟩
    rw [lookup_positions_getD] at hp
    by_cases hm : m = market
    · subst hm
      exact hrun p hp
    · rw [positionOf_updatePositions_of_ne hm] at hp
      exact hinit m p hp

/-- Min size `1` in every market, ratio `0`. -/
def unitMinSize : ConfigService := { getMinSizeRequirement := fun _ => 1 }

/-- A position opened to `2` and then liquidated to `1`: its threshold is `1`, and the position to liquidate is
`1`. -/
theorem liquidationThreshold_invariant_sample :
    (∀ p, (newInMemoryDatabase.updatePositions unitMinSize 7 0 [⟨2, 0, false⟩, ⟨1, 0, true⟩]).positionOf 7 0 =
        some p → ThresholdInv (unitMinSize.getMinSizeRequirement 0) p) ∧
    (∀ size openNotional,
      ((newInMemoryDatabase.updatePosition unitMinSize 7 0 size openNotional false).state.positionOf 7 0).bind
          (·.liquidationThreshold) =
        some (min |size| (max (div1e6 (|size| * unitMinSize.getMaxLiquidationRatio 0))
          (unitMinSize.getMinSizeRequirement 0)) * size.sign)) ∧
    ∃ r, determinePositionToLiquidate
        (((newInMemoryDatabase.updatePositions unitMinSize 7 0 [⟨2, 0, false⟩, ⟨1, 0, true⟩]).traderMap.lookup
          7).getD getBlankTrader) 7 0 [0] ([0].map unitMinSize.getMinSizeRequirement) = .ok r ∧
      (∀ l, r = some l → SizedByThreshold
        (((newInMemoryDatabase.updatePositions unitMinSize 7 0 [⟨2, 0, false⟩, ⟨1, 0, true⟩]).traderMap.lookup
          7).getD getBlankTrader) [0] ([0].map unitMinSize.getMinSizeRequirement) l) ∧
      (r = none → ∀ m ∈ [0], ∀ p,
        (((newInMemoryDatabase.updatePositions unitMinSize 7 0 [⟨2, 0, false⟩, ⟨1, 0, true⟩]).traderMap.lookup
          7).getD getBlankTrader).positions.lookup m = some p → p.size = some 0) :=
  liquidationThreshold_invariant unitMinSize 7 0 _ newInMemoryDatabase [0] 0 (fun _ => Int.one_pos)
    (by decide) (fun _ _ h => by simp [InMemoryDatabase.positionOf, newInMemoryDatabase] at h) (by decide)

/-- Without the open-position condition: a position closed to `0`, then liquidated to `1`, is open with a zero
threshold, and the position to liquidate is `0`. -/
theorem liquidation_of_flat_position_zero_threshold :
    (newInMemoryDatabase.updatePositions unitMinSize 7 0 [⟨0, 0, false⟩, ⟨1, 0, true⟩]).positionOf 7 0 =
        some ⟨some 0, some 1, some 0, some 0, some 0⟩ ∧
      ¬ ThresholdInv 1 ⟨some 0, some 1, some 0, some 0, some 0⟩ ∧
      determinePositionToLiquidate
          (((newInMemoryDatabase.updatePositions unitMinSize 7 0 [⟨0, 0, false⟩, ⟨1, 0, true⟩]).traderMap.lookup
            7).getD getBlankTrader) 7 0 [0] [1] = .ok (some ⟨7, 0, 0, 0, 0, .long⟩) := by
  refine ⟨by decide, ?_, by decide⟩
  rintro ⟨size, T, hsize, hT, -, -, hkeep⟩
  cases hsize
  cases hT
  exact absurd (hkeep one_ne_zero) (by decide)

/-- A trader long `2`, with threshold `2`, in markets `0` and `1`. -/
def twoMarketTrader : Trader where
  positions :=
    (AList.singleton 0 ⟨some 0, some 2, some 0, some 0, some 2⟩).insert 1 ⟨some 0, some 2, some 0, some 0, some 2⟩
  margin := getBlankTrader.margin

/-- Open in markets `0` and `1`, the trader is liquidated in market `1`, the last of them. -/
theorem liquidates_last_open_market :
    determinePositionToLiquidate twoMarketTrader 7 0 [0, 1] [1, 1] = .ok (some ⟨7, 1, 2, 0, 0, .long⟩) ∧
      (∃ j, LastOpenAt twoMarketTrader [0, 1] j 1) ∧
      ∃ p size, twoMarketTrader.positions.lookup 0 = some p ∧ p.size = some size ∧ size ≠ 0 := by
  have hrun :
      determinePositionToLiquidate twoMarketTrader 7 0 [0, 1] [1, 1] = .ok (some ⟨7, 1, 2, 0, 0, .long⟩) := by
    decide
  exact ⟨hrun, determinePositionToLiquidate_last_open hrun, _, 2, rfl, rfl, by decide⟩

end Hubblenet
