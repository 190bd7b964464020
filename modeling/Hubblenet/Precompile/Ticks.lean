import Hubblenet.Lib.Loop
import Hubblenet.Orderbook.MarginMath
import Hubblenet.Precompile.Bibliophile

/-!
# The ticks precompile

`ticks/logic.go` walks the bids and asks lists that an AMM keeps in its storage: a head price, and for each
price the next one, `0` ending the list. `GetPrevTick` finds the last price of a list before a given tick;
`_sampleImpactBid` and `_sampleImpactAsk` average the prices a notional would fill at; `_sampleBid` and
`_sampleAsk` the prices a base quantity would fill at. Each loop of the source is `Lib.loop` over its body, run
for at most `fuel` passes, and a function returns `none` when its loop did not end within them.

The loops end only when the list does: nothing checks that the AMM address of the call is a market, and any
contract can store a list with a cycle at its own address. Then no number of passes is enough
(`getPrevTick_bid_eq_none` and the like, from `Lib.loop_eq_none`). On the lists the order book keeps, descending
bids and ascending asks of storage words, every function returns within `2 ^ 256 + 1` passes
(`ticks_end_of_sorted`, from `Lib.loop_of_variant`), and `GetPrevTick` returns the neighbour of the tick
(`getPrevTick_bid_of_sorted`, `getPrevTick_ask_of_sorted`, from `Lib.loop_invariant`).

Given the lists themselves (`StoredBids`, `StoredAsks`: linked from the heads, strictly sorted, positive), the walks
end within one pass more than the list is long, at the one level that straddles the tick, and `GetPrevTick` fails
exactly on its guards (`getPrevTick_neighbour`, from `Lib.loop_of_listedFrom` and `Lib.ListedFrom.next_rel`).
-/

namespace Hubblenet.Ticks

open Lib Go

/-- `GetPrevTickInput`, the arguments of `getPrevTick`. -/
structure GetPrevTickInput where
  amm : Address
  isBid : Bool
  tick : Int
  deriving DecidableEq, Repr

/-- The variables of the loops of the samplers: the price reached, and the notional and base quantity before it. -/
structure TickWalk where
  tick : Int
  accNotional : Int
  accBaseQ : Int
  deriving DecidableEq, Repr

section Model

variable (bibliophile : BibliophileClient)

/-! ## `GetPrevTick` -/

/-- One pass of the bids loop of `GetPrevTick`: stop at `currentTick` once the next bid is at or below the tick. -/
def prevBidPass (input : GetPrevTickInput) (currentTick : Int) : ForInStep Int :=
  let nextTick := bibliophile.getNextBidPrice input.amm currentTick
  if nextTick ≤ input.tick then .done currentTick else .yield nextTick

/-- One pass of the asks loop of `GetPrevTick`: stop at `currentTick` once the next ask is at or above the tick,
or the list ends. -/
def prevAskPass (input : GetPrevTickInput) (currentTick : Int) : ForInStep Int :=
  let nextTick := bibliophile.getNextAskPrice input.amm currentTick
  if input.tick ≤ nextTick ∨ nextTick = 0 then .done currentTick else .yield nextTick

/-- `GetPrevTick`. -/
def getPrevTick (input : GetPrevTickInput) (fuel : Nat) : Option (Except String Int) :=
  if input.tick = 0 then some (.error "tick price cannot be zero")
  else if input.isBid then
    let currentTick := bibliophile.getBidsHead input.amm
    if currentTick ≤ input.tick then
      some (.error ("tick " ++ toString input.tick ++ " is greater than or equal to bidsHead " ++
        toString currentTick))
    else (loop (prevBidPass bibliophile input) fuel currentTick).map .ok
  else
    let currentTick := bibliophile.getAsksHead input.amm
    if currentTick = 0 then some (.error "asksHead is zero")
    else if input.tick ≤ currentTick then
      some (.error ("tick " ++ toString input.tick ++ " is less than or equal to asksHead " ++
        toString currentTick))
    else (loop (prevAskPass bibliophile input) fuel currentTick).map .ok

/-! ## The impact samplers -/

/-- One pass of the loop of `_sampleImpactBid` and `_sampleImpactAsk` over a list with sizes `size` and links
`next`: stop at the end of the list, or at the price whose size would reach the notional. -/
def impactPass (size next : Int → Int) (impactMarginNotional : Int) (s : TickWalk) : ForInStep TickWalk :=
  if s.tick = 0 then .done s
  else
    let amount := size s.tick
    let accumulator := s.accNotional + div1e6 (amount * s.tick)
    if impactMarginNotional ≤ accumulator then .done s
    else .yield ⟨next s.tick, accumulator, s.accBaseQ + amount⟩

/-- The body of `_sampleImpactBid` and `_sampleImpactAsk`, over the list from `head`. -/
def sampleImpact (head : Int) (size next : Int → Int) (_impactMarginNotional : Int) (fuel : Nat) :
    Option (Except Panic Int) :=
  if _impactMarginNotional = 0 then some (.ok 0)
  else
    let impactMarginNotional := _impactMarginNotional * 10 ^ 12
    (loop (impactPass size next impactMarginNotional) fuel ⟨head, 0, 0⟩).map fun s =>
      if s.tick = 0 then .ok 0
      else
        -- the first `Div` is by a nonzero tick; the second may be by zero
        let baseQAtTick := mul1e6 (impactMarginNotional - s.accNotional) / s.tick
        bigDiv (mul1e6 impactMarginNotional) (baseQAtTick + s.accBaseQ)

/-- `_sampleImpactBid`. -/
def _sampleImpactBid (ammAddress : Address) (_impactMarginNotional : Int) (fuel : Nat) :
    Option (Except Panic Int) :=
  sampleImpact (bibliophile.getBidsHead ammAddress) (bibliophile.getBidSize ammAddress)
    (bibliophile.getNextBidPrice ammAddress) _impactMarginNotional fuel

/-- `_sampleImpactAsk`. -/
def _sampleImpactAsk (ammAddress : Address) (_impactMarginNotional : Int) (fuel : Nat) :
    Option (Except Panic Int) :=
  sampleImpact (bibliophile.getAsksHead ammAddress) (bibliophile.getAskSize ammAddress)
    (bibliophile.getNextAskPrice ammAddress) _impactMarginNotional fuel

/-- `SampleImpactBid`. -/
def sampleImpactBid (ammAddress : Address) (fuel : Nat) : Option (Except Panic Int) :=
  let impactMarginNotional := bibliophile.getImpactMarginNotional ammAddress
  if impactMarginNotional = 0 then some (.ok 0)
  else _sampleImpactBid bibliophile ammAddress impactMarginNotional fuel

/-- `SampleImpactAsk`. -/
def sampleImpactAsk (ammAddress : Address) (fuel : Nat) : Option (Except Panic Int) :=
  let impactMarginNotional := bibliophile.getImpactMarginNotional ammAddress
  if impactMarginNotional = 0 then some (.ok 0)
  else _sampleImpactAsk bibliophile ammAddress impactMarginNotional fuel

/-- `GetBaseQuote`: a positive quote is bought from the asks, a negative one sold to the bids. -/
def getBaseQuote (ammAddress : Address) (quoteAssetQuantity : Int) (fuel : Nat) : Option (Except Panic Int) :=
  if 0 < quoteAssetQuantity then _sampleImpactAsk bibliophile ammAddress quoteAssetQuantity fuel
  else _sampleImpactBid bibliophile ammAddress (-quoteAssetQuantity) fuel

/-! ## The quantity samplers -/

/-- One pass of the loop of `_sampleBid` and `_sampleAsk`: stop at the end of the list, or at the price whose
size would reach the base quantity. -/
def quotePass (size next : Int → Int) (baseAssetQuantity : Int) (s : TickWalk) : ForInStep TickWalk :=
  if s.tick = 0 then .done s
  else
    let amount := size s.tick
    let accumulator := s.accBaseQ + amount
    if baseAssetQuantity ≤ accumulator then .done s
    else .yield ⟨next s.tick, s.accNotional + div1e6 (amount * s.tick), accumulator⟩

/-- The body of `_sampleBid` and `_sampleAsk`, over the list from `head`. -/
def sampleQuote (head : Int) (size next : Int → Int) (baseAssetQuantity : Int) (fuel : Nat) : Option Int :=
  if baseAssetQuantity ≤ 0 then some 0
  else
    (loop (quotePass size next baseAssetQuantity) fuel ⟨head, 0, 0⟩).map fun s =>
      if s.tick = 0 then 0
      else
        let notionalAtTick := div1e6 ((baseAssetQuantity - s.accBaseQ) * s.tick)
        -- `Div` by the positive base quantity
        mul1e6 (s.accNotional + notionalAtTick) / baseAssetQuantity

/-- `_sampleBid`. -/
def _sampleBid (ammAddress : Address) (baseAssetQuantity : Int) (fuel : Nat) : Option Int :=
  sampleQuote (bibliophile.getBidsHead ammAddress) (bibliophile.getBidSize ammAddress)
    (bibliophile.getNextBidPrice ammAddress) baseAssetQuantity fuel

/-- `_sampleAsk`. -/
def _sampleAsk (ammAddress : Address) (baseAssetQuantity : Int) (fuel : Nat) : Option Int :=
  sampleQuote (bibliophile.getAsksHead ammAddress) (bibliophile.getAskSize ammAddress)
    (bibliophile.getNextAskPrice ammAddress) baseAssetQuantity fuel

/-- `GetQuote`: a positive quantity is bought from the asks, a negative one sold to the bids. -/
def getQuote (ammAddress : Address) (baseAssetQuantity : Int) (fuel : Nat) : Option Int :=
  if 0 < baseAssetQuantity then _sampleAsk bibliophile ammAddress baseAssetQuantity fuel
  else _sampleBid bibliophile ammAddress (-baseAssetQuantity) fuel

end Model

/-! ## One pass -/

section Passes

variable {bibliophile : BibliophileClient} {input : GetPrevTickInput} {c c' : Int}

theorem prevBidPass_eq_yield (h : prevBidPass bibliophile input c = .yield c') :
    input.tick < bibliophile.getNextBidPrice input.amm c ∧ c' = bibliophile.getNextBidPrice input.amm c := by
  dsimp only [prevBidPass] at h
  split at h
  · cases h
  · cases h
    exact ⟨by omega, rfl⟩

theorem prevBidPass_eq_done (h : prevBidPass bibliophile input c = .done c') :
    bibliophile.getNextBidPrice input.amm c ≤ input.tick ∧ c' = c := by
  dsimp only [prevBidPass] at h
  split at h
  · cases h
    exact ⟨by assumption, rfl⟩
  · cases h

theorem prevBidPass_of_lt (h : input.tick < bibliophile.getNextBidPrice input.amm c) :
    prevBidPass bibliophile input c = .yield (bibliophile.getNextBidPrice input.amm c) := by
  simp [prevBidPass, Int.not_le.mpr h]

theorem prevAskPass_eq_yield (h : prevAskPass bibliophile input c = .yield c') :
    bibliophile.getNextAskPrice input.amm c < input.tick ∧ bibliophile.getNextAskPrice input.amm c ≠ 0 ∧
      c' = bibliophile.getNextAskPrice input.amm c := by
  dsimp only [prevAskPass] at h
  split at h
  · cases h
  · cases h
    exact ⟨by omega, by omega, rfl⟩

theorem prevAskPass_eq_done (h : prevAskPass bibliophile input c = .done c') :
    (input.tick ≤ bibliophile.getNextAskPrice input.amm c ∨ bibliophile.getNextAskPrice input.amm c = 0) ∧
      c' = c := by
  dsimp only [prevAskPass] at h
  split at h
  · cases h
    exact ⟨by assumption, rfl⟩
  · cases h

theorem prevAskPass_of_lt (h : bibliophile.getNextAskPrice input.amm c < input.tick)
    (h0 : bibliophile.getNextAskPrice input.amm c ≠ 0) :
    prevAskPass bibliophile input c = .yield (bibliophile.getNextAskPrice input.amm c) := by
  simp [prevAskPass, Int.not_le.mpr h, h0]

variable {size next : Int → Int} {target : Int} {s s' : TickWalk}

theorem impactPass_eq_yield (h : impactPass size next target s = .yield s') :
    s.tick ≠ 0 ∧ s'.tick = next s.tick := by
  dsimp only [impactPass] at h
  split at h
  · cases h
  · split at h
    · cases h
    · cases h
      exact ⟨by assumption, rfl⟩

/-- A pass at a price with nothing on it, short of the notional, goes on with the sums unchanged. -/
theorem impactPass_of_size_zero (h0 : s.tick ≠ 0) (hsize : size s.tick = 0) (hlt : s.accNotional < target) :
    impactPass size next target s = .yield ⟨next s.tick, s.accNotional, s.accBaseQ⟩ := by
  simp [impactPass, h0, hsize, div1e6, Int.not_le.mpr hlt]

theorem quotePass_eq_yield (h : quotePass size next target s = .yield s') :
    s.tick ≠ 0 ∧ s'.tick = next s.tick := by
  dsimp only [quotePass] at h
  split at h
  · cases h
  · split at h
    · cases h
    · cases h
      exact ⟨by assumption, rfl⟩

theorem quotePass_of_size_zero (h0 : s.tick ≠ 0) (hsize : size s.tick = 0) (hlt : s.accBaseQ < target) :
    quotePass size next target s = .yield ⟨next s.tick, s.accNotional, s.accBaseQ⟩ := by
  simp [quotePass, h0, hsize, div1e6, Int.not_le.mpr hlt]

end Passes

/-! ## The functions, by their loops -/

section Specs

variable {bibliophile : BibliophileClient} {input : GetPrevTickInput} {fuel : Nat}

theorem getPrevTick_bid (h0 : input.tick ≠ 0) (hbid : input.isBid = true)
    (hhead : input.tick < bibliophile.getBidsHead input.amm) :
    getPrevTick bibliophile input fuel =
      (loop (prevBidPass bibliophile input) fuel (bibliophile.getBidsHead input.amm)).map .ok := by
  simp [getPrevTick, h0, hbid, Int.not_le.mpr hhead]

theorem getPrevTick_ask (h0 : input.tick ≠ 0) (hask : input.isBid = false)
    (hhead0 : bibliophile.getAsksHead input.amm ≠ 0) (hhead : bibliophile.getAsksHead input.amm < input.tick) :
    getPrevTick bibliophile input fuel =
      (loop (prevAskPass bibliophile input) fuel (bibliophile.getAsksHead input.amm)).map .ok := by
  simp [getPrevTick, h0, hask, hhead0, Int.not_le.mpr hhead]

variable {head n : Int} {size next : Int → Int}

theorem sampleImpact_of_ne (hn : n ≠ 0) :
    sampleImpact head size next n fuel =
      (loop (impactPass size next (n * 10 ^ 12)) fuel ⟨head, 0, 0⟩).map fun s =>
        if s.tick = 0 then .ok 0
        else bigDiv (mul1e6 (n * 10 ^ 12)) (mul1e6 (n * 10 ^ 12 - s.accNotional) / s.tick + s.accBaseQ) := by
  simp [sampleImpact, hn]

theorem sampleQuote_of_pos (hn : 0 < n) :
    sampleQuote head size next n fuel =
      (loop (quotePass size next n) fuel ⟨head, 0, 0⟩).map fun s =>
        if s.tick = 0 then 0 else mul1e6 (s.accNotional + div1e6 ((n - s.accBaseQ) * s.tick)) / n := by
  simp [sampleQuote, Int.not_le.mpr hn]

end Specs

/-! ## Lists that do not end: no number of passes is enough -/

section Divergence

variable {bibliophile : BibliophileClient} {input : GetPrevTickInput}

/-- A set of bids above the tick that holds the head and the next bid of each of its bids keeps the loop of
`GetPrevTick` going for ever. -/
theorem getPrevTick_bid_eq_none (P : Int → Prop) (h0 : input.tick ≠ 0) (hbid : input.isBid = true)
    (hhead : input.tick < bibliophile.getBidsHead input.amm) (hP : P (bibliophile.getBidsHead input.amm))
    (hstep : ∀ c, P c → input.tick < bibliophile.getNextBidPrice input.amm c ∧
      P (bibliophile.getNextBidPrice input.amm c)) (fuel : Nat) :
    getPrevTick bibliophile input fuel = none := by
  rw [getPrevTick_bid h0 hbid hhead, loop_eq_none P (fun c hc => ⟨_, prevBidPass_of_lt (hstep c hc).1,
    (hstep c hc).2⟩) hP]
  rfl

theorem getPrevTick_ask_eq_none (P : Int → Prop) (h0 : input.tick ≠ 0) (hask : input.isBid = false)
    (hhead0 : bibliophile.getAsksHead input.amm ≠ 0) (hhead : bibliophile.getAsksHead input.amm < input.tick)
    (hP : P (bibliophile.getAsksHead input.amm))
    (hstep : ∀ c, P c → bibliophile.getNextAskPrice input.amm c < input.tick ∧
      bibliophile.getNextAskPrice input.amm c ≠ 0 ∧ P (bibliophile.getNextAskPrice input.amm c)) (fuel : Nat) :
    getPrevTick bibliophile input fuel = none := by
  rw [getPrevTick_ask h0 hask hhead0 hhead, loop_eq_none P (fun c hc => ⟨_, prevAskPass_of_lt (hstep c hc).1
    (hstep c hc).2.1, (hstep c hc).2.2⟩) hP]
  rfl

variable {head n : Int} {size next : Int → Int}

/-- A set of nonzero prices with nothing on them, holding the head and closed under `next`, keeps the loop of
the impact samplers going for ever: the notional never grows. -/
theorem sampleImpact_eq_none (P : Int → Prop) (hn : 0 < n) (hP : P head)
    (hstep : ∀ p, P p → p ≠ 0 ∧ size p = 0 ∧ P (next p)) (fuel : Nat) :
    sampleImpact head size next n fuel = none := by
  -- the invariant: a price of `P`, and nothing summed yet
  let Q : TickWalk → Prop := fun s => P s.tick ∧ s.accNotional = 0
  have hpass : ∀ s, Q s → ∃ s', impactPass size next (n * 10 ^ 12) s = .yield s' ∧ Q s' := by
    rintro ⟨t, a, b⟩ ⟨ht, ha⟩
    obtain ⟨h0, hsize, hnext⟩ := hstep t ht
    have hlt : a < n * 10 ^ 12 := by simp only at ha; rw [ha]; exact Int.mul_pos hn (by decide)
    exact ⟨_, impactPass_of_size_zero h0 hsize hlt, hnext, ha⟩
  rw [sampleImpact_of_ne (by omega), loop_eq_none Q hpass ⟨hP, rfl⟩]
  rfl

theorem sampleQuote_eq_none (P : Int → Prop) (hn : 0 < n) (hP : P head)
    (hstep : ∀ p, P p → p ≠ 0 ∧ size p = 0 ∧ P (next p)) (fuel : Nat) :
    sampleQuote head size next n fuel = none := by
  let Q : TickWalk → Prop := fun s => P s.tick ∧ s.accBaseQ = 0
  have hpass : ∀ s, Q s → ∃ s', quotePass size next n s = .yield s' ∧ Q s' := by
    rintro ⟨t, a, b⟩ ⟨ht, hb⟩
    obtain ⟨h0, hsize, hnext⟩ := hstep t ht
    have hlt : b < n := by simp only at hb; omega
    exact ⟨_, quotePass_of_size_zero h0 hsize hlt, hnext, hb⟩
  rw [sampleQuote_of_pos hn, loop_eq_none Q hpass ⟨hP, rfl⟩]
  rfl

end Divergence

/-! ## Sorted lists: the loops end, and `GetPrevTick` finds the neighbour of the tick -/

section Termination

variable {bibliophile : BibliophileClient} {input : GetPrevTickInput} {fuel : Nat}

/-- On bids that fall along the list above the tick, `GetPrevTick` walks down to the last bid above the tick,
within `head - tick` passes. -/
theorem getPrevTick_bid_of_sorted (h0 : input.tick ≠ 0) (hbid : input.isBid = true)
    (hhead : input.tick < bibliophile.getBidsHead input.amm)
    (hsorted : ∀ p, input.tick < p → bibliophile.getNextBidPrice input.amm p < p)
    (hfuel : (bibliophile.getBidsHead input.amm - input.tick).toNat < fuel) :
    ∃ r, getPrevTick bibliophile input fuel = some (.ok r) ∧ input.tick < r ∧
      r ≤ bibliophile.getBidsHead input.amm ∧ bibliophile.getNextBidPrice input.amm r ≤ input.tick := by
  -- the walk stays above the tick and at or below the head, and comes closer to the tick on each pass
  let P : Int → Prop := fun c => input.tick < c ∧ c ≤ bibliophile.getBidsHead input.amm
  have hyield : ∀ c c', P c → prevBidPass bibliophile input c = .yield c' →
      P c' ∧ (c' - input.tick).toNat < (c - input.tick).toNat := by
    rintro c c' ⟨hc, hch⟩ h
    obtain ⟨hgt, rfl⟩ := prevBidPass_eq_yield h
    have hlt := hsorted c hc
    exact ⟨⟨hgt, by omega⟩, by omega⟩
  have hP : P (bibliophile.getBidsHead input.amm) := ⟨hhead, Int.le_refl _⟩
  obtain ⟨r, hr⟩ := loop_of_variant P (fun c => (c - input.tick).toNat) hyield hP
  have hQ := loop_invariant P (fun r => P r ∧ bibliophile.getNextBidPrice input.amm r ≤ input.tick)
    (fun c c' hc h => (hyield c c' hc h).1)
    (fun c c' hc h => by obtain ⟨hle, rfl⟩ := prevBidPass_eq_done h; exact ⟨hc, hle⟩) hP hr
  refine ⟨r, ?_, hQ.1.1, hQ.1.2, hQ.2⟩
  rw [getPrevTick_bid h0 hbid hhead, loop_mono hr hfuel]
  rfl

/-- On asks that rise along the list below the tick, `GetPrevTick` walks up to the last ask below the tick,
within `tick - head` passes. -/
theorem getPrevTick_ask_of_sorted (h0 : input.tick ≠ 0) (hask : input.isBid = false)
    (hhead0 : bibliophile.getAsksHead input.amm ≠ 0) (hhead : bibliophile.getAsksHead input.amm < input.tick)
    (hsorted : ∀ p, bibliophile.getAsksHead input.amm ≤ p → p < input.tick →
      bibliophile.getNextAskPrice input.amm p = 0 ∨ p < bibliophile.getNextAskPrice input.amm p)
    (hfuel : (input.tick - bibliophile.getAsksHead input.amm).toNat < fuel) :
    ∃ r, getPrevTick bibliophile input fuel = some (.ok r) ∧ bibliophile.getAsksHead input.amm ≤ r ∧
      r < input.tick ∧
      (input.tick ≤ bibliophile.getNextAskPrice input.amm r ∨ bibliophile.getNextAskPrice input.amm r = 0) := by
  let P : Int → Prop := fun c => bibliophile.getAsksHead input.amm ≤ c ∧ c < input.tick
  have hyield : ∀ c c', P c → prevAskPass bibliophile input c = .yield c' →
      P c' ∧ (input.tick - c').toNat < (input.tick - c).toNat := by
    rintro c c' ⟨hch, hc⟩ h
    obtain ⟨hlt, hne, rfl⟩ := prevAskPass_eq_yield h
    have hgt : c < bibliophile.getNextAskPrice input.amm c := (hsorted c hch hc).resolve_left hne
    exact ⟨⟨by omega, hlt⟩, by omega⟩
  have hP : P (bibliophile.getAsksHead input.amm) := ⟨Int.le_refl _, hhead⟩
  obtain ⟨r, hr⟩ := loop_of_variant P (fun c => (input.tick - c).toNat) hyield hP
  have hQ := loop_invariant P (fun r => P r ∧
      (input.tick ≤ bibliophile.getNextAskPrice input.amm r ∨ bibliophile.getNextAskPrice input.amm r = 0))
    (fun c c' hc h => (hyield c c' hc h).1)
    (fun c c' hc h => by obtain ⟨hle, rfl⟩ := prevAskPass_eq_done h; exact ⟨hc, hle⟩) hP hr
  refine ⟨r, ?_, hQ.1.1, hQ.1.2, hQ.2⟩
  rw [getPrevTick_ask h0 hask hhead0 hhead, loop_mono hr hfuel]
  rfl

variable {head : Int} {size next : Int → Int}

/-- The impact samplers end on a list along which a measure of the prices falls, within that measure of the
head. -/
theorem sampleImpact_ends (P : Int → Prop) (μ : Int → Nat) (hP : P head)
    (hstep : ∀ p, P p → p ≠ 0 → P (next p) ∧ μ (next p) < μ p) (n : Int) (hfuel : μ head < fuel) :
    ∃ r, sampleImpact head size next n fuel = some r := by
  by_cases hn : n = 0
  · exact ⟨.ok 0, by simp [sampleImpact, hn]⟩
  · have hyield : ∀ s s', P s.tick → impactPass size next (n * 10 ^ 12) s = .yield s' →
        P s'.tick ∧ μ s'.tick < μ s.tick := by
      intro s s' hs h
      obtain ⟨h0, ht⟩ := impactPass_eq_yield h
      rw [ht]
      exact hstep _ hs h0
    obtain ⟨r, hr⟩ := loop_of_variant (fun s : TickWalk => P s.tick) (fun s => μ s.tick) hyield (s := ⟨head, 0, 0⟩) hP
    rw [sampleImpact_of_ne hn, loop_mono hr hfuel]
    exact ⟨_, rfl⟩

theorem sampleQuote_ends (P : Int → Prop) (μ : Int → Nat) (hP : P head)
    (hstep : ∀ p, P p → p ≠ 0 → P (next p) ∧ μ (next p) < μ p) (n : Int) (hfuel : μ head < fuel) :
    ∃ r, sampleQuote head size next n fuel = some r := by
  by_cases hn : 0 < n
  · have hyield : ∀ s s', P s.tick → quotePass size next n s = .yield s' → P s'.tick ∧ μ s'.tick < μ s.tick := by
      intro s s' hs h
      obtain ⟨h0, ht⟩ := quotePass_eq_yield h
      rw [ht]
      exact hstep _ hs h0
    obtain ⟨r, hr⟩ := loop_of_variant (fun s : TickWalk => P s.tick) (fun s => μ s.tick) hyield (s := ⟨head, 0, 0⟩) hP
    rw [sampleQuote_of_pos hn, loop_mono hr hfuel]
    exact ⟨_, rfl⟩
  · exact ⟨0, by simp [sampleQuote, Int.not_lt.mp hn]⟩

end Termination

/-- A storage word. -/
def IsWord (p : Int) : Prop := 0 ≤ p ∧ p < 2 ^ 256

/-- The bids list of an AMM as the order book keeps it: storage words, each bid above the next, down to `0`. -/
def BidsSorted (bibliophile : BibliophileClient) (amm : Address) : Prop :=
  IsWord (bibliophile.getBidsHead amm) ∧
    ∀ p, 0 < p → 0 ≤ bibliophile.getNextBidPrice amm p ∧ bibliophile.getNextBidPrice amm p < p

/-- The asks list of an AMM as the order book keeps it: storage words, each ask below the next, up to `0`. -/
def AsksSorted (bibliophile : BibliophileClient) (amm : Address) : Prop :=
  IsWord (bibliophile.getAsksHead amm) ∧
    ∀ p, 0 < p → bibliophile.getNextAskPrice amm p = 0 ∨
      p < bibliophile.getNextAskPrice amm p ∧ bibliophile.getNextAskPrice amm p < 2 ^ 256

/-- How far up an ask is from the top of the words; the end `0` counts as the top. -/
def askRank (p : Int) : Nat := if p = 0 then 0 else (2 ^ 256 - p).toNat

section Sorted

variable {bibliophile : BibliophileClient} {amm : Address}

theorem BidsSorted.step (h : BidsSorted bibliophile amm) (p : Int) (hp : IsWord p) (h0 : p ≠ 0) :
    IsWord (bibliophile.getNextBidPrice amm p) ∧ (bibliophile.getNextBidPrice amm p).toNat < p.toNat := by
  obtain ⟨hge, hlt⟩ := h.2 p (by unfold IsWord at hp; omega)
  unfold IsWord at hp ⊢
  omega

theorem AsksSorted.step (h : AsksSorted bibliophile amm) (p : Int) (hp : IsWord p) (h0 : p ≠ 0) :
    IsWord (bibliophile.getNextAskPrice amm p) ∧ askRank (bibliophile.getNextAskPrice amm p) < askRank p := by
  unfold IsWord at hp
  rcases h.2 p (by omega) with hz | ⟨hlt, hw⟩
  · rw [hz]
    simp only [askRank, h0, if_true, if_false]
    exact ⟨⟨Int.le_refl 0, by decide⟩, by omega⟩
  · have hne : bibliophile.getNextAskPrice amm p ≠ 0 := by omega
    simp only [askRank, h0, hne, if_false]
    exact ⟨⟨by omega, hw⟩, by omega⟩

theorem askRank_le {p : Int} (hp : IsWord p) : askRank p ≤ 2 ^ 256 := by
  unfold IsWord at hp
  unfold askRank
  split_ifs <;> omega

/-- On the lists the order book keeps, every function of the precompile returns within `2 ^ 256 + 1` passes,
whatever the tick and the quantity. -/
theorem ticks_end_of_sorted (hbids : BidsSorted bibliophile amm) (hasks : AsksSorted bibliophile amm)
    (isBid : Bool) {tick : Int} (htick : IsWord tick) (q : Int) :
    (getPrevTick bibliophile ⟨amm, isBid, tick⟩ (2 ^ 256 + 1)).isSome ∧
    (sampleImpactBid bibliophile amm (2 ^ 256 + 1)).isSome ∧ (sampleImpactAsk bibliophile amm (2 ^ 256 + 1)).isSome ∧
    (getQuote bibliophile amm q (2 ^ 256 + 1)).isSome ∧ (getBaseQuote bibliophile amm q (2 ^ 256 + 1)).isSome := by
  have hbw := hbids.1
  have haw := hasks.1
  unfold IsWord at hbw haw htick
  -- the samplers, along `toNat` down the bids and `askRank` up the asks
  have hImpactBid : ∀ n, (_sampleImpactBid bibliophile amm n (2 ^ 256 + 1)).isSome := fun n =>
    Option.isSome_iff_exists.mpr (sampleImpact_ends IsWord Int.toNat hbids.1 hbids.step n (by omega))
  have hImpactAsk : ∀ n, (_sampleImpactAsk bibliophile amm n (2 ^ 256 + 1)).isSome := fun n =>
    Option.isSome_iff_exists.mpr (sampleImpact_ends IsWord askRank hasks.1 hasks.step n
      (Nat.lt_succ_of_le (askRank_le hasks.1)))
  have hBid : ∀ n, (_sampleBid bibliophile amm n (2 ^ 256 + 1)).isSome := fun n =>
    Option.isSome_iff_exists.mpr (sampleQuote_ends IsWord Int.toNat hbids.1 hbids.step n (by omega))
  have hAsk : ∀ n, (_sampleAsk bibliophile amm n (2 ^ 256 + 1)).isSome := fun n =>
    Option.isSome_iff_exists.mpr (sampleQuote_ends IsWord askRank hasks.1 hasks.step n
      (Nat.lt_succ_of_le (askRank_le hasks.1)))
  refine ⟨?_, ?_, ?_, ?_, ?_⟩
  · by_cases h0 : tick = 0
    · simp [getPrevTick, h0]
    cases isBid with
    | true =>
      by_cases hh : tick < bibliophile.getBidsHead amm
      · obtain ⟨r, hr, -⟩ := @getPrevTick_bid_of_sorted bibliophile ⟨amm, true, tick⟩ (2 ^ 256 + 1) h0 rfl hh
          (fun p hp => (hbids.2 p (by simp only at hp; omega)).2) (by simp only; omega)
        rw [hr]
        rfl
      · simp [getPrevTick, h0, Int.not_lt.mp hh]
    | false =>
      by_cases hh : bibliophile.getAsksHead amm ≠ 0 ∧ bibliophile.getAsksHead amm < tick
      · obtain ⟨r, hr, -⟩ := @getPrevTick_ask_of_sorted bibliophile ⟨amm, false, tick⟩ (2 ^ 256 + 1) h0 rfl hh.1 hh.2
          (fun p hp _ => (hasks.2 p (by simp only at hp; omega)).imp_right And.left) (by simp only; omega)
        rw [hr]
        rfl
      · by_cases hz : bibliophile.getAsksHead amm = 0
        · simp [getPrevTick, h0, hz]
        · simp [getPrevTick, h0, hz, Int.not_lt.mp (fun h => hh ⟨hz, h⟩)]
  · dsimp only [sampleImpactBid]
    split_ifs
    · rfl
    · exact hImpactBid _
  · dsimp only [sampleImpactAsk]
    split_ifs
    · rfl
    · exact hImpactAsk _
  · unfold getQuote
    split_ifs
    · exact hAsk _
    · exact hBid _
  · unfold getBaseQuote
    split_ifs
    · exact hImpactAsk _
    · exact hImpactBid _

end Sorted

/-- The bids of `amm` as the order book keeps them: the list `bids` linked from the bids head, each bid above the
next, all positive, `0` ending it. -/
def StoredBids (bibliophile : BibliophileClient) (amm : Address) (bids : List Int) : Prop :=
  ListedFrom (bibliophile.getNextBidPrice amm) 0 (bibliophile.getBidsHead amm) bids ∧ bids.Pairwise (· > ·) ∧
    ∀ b ∈ bids, 0 < b

/-- The asks of `amm` as the order book keeps them: the list `asks` linked from the asks head, each ask below the
next, all positive, `0` ending it. -/
def StoredAsks (bibliophile : BibliophileClient) (amm : Address) (asks : List Int) : Prop :=
  ListedFrom (bibliophile.getNextAskPrice amm) 0 (bibliophile.getAsksHead amm) asks ∧ asks.Pairwise (· < ·) ∧
    ∀ a ∈ asks, 0 < a

section Stored

variable {bibliophile : BibliophileClient} {amm : Address} {fuel : Nat} {t : Int}

theorem getPrevTick_bid_stored {bids : List Int} (hbids : StoredBids bibliophile amm bids) (ht : 0 < t)
    (hhead : t < bibliophile.getBidsHead amm) (hfuel : bids.length < fuel) :
    ∃ b ∈ bids, getPrevTick bibliophile ⟨amm, true, t⟩ fuel = some (.ok b) ∧ t < b ∧
      bibliophile.getNextBidPrice amm b ≤ t := by
  -- the walk stays above the tick, so never at the `0` that ends the list
  obtain ⟨r, hr, hloop, hQ⟩ := @loop_of_listedFrom _ (prevBidPass bibliophile ⟨amm, true, t⟩) _ _
    (fun c => t < c) (fun c => t < c ∧ bibliophile.getNextBidPrice amm c ≤ t)
    (fun c hc _ => by
      unfold prevBidPass
      by_cases hle : bibliophile.getNextBidPrice amm c ≤ t
      · exact .inr ⟨if_pos hle, hc, hle⟩
      · exact .inl ⟨if_neg hle, by omega, by omega⟩)
    _ _ _ hbids.1 (by omega) hhead hfuel
  refine ⟨r, hr, ?_, hQ⟩
  rw [@getPrevTick_bid bibliophile ⟨amm, true, t⟩ fuel (show t ≠ 0 by omega) rfl hhead, hloop]
  rfl

theorem getPrevTick_ask_stored {asks : List Int} (hasks : StoredAsks bibliophile amm asks)
    (hhead0 : bibliophile.getAsksHead amm ≠ 0) (hhead : bibliophile.getAsksHead amm < t)
    (hfuel : asks.length < fuel) :
    ∃ a ∈ asks, getPrevTick bibliophile ⟨amm, false, t⟩ fuel = some (.ok a) ∧ a < t ∧
      (t ≤ bibliophile.getNextAskPrice amm a ∨ bibliophile.getNextAskPrice amm a = 0) := by
  -- the walk stays below the tick, and stops at the end of the list
  obtain ⟨r, hr, hloop, hQ⟩ := @loop_of_listedFrom _ (prevAskPass bibliophile ⟨amm, false, t⟩) _ _
    (fun c => c < t)
    (fun c => c < t ∧ (t ≤ bibliophile.getNextAskPrice amm c ∨ bibliophile.getNextAskPrice amm c = 0))
    (fun c hc _ => by
      unfold prevAskPass
      by_cases hstop : t ≤ bibliophile.getNextAskPrice amm c ∨ bibliophile.getNextAskPrice amm c = 0
      · exact .inr ⟨if_pos hstop, hc, hstop⟩
      · exact .inl ⟨if_neg hstop, by omega, by omega⟩)
    _ _ _ hasks.1 hhead0 hhead hfuel
  have ht : 0 < t := (hasks.2.2 _ (hasks.1.head_mem hhead0)).trans hhead
  refine ⟨r, hr, ?_, hQ⟩
  rw [@getPrevTick_ask bibliophile ⟨amm, false, t⟩ fuel (show t ≠ 0 by omega) rfl hhead0 hhead, hloop]
  rfl

/-- One bid of a stored list straddles the tick: the link of a higher one is still above it. -/
theorem bid_straddles_unique {bids : List Int} (hbids : StoredBids bibliophile amm bids) {b b' : Int}
    (hb : b ∈ bids) (hb' : b' ∈ bids) (ht : t < b) (hn : bibliophile.getNextBidPrice amm b ≤ t) (ht' : t < b')
    (hn' : bibliophile.getNextBidPrice amm b' ≤ t) : b' = b := by
  have hR : ∀ x y : Int, x > y → ¬ y > x := fun _ _ h h' => lt_asymm h h'
  rcases lt_trichotomy b b' with hlt | heq | hgt
  · rcases hbids.1.next_rel hR hbids.2.1 hb' hb hlt with h | ⟨_, h⟩ <;> omega
  · exact heq.symm
  · rcases hbids.1.next_rel hR hbids.2.1 hb hb' hgt with h | ⟨_, h⟩ <;> omega

/-- One ask of a stored list straddles the tick: the link of a lower one is a later ask, still below it. -/
theorem ask_straddles_unique {asks : List Int} (hasks : StoredAsks bibliophile amm asks) {a a' : Int}
    (ha : a ∈ asks) (ha' : a' ∈ asks) (ht : a < t)
    (hn : t ≤ bibliophile.getNextAskPrice amm a ∨ bibliophile.getNextAskPrice amm a = 0) (ht' : a' < t)
    (hn' : t ≤ bibliophile.getNextAskPrice amm a' ∨ bibliophile.getNextAskPrice amm a' = 0) : a' = a := by
  have hR : ∀ x y : Int, x < y → ¬ y < x := fun _ _ h h' => lt_asymm h h'
  rcases lt_trichotomy a a' with hlt | heq | hgt
  · have hpos := hasks.2.2 a' ha'
    rcases hasks.1.next_rel hR hasks.2.1 ha ha' hlt with h | ⟨hmem, h⟩
    · omega
    · have := hasks.2.2 _ hmem
      omega
  · exact heq.symm
  · have hpos := hasks.2.2 a ha
    rcases hasks.1.next_rel hR hasks.2.1 ha' ha hgt with h | ⟨hmem, h⟩
    · omega
    · have := hasks.2.2 _ hmem
      omega

/-- On stored lists, `GetPrevTick` of a `uint256` tick fails exactly on its guards: a zero tick, a bid tick at or
above the bids head, or an ask tick with no asks or at or below the asks head. -/
theorem getPrevTick_error_iff {bids asks : List Int} (hbids : StoredBids bibliophile amm bids)
    (hasks : StoredAsks bibliophile amm asks) (hfuel : bids.length < fuel ∧ asks.length < fuel) (isBid : Bool)
    (ht : 0 ≤ t) :
    (∃ e, getPrevTick bibliophile ⟨amm, isBid, t⟩ fuel = some (.error e)) ↔
      t = 0 ∨ (isBid = true ∧ bibliophile.getBidsHead amm ≤ t) ∨
        (isBid = false ∧ (bibliophile.getAsksHead amm = 0 ∨ t ≤ bibliophile.getAsksHead amm)) := by
  by_cases h0 : t = 0
  · simp [getPrevTick, h0]
  cases isBid with
  | true =>
    by_cases hhead : bibliophile.getBidsHead amm ≤ t
    · simp [getPrevTick, h0, hhead]
    · -- within the bids the walk returns a bid
      obtain ⟨b, -, hb, -⟩ := getPrevTick_bid_stored (t := t) hbids (by omega) (by omega) hfuel.1
      simp [hb, h0, hhead]
  | false =>
    by_cases hguard : bibliophile.getAsksHead amm = 0 ∨ t ≤ bibliophile.getAsksHead amm
    · rcases hguard with hz | hle
      · simp [getPrevTick, h0, hz]
      · by_cases hz : bibliophile.getAsksHead amm = 0
        · simp [getPrevTick, h0, hz]
        · simp [getPrevTick, h0, hz, hle]
    · obtain ⟨hz, hlt⟩ := not_or.mp hguard
      obtain ⟨a, -, ha, -⟩ := getPrevTick_ask_stored (t := t) hasks hz (by omega) hfuel.2
      simp [ha, h0, hz, Int.not_le.mpr (Int.lt_of_not_ge hlt)]

end Stored

/-- **`GetPrevTick` on the lists the order book keeps.** For a `uint256` tick strictly inside the bids, it returns
the one bid above the tick whose next bid is at or below it; for a tick above the asks head, the one ask below the
tick whose next ask is at or above it or ends the list; and it fails exactly on its guards. The walks end within
one pass more than the list is long. -/
theorem getPrevTick_neighbour {bibliophile : BibliophileClient} {amm : Address} {bids asks : List Int}
    (hbids : StoredBids bibliophile amm bids) (hasks : StoredAsks bibliophile amm asks) (fuel : Nat)
    (hfuel : bids.length < fuel ∧ asks.length < fuel) :
    (∀ t, 0 < t → t < bibliophile.getBidsHead amm →
      ∃ b ∈ bids, getPrevTick bibliophile ⟨amm, true, t⟩ fuel = some (.ok b) ∧
        t < b ∧ bibliophile.getNextBidPrice amm b ≤ t ∧
        ∀ b' ∈ bids, t < b' → bibliophile.getNextBidPrice amm b' ≤ t → b' = b) ∧
    (asks ≠ [] → ∀ t, bibliophile.getAsksHead amm < t →
      ∃ a ∈ asks, getPrevTick bibliophile ⟨amm, false, t⟩ fuel = some (.ok a) ∧
        a < t ∧ (t ≤ bibliophile.getNextAskPrice amm a ∨ bibliophile.getNextAskPrice amm a = 0) ∧
        ∀ a' ∈ asks, a' < t →
          (t ≤ bibliophile.getNextAskPrice amm a' ∨ bibliophile.getNextAskPrice amm a' = 0) → a' = a) ∧
    ∀ isBid t, 0 ≤ t →
      ((∃ e, getPrevTick bibliophile ⟨amm, isBid, t⟩ fuel = some (.error e)) ↔
        t = 0 ∨ (isBid = true ∧ bibliophile.getBidsHead amm ≤ t) ∨
          (isBid = false ∧ (bibliophile.getAsksHead amm = 0 ∨ t ≤ bibliophile.getAsksHead amm))) := by
  refine ⟨fun t ht hhead => ?_, fun hne t hhead => ?_,
    fun isBid t ht => getPrevTick_error_iff hbids hasks hfuel isBid ht⟩
  · obtain ⟨b, hb, hrun, hgt, hnext⟩ := getPrevTick_bid_stored hbids ht hhead hfuel.1
    exact ⟨b, hb, hrun, hgt, hnext, fun b' hb' ht' hn' => bid_straddles_unique hbids hb hb' hgt hnext ht' hn'⟩
  · obtain ⟨a, ha, hrun, hlt, hnext⟩ :=
      getPrevTick_ask_stored hasks ((hasks.1.ne_nil_iff).mpr hne) hhead hfuel.2
    exact ⟨a, ha, hrun, hlt, hnext, fun a' ha' ht' hn' => ask_straddles_unique hasks ha ha' hlt hnext ht' hn'⟩


/-- Storage with the bids `20, 10` and the asks `30, 40`. -/
def sortedTicks : BibliophileClient :=
  { (default : BibliophileClient) with
    getBidsHead := fun _ => 20
    getAsksHead := fun _ => 30
    getNextBidPrice := fun _ p => if p = 20 then 10 else 0
    getNextAskPrice := fun _ p => if p = 30 then 40 else 0
    getImpactMarginNotional := fun _ => 1 }

theorem ticks_end_of_sorted_twoLevels :
    BidsSorted sortedTicks 0 ∧ AsksSorted sortedTicks 0 ∧
    (getPrevTick sortedTicks ⟨0, true, 15⟩ (2 ^ 256 + 1)).isSome ∧
    (sampleImpactBid sortedTicks 0 (2 ^ 256 + 1)).isSome ∧ (sampleImpactAsk sortedTicks 0 (2 ^ 256 + 1)).isSome ∧
    (getQuote sortedTicks 0 1 (2 ^ 256 + 1)).isSome ∧ (getBaseQuote sortedTicks 0 1 (2 ^ 256 + 1)).isSome := by
  have hb : BidsSorted sortedTicks 0 :=
    ⟨⟨by decide, by decide⟩, fun p hp => by simp only [sortedTicks]; split_ifs <;> omega⟩
  have ha : AsksSorted sortedTicks 0 :=
    ⟨⟨by decide, by decide⟩, fun p _ => by simp only [sortedTicks]; split_ifs <;> omega⟩
  exact ⟨hb, ha, ticks_end_of_sorted hb ha true ⟨by decide, by decide⟩ 1⟩

theorem getPrevTick_neighbour_twoLevels :
    StoredBids sortedTicks 0 [20, 10] ∧ StoredAsks sortedTicks 0 [30, 40] ∧ ([20, 10] : List Int).length < 3 ∧
      ([30, 40] : List Int).length < 3 ∧
    (∀ t, 0 < t → t < sortedTicks.getBidsHead 0 →
      ∃ b ∈ [20, 10], getPrevTick sortedTicks ⟨0, true, t⟩ 3 = some (.ok b) ∧
        t < b ∧ sortedTicks.getNextBidPrice 0 b ≤ t ∧
        ∀ b' ∈ [20, 10], t < b' → sortedTicks.getNextBidPrice 0 b' ≤ t → b' = b) ∧
    (([30, 40] : List Int) ≠ [] → ∀ t, sortedTicks.getAsksHead 0 < t →
      ∃ a ∈ [30, 40], getPrevTick sortedTicks ⟨0, false, t⟩ 3 = some (.ok a) ∧
        a < t ∧ (t ≤ sortedTicks.getNextAskPrice 0 a ∨ sortedTicks.getNextAskPrice 0 a = 0) ∧
        ∀ a' ∈ [30, 40], a' < t →
          (t ≤ sortedTicks.getNextAskPrice 0 a' ∨ sortedTicks.getNextAskPrice 0 a' = 0) → a' = a) ∧
    ∀ isBid t, 0 ≤ t →
      ((∃ e, getPrevTick sortedTicks ⟨0, isBid, t⟩ 3 = some (.error e)) ↔
        t = 0 ∨ (isBid = true ∧ sortedTicks.getBidsHead 0 ≤ t) ∨
          (isBid = false ∧ (sortedTicks.getAsksHead 0 = 0 ∨ t ≤ sortedTicks.getAsksHead 0))) := by
  have hbids : StoredBids sortedTicks 0 [20, 10] := by simp [StoredBids, ListedFrom, sortedTicks]
  have hasks : StoredAsks sortedTicks 0 [30, 40] := by simp [StoredAsks, ListedFrom, sortedTicks]
  exact ⟨hbids, hasks, by decide, by decide, getPrevTick_neighbour hbids hasks 3 ⟨by decide, by decide⟩⟩

/-- Storage at an AMM address whose bids and asks lists both run `10, 20, 10, …` with nothing on them. -/
def cyclicTicks : BibliophileClient :=
  { (default : BibliophileClient) with
    getBidsHead := fun _ => 10
    getAsksHead := fun _ => 10
    getNextBidPrice := fun _ p => if p = 10 then 20 else 10
    getNextAskPrice := fun _ p => if p = 10 then 20 else 10
    getImpactMarginNotional := fun _ => 1 }

theorem ticks_loop_forever_on_cycle (amm : Address) (fuel : Nat) :
    getPrevTick cyclicTicks ⟨amm, true, 1⟩ fuel = none ∧
    getPrevTick cyclicTicks ⟨amm, false, 30⟩ fuel = none ∧
    sampleImpactBid cyclicTicks amm fuel = none ∧ sampleImpactAsk cyclicTicks amm fuel = none ∧
    getQuote cyclicTicks amm 1 fuel = none ∧ getQuote cyclicTicks amm (-1) fuel = none ∧
    getBaseQuote cyclicTicks amm 1 fuel = none ∧ getBaseQuote cyclicTicks amm (-1) fuel = none := by
  -- every walk stays on the two prices of the cycle
  let C : Int → Prop := fun p => p = 10 ∨ p = 20
  have hnext : ∀ p, C p → C (if p = 10 then 20 else 10) := by
    intro p hp
    by_cases h : p = 10 <;> simp [C, h]
  have hsample : ∀ p, C p → p ≠ 0 ∧ (0 : Int) = 0 ∧ C (if p = 10 then 20 else 10) :=
    fun p hp => ⟨by rcases hp with rfl | rfl <;> decide, rfl, hnext p hp⟩
  have hbid : ∀ p, C p → (1 : Int) < (if p = 10 then 20 else 10) ∧ C (if p = 10 then 20 else 10) :=
    fun p hp => ⟨by split_ifs <;> decide, hnext p hp⟩
  have hask : ∀ p, C p → (if p = 10 then 20 else 10 : Int) < 30 ∧ (if p = 10 then 20 else 10 : Int) ≠ 0 ∧
      C (if p = 10 then 20 else 10) :=
    fun p hp => ⟨by split_ifs <;> decide, by split_ifs <;> decide, hnext p hp⟩
  have himpact := fun n (hn : (0 : Int) < n) =>
    @sampleImpact_eq_none 10 n (fun _ => 0) _ C hn (Or.inl rfl) hsample fuel
  have hquote := fun n (hn : (0 : Int) < n) =>
    @sampleQuote_eq_none 10 n (fun _ => 0) _ C hn (Or.inl rfl) hsample fuel
  refine ⟨getPrevTick_bid_eq_none C (by simp) rfl (by simp [cyclicTicks]) (Or.inl rfl) hbid fuel,
    getPrevTick_ask_eq_none C (by simp) rfl (by simp [cyclicTicks]) (by simp [cyclicTicks]) (Or.inl rfl) hask fuel,
    himpact 1 (by decide), himpact 1 (by decide), hquote 1 (by decide), hquote 1 (by decide),
    himpact 1 (by decide), himpact 1 (by decide)⟩
end Hubblenet.Ticks
