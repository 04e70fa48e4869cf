import Mathlib.Algebra.Order.Group.Abs
import Mathlib.Algebra.Order.Group.Int
import HftSystem.Trading.MarketOrderBook
import HftSystem.Trading.OrderManager

set_option relaxedAutoImplicit false
set_option autoImplicit false

/-!
# Positions and the check before a trade

`trading/strategy/position_keeper.h` and `risk_manager.{h,cpp}`. A position is an `int32_t`, and
`sideToValue` a `size_t`, so both the check and the update of a position are computed modulo
`2 ^ 64`, and the latter is then cut to 32 bits. The comparison of `addFill` that tells a position
that grows from one that shrinks compares a `size_t` with 0.

The type of the profits is any type with the operations of a `double`. `RiskCfg` is not part of the
repository, and has the fields that are used. `bbo_`, which is only printed, is left out.

## Main definitions

* `Trading.PositionInfo`, `Trading.PositionInfo.addFill`, `Trading.PositionInfo.updateBBO` — the
  position in a ticker.
* `Trading.PositionKeeper` — the positions.
* `Trading.RiskInfo`, `Trading.checkPreTradeRisk` — the check.

## Main results

* `Trading.PositionKeeper.safe_addFill` — a fill moves the position by its quantity.
* `Trading.abs_le_of_allowed` — an order that is allowed fits into the limit.
* `Trading.checkPreTradeRisk_exact_iff` — the orders for which the check is exact.
-/

namespace Trading

open Common Exchange

/-- The operations of a `double`. -/
class Double (F : Type) extends Zero F, Add F, Sub F, Mul F, Div F, IntCast F, LT F where
  half : F
  decidableLT : DecidableLT F

/-- The comparison of a `double` can be evaluated. -/
instance decidableLT {F : Type} [Double F] : DecidableLT F := Double.decidableLT

/-- A `double` that does not round. -/
instance doubleRat : Double Rat where
  zero := 0
  add := Rat.add
  sub := Rat.sub
  mul := Rat.mul
  div := Rat.div
  intCast := Rat.ofInt
  lt x y := Rat.blt x y = true
  half := mkRat 1 2
  decidableLT := fun _ _ => inferInstance

/-- A `Qty` as an `int32_t`. -/
def Qty.toInt32 (qty : ℕ) : BitVec 32 := BitVec.ofNat 32 qty

/-- A quantity below `2 ^ 31` is not changed. -/
lemma Qty.toInt_toInt32 {qty : ℕ} (h : qty < 2 ^ 31) : (Qty.toInt32 qty).toInt = qty := by
  unfold Qty.toInt32
  rw [BitVec.toInt_ofNat', Int.bmod_eq_of_le_mul_two] <;> omega

/-- What an execution on a side adds to the position. -/
def positionChange (side : Side) (qty : ℕ) : ℤ := if side = .buy then qty else -qty

/-- The product of a quantity and the value of a side. -/
lemma sideToValue_mul {side : Side} (h : side.IsBookSide) (qty : ℕ) :
    sideToValue side * BitVec.ofInt 64 qty = BitVec.ofInt 64 (positionChange side qty) := by
  rcases h with rfl | rfl
  · exact BitVec.one_mul _
  · show BitVec.ofInt 64 (-1) * BitVec.ofInt 64 qty = BitVec.ofInt 64 (-qty)
    rw [← BitVec.ofInt_mul, neg_one_mul]

section Positions

variable {F : Type} [Double F]

/-- `PositionInfo`. -/
structure PositionInfo (F : Type) where
  position : BitVec 32
  realPnl : F
  unrealPnl : F
  totalPnl : F
  openVwap : ℕ → F
  volume : ℕ

namespace PositionInfo

/-- The size of `open_vwap_`. -/
def openVwapSides : ℕ := 3

/-- A position is created flat, with `open_vwap_` as the memory holds it. -/
def new (openVwap : ℕ → F) : PositionInfo F where
  position := 0
  realPnl := 0
  unrealPnl := 0
  totalPnl := 0
  openVwap
  volume := 0

/-- What the position would gain if it were closed at a price. -/
def unrealAt (p : PositionInfo F) (price : F) : F :=
  let absPosition : F := ((|p.position.toInt| : ℤ) : F)
  if 0 < p.position.toInt then
    (price - p.openVwap (sideToIndex .buy) / absPosition) * absPosition
  else
    (p.openVwap (sideToIndex .sell) / absPosition - price) * absPosition

/-- The part of `addFill` that updates `position_`, `volume_`, `open_vwap_` and `real_pnl_`. -/
def fillPosition (p : PositionInfo F) (clientResponse : MEClientResponse) : PositionInfo F :=
  let price : F := (clientResponse.price : F)
  let sideIndex := sideToIndex clientResponse.side
  let oppSideIndex := sideToIndex (if clientResponse.side = .buy then .sell else .buy)
  let sideValue := sideToValue clientResponse.side
  let position :=
    (p.position.signExtend 64 + (BitVec.ofNat 32 clientResponse.execQty).setWidth 64 *
      sideValue).setWidth 32
  let absPosition : F := ((|position.toInt| : ℤ) : F)
  let volume := (p.volume + clientResponse.execQty) % 2 ^ 32
  if 0 ≤ p.position.signExtend 64 * sideValue then
    -- a `size_t` is never negative
    { p with
      position, volume,
      openVwap := Function.update p.openVwap sideIndex
        (p.openVwap sideIndex +
          ((clientResponse.price * (clientResponse.execQty : ℤ) : ℤ) : F)) }
  else
    let oppSideVwap := p.openVwap oppSideIndex / ((|p.position.toInt| : ℤ) : F)
    let openVwap := Function.update p.openVwap oppSideIndex (oppSideVwap * absPosition)
    let realPnl := p.realPnl +
      ((min (Qty.toInt32 clientResponse.execQty).toInt |p.position.toInt| : ℤ) : F) *
        (oppSideVwap - price) * ((sideValue.toNat : ℤ) : F)
    { p with
      position, volume, realPnl,
      openVwap :=
        if position.toInt * p.position.toInt < 0 then
          Function.update (Function.update openVwap sideIndex (price * absPosition)) oppSideIndex 0
        else openVwap }

/-- `addFill`. -/
def addFill (p : PositionInfo F) (clientResponse : MEClientResponse) :
    Except Fault (PositionInfo F) :=
  if sideToIndex clientResponse.side < openVwapSides then
    let p := p.fillPosition clientResponse
    let p :=
      if p.position = 0 then
        { p with
          openVwap := Function.update (Function.update p.openVwap (sideToIndex .sell) 0)
            (sideToIndex .buy) 0
          unrealPnl := 0 }
      else { p with unrealPnl := p.unrealAt (clientResponse.price : F) }
    .ok { p with totalPnl := p.unrealPnl + p.realPnl }
  else .error .overrun

/-- `updateBBO`. -/
def updateBBO (p : PositionInfo F) (bbo : BBO) : PositionInfo F :=
  if p.position ≠ 0 ∧ bbo.bidPrice ≠ Price.invalid ∧ bbo.askPrice ≠ Price.invalid then
    let midPrice : F := ((bbo.bidPrice + bbo.askPrice : ℤ) : F) * Double.half
    let p := { p with unrealPnl := p.unrealAt midPrice }
    { p with totalPnl := p.unrealPnl + p.realPnl }
  else p

/-- The best prices do not change a position. -/
@[simp] lemma position_updateBBO (p : PositionInfo F) (bbo : BBO) :
    (p.updateBBO bbo).position = p.position := by
  unfold updateBBO
  split_ifs <;> rfl

/-- The position after a fill. -/
lemma position_fillPosition (p : PositionInfo F) (clientResponse : MEClientResponse) :
    (p.fillPosition clientResponse).position =
      (p.position.signExtend 64 + (BitVec.ofNat 32 clientResponse.execQty).setWidth 64 *
        sideToValue clientResponse.side).setWidth 32 := by
  unfold fillPosition
  dsimp only
  split_ifs <;> rfl

/-- A `size_t` cut to 32 bits. -/
lemma toInt_setWidth_ofInt {x : ℤ} (hle : -2 ^ 31 ≤ x) (hlt : x < 2 ^ 31) :
    ((BitVec.ofInt 64 x).setWidth 32).toInt = x := by
  rw [BitVec.toInt_setWidth, BitVec.toNat_ofInt]
  unfold Int.bmod
  dsimp only
  split_ifs <;> omega

/-- The position after a fill moved by its quantity, if the result is an `int32_t`. -/
lemma toInt_position_fillPosition (p : PositionInfo F) {clientResponse : MEClientResponse}
    (hside : clientResponse.side.IsBookSide) {x : ℤ}
    (hx : p.position.toInt + positionChange clientResponse.side clientResponse.execQty = x)
    (hle : -2 ^ 31 ≤ x) (hlt : x < 2 ^ 31) :
    (p.fillPosition clientResponse).position.toInt = x := by
  -- the quantity is a `uint32_t`, since the position is in range before and afterwards
  have hqty : clientResponse.execQty < 2 ^ 32 := by
    have := p.position.toInt_lt
    have := p.position.le_toInt
    unfold positionChange at hx
    split_ifs at hx <;> omega
  have hwiden : (BitVec.ofNat 32 clientResponse.execQty).setWidth 64 =
      BitVec.ofInt 64 clientResponse.execQty := by
    apply BitVec.eq_of_toNat_eq
    rw [BitVec.toNat_setWidth, BitVec.toNat_ofNat, BitVec.toNat_ofInt]
    omega
  rw [position_fillPosition, hwiden, BitVec.mul_comm, sideToValue_mul hside]
  unfold BitVec.signExtend
  rw [← BitVec.ofInt_add, hx]
  exact toInt_setWidth_ofInt hle hlt

/-- The two sides of a book have an entry in `open_vwap_`. -/
lemma sideToIndex_lt_openVwapSides {side : Side} (hside : side.IsBookSide) :
    sideToIndex side < openVwapSides := by
  rcases hside with rfl | rfl <;> decide

/-- **A fill moves the position by its quantity**, if the result is an `int32_t`. -/
lemma safe_addFill (p : PositionInfo F) {clientResponse : MEClientResponse}
    (hside : clientResponse.side.IsBookSide) {x : ℤ}
    (hx : p.position.toInt + positionChange clientResponse.side clientResponse.execQty = x)
    (hle : -2 ^ 31 ≤ x) (hlt : x < 2 ^ 31) :
    Fallible.Safe (fun _ => False) (fun p' => p'.position.toInt = x) (p.addFill clientResponse) := by
  have hposition := p.toInt_position_fillPosition hside hx hle hlt
  unfold addFill
  rw [if_pos (sideToIndex_lt_openVwapSides hside)]
  show (PositionInfo.position (if _ then _ else _)).toInt = x
  split_ifs <;> exact hposition

end PositionInfo

/-! ## The positions of all tickers -/

/-- `PositionKeeper`. -/
structure PositionKeeper (F : Type) where
  tickerPosition : ℕ → PositionInfo F

namespace PositionKeeper

/-- `addFill`. -/
def addFill (k : PositionKeeper F) (clientResponse : MEClientResponse) :
    Except Fault (PositionKeeper F) :=
  if clientResponse.tickerId < meMaxTickers then do
    let positionInfo ← (k.tickerPosition clientResponse.tickerId).addFill clientResponse
    return { tickerPosition := Function.update k.tickerPosition clientResponse.tickerId positionInfo }
  else .error .outOfRange

/-- `updateBBO`. -/
def updateBBO (k : PositionKeeper F) (tickerId : ℕ) (bbo : BBO) : Except Fault (PositionKeeper F) :=
  if tickerId < meMaxTickers then
    .ok { tickerPosition := Function.update k.tickerPosition tickerId
            ((k.tickerPosition tickerId).updateBBO bbo) }
  else .error .outOfRange

/-- The position in a ticker. -/
def position (k : PositionKeeper F) (tickerId : ℕ) : ℤ := (k.tickerPosition tickerId).position.toInt

/-- **A fill moves the position in its ticker**, and no other one. -/
lemma safe_addFill (k : PositionKeeper F) {clientResponse : MEClientResponse}
    (hticker : clientResponse.tickerId < meMaxTickers) (hside : clientResponse.side.IsBookSide) {x : ℤ}
    (hx : k.position clientResponse.tickerId +
      positionChange clientResponse.side clientResponse.execQty = x)
    (hle : -2 ^ 31 ≤ x) (hlt : x < 2 ^ 31) :
    Fallible.Safe (fun _ => False)
      (fun k' => ∀ tickerId, k'.position tickerId =
        if tickerId = clientResponse.tickerId then x else k.position tickerId)
      (k.addFill clientResponse) := by
  unfold addFill
  rw [if_pos hticker]
  refine (PositionInfo.safe_addFill _ hside hx hle hlt).bind fun p hp tickerId => ?_
  unfold position
  dsimp only
  split_ifs with hkey
  · rw [hkey, Function.update_self]
    exact hp
  · rw [Function.update_of_ne hkey]

/-- The best prices do not change any position. -/
lemma safe_updateBBO (k : PositionKeeper F) (tickerId : ℕ) (bbo : BBO) :
    Fallible.Safe (fun _ => ¬ tickerId < meMaxTickers)
      (fun k' => ∀ tickerId, k'.position tickerId = k.position tickerId)
      (k.updateBBO tickerId bbo) := by
  unfold updateBBO
  split_ifs with hticker
  · intro tickerId'
    unfold position
    dsimp only
    by_cases hkey : tickerId' = tickerId
    · rw [hkey, Function.update_self, PositionInfo.position_updateBBO]
    · rw [Function.update_of_ne hkey]
  · exact hticker

end PositionKeeper

/-! ## The check -/

/-- `RiskCfg`. -/
structure RiskCfg (F : Type) where
  maxOrderSize : ℕ
  maxPosition : ℕ
  maxLoss : F

/-- The overload of `std::abs` that is called for a `size_t`. There is none for this type, and the
call is ambiguous. The conversion to the signed type of the same width (`long`, `long long`) turns a
large number into the negative one that it stands for, and one to a wider type keeps it. A narrower
type would cut the sum of two 32-bit numbers, and is not considered. -/
inductive AbsOverload
  | sameWidth
  | wider
  deriving DecidableEq, Repr

/-- `std::abs`. -/
def AbsOverload.abs : AbsOverload → BitVec 64 → ℤ
  | .sameWidth, x => |x.toInt|
  | .wider, x => |(x.toNat : ℤ)|

/-- `RiskInfo`. -/
structure RiskInfo (F : Type) where
  positionInfo : PositionInfo F
  riskCfg : RiskCfg F

/-- `checkPreTradeRisk`. -/
def RiskInfo.checkPreTradeRisk (overload : AbsOverload) (risk : RiskInfo F) (side : Side) (qty : ℕ) :
    RiskCheckResult :=
  if risk.riskCfg.maxOrderSize < qty then .orderTooLarge
  else if (Qty.toInt32 risk.riskCfg.maxPosition).toInt <
      overload.abs (risk.positionInfo.position.signExtend 64 +
        sideToValue side * (Qty.toInt32 qty).signExtend 64) then
    .positionTooLarge
  else if risk.positionInfo.totalPnl < risk.riskCfg.maxLoss then .lossTooLarge
  else .allowed

/-- `RiskManager::checkPreTradeRisk`. `position_info_` points into the position keeper. -/
def checkPreTradeRisk (overload : AbsOverload) (riskCfg : ℕ → RiskCfg F) (k : PositionKeeper F)
    (tickerId : ℕ) : Side → ℕ → RiskCheckResult :=
  RiskInfo.checkPreTradeRisk overload
    { positionInfo := k.tickerPosition tickerId
      riskCfg := riskCfg tickerId }

/-- A wide absolute value is that of the number which the bits stand for, or a larger one. -/
lemma AbsOverload.abs_toInt_le (overload : AbsOverload) (x : BitVec 64) :
    |x.toInt| ≤ overload.abs x := by
  cases overload with
  | sameWidth => exact le_rfl
  | wider =>
    show |x.toInt| ≤ |(x.toNat : ℤ)|
    have := x.isLt
    rw [abs_of_nonneg (Int.natCast_nonneg x.toNat), abs_le, BitVec.toInt_eq_toNat_cond]
    split_ifs <;> omega

/-- The sum that the check computes is exact in 64 bits. -/
lemma toInt_checked (position : BitVec 32) {side : Side} (hside : side.IsBookSide) {qty : ℕ}
    (hqty : qty < 2 ^ 31) :
    (position.signExtend 64 + sideToValue side * (Qty.toInt32 qty).signExtend 64).toInt =
      position.toInt + positionChange side qty := by
  unfold BitVec.signExtend
  rw [Qty.toInt_toInt32 hqty, sideToValue_mul hside, ← BitVec.ofInt_add,
    BitVec.toInt_ofInt_eq_self (by decide)]
  · have := position.le_toInt
    unfold positionChange
    split_ifs <;> omega
  · have := position.toInt_lt
    unfold positionChange
    split_ifs <;> omega

/-- **An order that is allowed** keeps the position within the limit if all of it is executed at
once. -/
lemma abs_le_of_allowed {overload : AbsOverload} {riskCfg : ℕ → RiskCfg F} {k : PositionKeeper F}
    {tickerId qty : ℕ} {side : Side} (hside : side.IsBookSide)
    (horder : (riskCfg tickerId).maxOrderSize < 2 ^ 31)
    (hposition : (riskCfg tickerId).maxPosition < 2 ^ 31)
    (hallowed : checkPreTradeRisk overload riskCfg k tickerId side qty = .allowed) :
    |k.position tickerId + positionChange side qty| ≤ (riskCfg tickerId).maxPosition := by
  unfold checkPreTradeRisk RiskInfo.checkPreTradeRisk at hallowed
  split_ifs at hallowed with hsize hlimit
  dsimp only at hsize hlimit
  have hqty : qty < 2 ^ 31 := by omega
  refine le_trans (le_of_eq ?_) ((AbsOverload.abs_toInt_le overload _).trans
    ((not_lt.mp hlimit).trans_eq (Qty.toInt_toInt32 hposition)))
  rw [toInt_checked _ hside hqty]
  rfl

/-! ## The orders for which the check is exact -/

/-- The order fits into the limits: it is not too large, all of it executed at once would leave the
position within the limit, and the loss is not too large. -/
def RiskInfo.Fits (risk : RiskInfo F) (side : Side) (qty : ℕ) : Prop :=
  qty ≤ risk.riskCfg.maxOrderSize ∧
    |risk.positionInfo.position.toInt + positionChange side qty| ≤ risk.riskCfg.maxPosition ∧
    ¬ risk.positionInfo.totalPnl < risk.riskCfg.maxLoss

/-- The three comparisons of the check. -/
lemma RiskInfo.allowed_iff (overload : AbsOverload) (risk : RiskInfo F) (side : Side) (qty : ℕ)
    (hposition : risk.riskCfg.maxPosition < 2 ^ 31) :
    risk.checkPreTradeRisk overload side qty = .allowed ↔
      qty ≤ risk.riskCfg.maxOrderSize ∧
        overload.abs (risk.positionInfo.position.signExtend 64 +
          sideToValue side * (Qty.toInt32 qty).signExtend 64) ≤ risk.riskCfg.maxPosition ∧
        ¬ risk.positionInfo.totalPnl < risk.riskCfg.maxLoss := by
  unfold RiskInfo.checkPreTradeRisk
  rw [Qty.toInt_toInt32 hposition]
  split_ifs with hsize hlimit hloss
  · exact iff_of_false (by simp) fun h => by omega
  · exact iff_of_false (by simp) fun h => absurd h.2.1 (by omega)
  · exact iff_of_false (by simp) fun h => h.2.2 hloss
  · exact iff_of_true rfl ⟨by omega, by omega, hloss⟩

/-- A wide absolute value of a number that is not negative. -/
lemma AbsOverload.abs_wider_of_nonneg {x : BitVec 64} (h : 0 ≤ x.toInt) :
    AbsOverload.wider.abs x = |x.toInt| := by
  show |(x.toNat : ℤ)| = |x.toInt|
  have := x.isLt
  rw [BitVec.toInt_eq_toNat_cond] at h ⊢
  split_ifs at h ⊢ with hlt
  · rfl
  · omega

/-- A wide absolute value of a negative number is larger than every `int32_t`. -/
lemma AbsOverload.lt_abs_wider_of_neg {x : BitVec 64} (h : x.toInt < 0) :
    2 ^ 31 < AbsOverload.wider.abs x := by
  show 2 ^ 31 < |(x.toNat : ℤ)|
  rw [abs_of_nonneg (Int.natCast_nonneg x.toNat)]
  rw [BitVec.toInt_eq_toNat_cond] at h
  split_ifs at h <;> omega

/-- **Where the check is exact.** It allows exactly the orders that fit if `std::abs` is called for
the signed type of the same width. If it is called for a wider type, an order that fits and would
leave the account short is refused, and no other order is treated in a different way.

A loss is too large where `total_pnl_ < max_loss_` holds. A comparison with a NaN does not hold, so a
NaN in either place counts as a loss that is not too large, in the check and in `Fits` alike. -/
theorem checkPreTradeRisk_exact_iff (overload : AbsOverload) (risk : RiskInfo F) {side : Side}
    (hside : side.IsBookSide) {qty : ℕ} (hqty : qty < 2 ^ 31)
    (hposition : risk.riskCfg.maxPosition < 2 ^ 31) :
    (risk.checkPreTradeRisk overload side qty = .allowed ↔ risk.Fits side qty) ↔
      overload = .sameWidth ∨
        ¬ (risk.Fits side qty ∧ risk.positionInfo.position.toInt + positionChange side qty < 0) := by
  have hsum := toInt_checked risk.positionInfo.position hside hqty
  rw [risk.allowed_iff overload side qty hposition]
  unfold RiskInfo.Fits
  rw [← hsum]
  set sum := risk.positionInfo.position.signExtend 64 +
    sideToValue side * (Qty.toInt32 qty).signExtend 64
  cases overload with
  | sameWidth => exact iff_of_true Iff.rfl (.inl rfl)
  | wider =>
    rw [or_iff_right (by decide)]
    by_cases hshort : sum.toInt < 0
    · -- the check refuses, whether the order fits or not
      have hrefused : ¬ AbsOverload.wider.abs sum ≤ risk.riskCfg.maxPosition := by
        have := AbsOverload.lt_abs_wider_of_neg hshort
        omega
      rw [and_iff_left hshort]
      exact iff_false_left fun h => hrefused h.2.1
    · rw [AbsOverload.abs_wider_of_nonneg (not_lt.mp hshort)]
      exact iff_of_true Iff.rfl fun h => hshort h.2

end Positions

/-- A flat position whose limit is 10. -/
def flatRisk : RiskInfo Rat where
  positionInfo := .new fun _ => 0
  riskCfg := { maxOrderSize := 10, maxPosition := 10, maxLoss := -100 }

/-- Sold and bought orders are checked alike by the absolute value of the same width. -/
theorem checkPreTradeRisk_exact_flat :
    (flatRisk.checkPreTradeRisk .sameWidth .sell 10 = .allowed ↔ flatRisk.Fits .sell 10) ∧
      (flatRisk.checkPreTradeRisk .wider .buy 10 = .allowed ↔ flatRisk.Fits .buy 10) :=
  ⟨(checkPreTradeRisk_exact_iff .sameWidth flatRisk (.inr rfl) (by decide) (by decide)).mpr (.inl rfl),
    (checkPreTradeRisk_exact_iff .wider flatRisk (.inl rfl) (by decide) (by decide)).mpr
      (.inr fun h => absurd h.2 (by decide))⟩

/-- A wide absolute value refuses to sell a single unit, which fits. -/
theorem checkPreTradeRisk_refuses_short :
    flatRisk.checkPreTradeRisk .wider .sell 1 = .positionTooLarge ∧
      ¬ (flatRisk.checkPreTradeRisk .wider .sell 1 = .allowed ↔ flatRisk.Fits .sell 1) := by
  refine ⟨by decide, fun h => ?_⟩
  have hallowed := h.mpr ⟨by decide, by decide, by decide +kernel⟩
  exact absurd hallowed (by decide)

end Trading
