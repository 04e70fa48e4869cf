import Mathlib.Algebra.Order.Field.Rat
import Mathlib.Tactic.FieldSimp
import Mathlib.Tactic.Linarith
import Mathlib.Tactic.Ring
import HftSystem.Trading.PositionKeeper

set_option relaxedAutoImplicit false
set_option autoImplicit false

/-!
# Profit and loss

What the numbers of a position say about the fills that made it, when a `double` does not round.
`addFill` compares the product of the position and `sideToValue` with 0 to find out whether a fill
opens the position or reduces it. The product is a `size_t`, so every fill is taken for one that
opens: `real_pnl_` stays 0, and `open_vwap_` only ever grows until the position is flat.

## Main definitions

* `Trading.Account` — a position with the fills that made it.
* `Trading.Account.Balanced` — the accounting identity.
* `Trading.Account.KeepsBalance` — a fill for which it makes no difference which branch is taken.

## Main results

* `Trading.Account.balanced_iff` — the runs in which the accounts are balanced throughout.
-/

namespace Trading

open Common Exchange Fallible

/-! ## What was traded -/

/-- The quantity that the fills of a side executed. -/
def tradedQty (side : Side) (fills : List MEClientResponse) : ℕ :=
  ((fills.filter fun r => r.side = side).map MEClientResponse.execQty).sum

/-- The sum of price times quantity over the fills of a side. -/
def tradedValue (side : Side) (fills : List MEClientResponse) : ℤ :=
  ((fills.filter fun r => r.side = side).map fun r => r.price * (r.execQty : ℤ)).sum

/-- Bought minus sold quantity. -/
def netQty (fills : List MEClientResponse) : ℤ := tradedQty .buy fills - tradedQty .sell fills

/-- The position is an `int32_t` with an absolute value, and the volume a `uint32_t`. -/
def NoOverflow (fills : List MEClientResponse) : Prop :=
  -2 ^ 31 < netQty fills ∧ netQty fills < 2 ^ 31 ∧
    tradedQty .buy fills + tradedQty .sell fills < 2 ^ 32

/-- Whether the fills fit can be evaluated. -/
instance (fills : List MEClientResponse) : Decidable (NoOverflow fills) :=
  inferInstanceAs (Decidable (_ ∧ _))

/-- A number of units held, seen from a side: positive in its own direction. -/
def directed (side : Side) (position : ℤ) : ℤ := if side = .buy then position else -position

section Traded

variable {side : Side} {fills : List MEClientResponse} {r : MEClientResponse}

/-- The quantity traded on a side, with one more fill. -/
lemma tradedQty_concat : tradedQty side (fills ++ [r]) =
    tradedQty side fills + if r.side = side then r.execQty else 0 := by
  unfold tradedQty
  rw [List.filter_append, List.map_append, List.sum_append, List.filter_cons]
  split_ifs <;> simp_all

/-- The value traded on a side, with one more fill. -/
lemma tradedValue_concat : tradedValue side (fills ++ [r]) =
    tradedValue side fills + if r.side = side then r.price * (r.execQty : ℤ) else 0 := by
  unfold tradedValue
  rw [List.filter_append, List.map_append, List.sum_append, List.filter_cons]
  split_ifs <;> simp_all

/-- A fill changes the net quantity by its own. -/
lemma netQty_concat (hside : r.side.IsBookSide) :
    netQty (fills ++ [r]) = netQty fills + positionChange r.side r.execQty := by
  unfold netQty positionChange
  rw [tradedQty_concat, tradedQty_concat]
  rcases hside with hside | hside <;> simp [hside] <;> omega

/-- A fill adds its quantity to the volume. -/
lemma volume_concat (hside : r.side.IsBookSide) :
    tradedQty .buy (fills ++ [r]) + tradedQty .sell (fills ++ [r]) =
      tradedQty .buy fills + tradedQty .sell fills + r.execQty := by
  rw [tradedQty_concat, tradedQty_concat]
  rcases hside with hside | hside <;> simp [hside] <;> omega

/-- A fill moves the money by its value, in the direction of its side. -/
lemma cash_concat (fills : List MEClientResponse) (hside : r.side.IsBookSide) :
    (tradedValue .sell (fills ++ [r]) : ℚ) - tradedValue .buy (fills ++ [r]) =
      tradedValue .sell fills - tradedValue .buy fills -
        directed r.side 1 * (r.price * r.execQty) := by
  rw [tradedValue_concat, tradedValue_concat]
  rcases hside with hside | hside
  · simp [hside, directed]
    ring
  · simp [hside, directed]
    ring

/-- Seen from its own side a fill always adds to the position. -/
lemma directed_add_change (hside : r.side.IsBookSide) (position : ℤ) (qty : ℕ) :
    directed r.side (position + positionChange r.side qty) = directed r.side position + qty := by
  unfold directed positionChange
  rcases hside with hside | hside <;> simp [hside]
  omega

/-- A side sees a flat position where there is one. -/
lemma directed_eq_zero {position : ℤ} : directed side position = 0 ↔ position = 0 := by
  unfold directed
  split_ifs <;> omega

end Traded

/-! ## One fill -/

namespace PositionInfo

/-- **The branch that `addFill` takes**: a `size_t` is never negative, so the position is always
taken to be opened or increased. -/
lemma fillPosition_eq (p : PositionInfo Rat) (r : MEClientResponse) :
    p.fillPosition r =
      { p with
        position := (p.fillPosition r).position
        volume := (p.volume + r.execQty) % 2 ^ 32
        openVwap := Function.update p.openVwap (sideToIndex r.side)
          (p.openVwap (sideToIndex r.side) + r.price * r.execQty) } := by
  have hnonneg : 0 ≤ p.position.signExtend 64 * sideToValue r.side :=
    BitVec.le_def.mpr (Nat.zero_le _)
  have hvalue : ((r.price * (r.execQty : ℤ) : ℤ) : ℚ) = r.price * r.execQty := by push_cast; rfl
  rw [← hvalue, position_fillPosition]
  unfold fillPosition
  rw [if_pos hnonneg]

/-- What a position that is not flat would gain at a price. -/
lemma unrealAt_eq {p : PositionInfo Rat} (hp : p.position.toInt ≠ 0) (price : ℚ) :
    p.unrealAt price = p.position.toInt * price -
      if 0 < p.position.toInt then p.openVwap (sideToIndex .buy)
      else -p.openVwap (sideToIndex .sell) := by
  have hne : ((p.position.toInt : ℤ) : ℚ) ≠ 0 := Int.cast_ne_zero.mpr hp
  show (if _ then (price - p.openVwap _ / ((|p.position.toInt| : ℤ) : ℚ)) * ((|p.position.toInt| : ℤ) : ℚ)
    else (p.openVwap _ / ((|p.position.toInt| : ℤ) : ℚ) - price) * ((|p.position.toInt| : ℤ) : ℚ)) = _
  split_ifs with hpos
  · rw [abs_of_pos hpos]
    field_simp
  · rw [abs_of_neg (by omega)]
    push_cast
    field_simp
    ring

/-- What a fill makes of a position that has `x` units afterwards: its value is added to the entry of
its side, whether it opens the position or reduces it, and both entries are emptied when the
position becomes flat. -/
structure Filled (p : PositionInfo Rat) (r : MEClientResponse) (x : ℤ) (p' : PositionInfo Rat) :
    Prop where
  position : p'.position.toInt = x
  volume : p'.volume = (p.volume + r.execQty) % 2 ^ 32
  realPnl : p'.realPnl = p.realPnl
  totalPnl : p'.totalPnl = x * r.price - (if 0 < x then p'.openVwap (sideToIndex .buy)
    else if x < 0 then -p'.openVwap (sideToIndex .sell) else 0) + p.realPnl
  own : p'.openVwap (sideToIndex r.side) =
    if x = 0 then 0 else p.openVwap (sideToIndex r.side) + r.price * r.execQty
  opposite : p'.openVwap (sideToIndex r.side.opposite) =
    if x = 0 then 0 else p.openVwap (sideToIndex r.side.opposite)
  invalid : p'.openVwap (sideToIndex .invalid) = p.openVwap (sideToIndex .invalid)

/-- **A fill**, if the position stays an `int32_t`.

**Proof sketch.** `fillPosition_eq` says what the position, the volume and the entries are before the
flat case is looked at. A position of zero clears both entries and has no unrealized part; otherwise
the unrealized part is that of the side of the position (`unrealAt_eq`). -/
lemma safe_filled (p : PositionInfo Rat) {r : MEClientResponse} (hside : r.side.IsBookSide) {x : ℤ}
    (hx : p.position.toInt + positionChange r.side r.execQty = x) (hle : -2 ^ 31 ≤ x)
    (hlt : x < 2 ^ 31) : Safe (fun _ => False) (p.Filled r x) (p.addFill r) := by
  have hposition := p.toInt_position_fillPosition hside hx hle hlt
  have hflat : (p.fillPosition r).position = 0 ↔ x = 0 := by
    rw [← hposition, ← BitVec.toInt_inj]
    rfl
  have hvolume := congrArg PositionInfo.volume (p.fillPosition_eq r)
  have hreal := congrArg PositionInfo.realPnl (p.fillPosition_eq r)
  have hvwap := congrArg PositionInfo.openVwap (p.fillPosition_eq r)
  dsimp only at hvolume hreal hvwap
  have hopposite : sideToIndex r.side.opposite ≠ sideToIndex r.side := by
    rcases hside with hside | hside <;> rw [hside] <;> decide
  have hinvalid : sideToIndex .invalid ≠ sideToIndex r.side := by
    rcases hside with hside | hside <;> rw [hside] <;> decide
  unfold addFill
  rw [if_pos (sideToIndex_lt_openVwapSides hside), safe_ok]
  simp only [hflat]
  by_cases hzero : x = 0
  · simp only [if_pos hzero]
    refine ⟨hposition, hvolume, hreal, ?_, ?_, ?_, ?_⟩
    · show (0 : ℚ) + (p.fillPosition r).realPnl = _
      simp [hzero, hreal]
    · rw [if_pos hzero]
      rcases hside with hside | hside <;> rw [hside] <;> rfl
    · rw [if_pos hzero]
      rcases hside with hside | hside <;> rw [hside] <;> rfl
    · show (p.fillPosition r).openVwap (sideToIndex .invalid) = _
      rw [hvwap, Function.update_of_ne hinvalid]
  · simp only [if_neg hzero]
    have hunreal := unrealAt_eq (p := p.fillPosition r) (hposition.trans_ne hzero) r.price
    refine ⟨hposition, hvolume, hreal, ?_, ?_, ?_, ?_⟩
    · show (p.fillPosition r).unrealAt (r.price : ℚ) + (p.fillPosition r).realPnl = (_ : ℚ)
      rw [hunreal, hreal, hposition]
      congr 2
      split_ifs
      · rfl
      · rfl
      · omega
    · rw [if_neg hzero, hvwap, Function.update_self]
    · rw [if_neg hzero, hvwap, Function.update_of_ne hopposite]
    · rw [hvwap, Function.update_of_ne hinvalid]

end PositionInfo

/-! ## The accounts -/

/-- A position with the fills that made it. -/
structure Account where
  positionInfo : PositionInfo Rat
  fills : List MEClientResponse

namespace Account

/-- A position as it is created, with an empty `open_vwap_`. -/
def new : Account := { positionInfo := .new fun _ => 0, fills := [] }

/-- `PositionInfo::addFill`. -/
def addFill (a : Account) (r : MEClientResponse) : Except Fault Account := do
  let positionInfo ← a.positionInfo.addFill r
  return { positionInfo, fills := a.fills ++ [r] }

/-- **The accounts are balanced.**

* The position is the bought quantity minus the sold one, and the volume their sum.
* The total profit is what the sells brought minus what the buys cost plus the value of the position
  at the price of the last fill.
* The entries of `open_vwap_` are 0, but for the side that has the sign of the position. -/
structure Balanced (a : Account) : Prop where
  position : a.positionInfo.position.toInt = netQty a.fills
  volume : a.positionInfo.volume = tradedQty .buy a.fills + tradedQty .sell a.fills
  totalPnl : ∀ r, a.fills.getLast? = some r →
    a.positionInfo.totalPnl = (tradedValue .sell a.fills : ℚ) - tradedValue .buy a.fills +
      a.positionInfo.position.toInt * r.price
  openVwap : ∀ i < PositionInfo.openVwapSides,
    ¬ (0 < a.positionInfo.position.toInt ∧ i = sideToIndex .buy) →
    ¬ (a.positionInfo.position.toInt < 0 ∧ i = sideToIndex .sell) → a.positionInfo.openVwap i = 0

/-- **The branch makes no difference.** A fill that reduces the position has price 0, or it closes
the position at the value that it was opened at, or it turns around a position that was opened at
no value at all. -/
def KeepsBalance (a : Account) (r : MEClientResponse) : Prop :=
  let held := directed r.side a.positionInfo.position.toInt
  let opened := a.positionInfo.openVwap (sideToIndex r.side.opposite)
  held < 0 →
    (held + r.execQty < 0 → r.price = 0) ∧
    (held + r.execQty = 0 → (r.price * r.execQty : ℚ) = opened) ∧
    (0 < held + r.execQty → opened = 0)

/-- Whether a fill keeps the balance can be evaluated. -/
instance (a : Account) (r : MEClientResponse) : Decidable (KeepsBalance a r) :=
  inferInstanceAs (Decidable (_ → _ ∧ _ ∧ _))

/-- The invariant of balanced accounts: what the sells brought minus what the buys cost is what the
entries of `open_vwap_` say, and nothing was realized. -/
structure Tracked (a : Account) : Prop where
  position : a.positionInfo.position.toInt = netQty a.fills
  volume : a.positionInfo.volume = tradedQty .buy a.fills + tradedQty .sell a.fills
  realPnl : a.positionInfo.realPnl = 0
  totalPnl : ∀ r, a.fills.getLast? = some r →
    a.positionInfo.totalPnl = a.positionInfo.position.toInt * r.price -
      (a.positionInfo.openVwap (sideToIndex .buy) - a.positionInfo.openVwap (sideToIndex .sell))
  cash : (tradedValue .sell a.fills : ℚ) - tradedValue .buy a.fills =
    a.positionInfo.openVwap (sideToIndex .sell) - a.positionInfo.openVwap (sideToIndex .buy)
  buy : ¬ 0 < a.positionInfo.position.toInt → a.positionInfo.openVwap (sideToIndex .buy) = 0
  sell : ¬ a.positionInfo.position.toInt < 0 → a.positionInfo.openVwap (sideToIndex .sell) = 0
  invalid : a.positionInfo.openVwap (sideToIndex .invalid) = 0

/-- Nothing has been traded. -/
lemma tracked_new : Tracked new := by
  refine ⟨rfl, rfl, rfl, fun r hr => ?_, rfl, fun _ => rfl, fun _ => rfl, rfl⟩
  cases hr

variable {a a' : Account} {r : MEClientResponse}

/-- The invariant is enough. -/
lemma Tracked.balanced (h : Tracked a) : Balanced a := by
  refine ⟨h.position, h.volume, fun r hr => ?_, fun i hi hbuy hsell => ?_⟩
  · rw [h.totalPnl r hr, h.cash]
    ring
  · have hsides : i = sideToIndex .sell ∨ i = sideToIndex .invalid ∨ i = sideToIndex .buy := by
      unfold PositionInfo.openVwapSides at hi
      simp only [sideToIndex]
      omega
    rcases hsides with rfl | rfl | rfl
    · exact h.sell fun hneg => hsell ⟨hneg, rfl⟩
    · exact h.invalid
    · exact h.buy fun hpos => hbuy ⟨hpos, rfl⟩

/-- The entries of the two sides, seen from one of them. -/
lemma vwap_sub {side : Side} (hside : side.IsBookSide) (f : ℕ → ℚ) :
    f (sideToIndex .sell) - f (sideToIndex .buy) =
      directed side 1 * (f (sideToIndex side.opposite) - f (sideToIndex side)) := by
  rcases hside with rfl | rfl
  · show _ = ((1 : ℤ) : ℚ) * (f (sideToIndex .sell) - f (sideToIndex .buy))
    rw [Int.cast_one, one_mul]
  · show _ = ((-1 : ℤ) : ℚ) * (f (sideToIndex .buy) - f (sideToIndex .sell))
    push_cast
    ring

/-- The entries are empty but for the side of the position, seen from one of the sides. -/
lemma empty_iff {side : Side} (hside : side.IsBookSide) (f : ℕ → ℚ) (x : ℤ) :
    ((¬ 0 < x → f (sideToIndex .buy) = 0) ∧ (¬ x < 0 → f (sideToIndex .sell) = 0)) ↔
      (¬ 0 < directed side x → f (sideToIndex side) = 0) ∧
        (¬ directed side x < 0 → f (sideToIndex side.opposite) = 0) := by
  rcases hside with rfl | rfl
  · exact Iff.rfl
  · unfold directed
    simp only [reduceCtorEq, if_false, Side.opposite, neg_pos, neg_neg_iff_pos]
    exact and_comm

/-- The position after a fill, seen from its side. -/
lemma Tracked.directed_netQty (h : Tracked a) (hside : r.side.IsBookSide) :
    directed r.side (netQty (a.fills ++ [r])) =
      directed r.side a.positionInfo.position.toInt + r.execQty := by
  rw [netQty_concat hside, ← h.position, directed_add_change hside]

/-- **A fill keeps the invariant** if the branch makes no difference.

**Proof sketch.** An entry is empty exactly if the account does not hold units of its side, and
`KeepsBalance` says what the two entries were where the fill turns or closes the position. So the
entries after the fill are empty where they should be. The cash of the fill is what its own entry
gains, and with the entries the total is the value of the position less the cash that was paid for it. -/
lemma Tracked.of_filled (h : Tracked a) (hside : r.side.IsBookSide) (hqty : 0 < r.execQty)
    (hrange : NoOverflow (a.fills ++ [r])) {p' : PositionInfo Rat}
    (hfilled : a.positionInfo.Filled r (netQty (a.fills ++ [r])) p') (hkeeps : KeepsBalance a r) :
    Tracked { positionInfo := p', fills := a.fills ++ [r] } := by
  have hmoved := h.directed_netQty hside
  set x := netQty (a.fills ++ [r])
  set held := directed r.side a.positionInfo.position.toInt
  have hzero : x = 0 ↔ held + r.execQty = 0 := by rw [← hmoved, directed_eq_zero]
  obtain ⟨hown, hopp⟩ := (empty_iff hside _ _).mp ⟨h.buy, h.sell⟩
  -- what is left of the two entries
  have hempty := (empty_iff hside p'.openVwap x).mpr (by
    rw [hmoved, hfilled.own, hfilled.opposite]
    refine ⟨fun hnot => ?_, fun hnot => ?_⟩
    · split_ifs with hflat
      · rfl
      · have hprice := (hkeeps (by omega)).1 (by omega)
        rw [hown (by omega), hprice]
        simp
    · split_ifs with hflat
      · rfl
      · by_cases hreduces : held < 0
        · exact (hkeeps hreduces).2.2 (by omega)
        · exact hopp hreduces)
  refine ⟨hfilled.position, ?_, hfilled.realPnl.trans h.realPnl, fun r' hr' => ?_, ?_, ?_, ?_,
    hfilled.invalid.trans h.invalid⟩
  · rw [hfilled.volume, h.volume, ← volume_concat hside, Nat.mod_eq_of_lt hrange.2.2]
  · obtain rfl : r = r' := by simpa using hr'
    show p'.totalPnl = p'.position.toInt * r.price - _
    rw [hfilled.totalPnl, hfilled.position, h.realPnl, add_zero]
    congr 1
    split_ifs with hlong hshort
    · rw [hempty.2 (by omega), sub_zero]
    · rw [hempty.1 hlong, zero_sub]
    · rw [hempty.1 hlong, hempty.2 hshort, sub_zero]
  · show (tradedValue .sell (a.fills ++ [r]) : ℚ) - tradedValue .buy (a.fills ++ [r]) =
      p'.openVwap (sideToIndex .sell) - p'.openVwap (sideToIndex .buy)
    rw [cash_concat a.fills hside, h.cash, vwap_sub hside, vwap_sub hside, hfilled.own, hfilled.opposite,
      ← mul_sub]
    congr 1
    split_ifs with hflat
    · rw [hown (by omega), (hkeeps (by omega)).2.1 (by omega)]
      ring
    · ring
  · rw [hfilled.position]
    exact hempty.1
  · rw [hfilled.position]
    exact hempty.2

/-- **A fill that the branch matters for** leaves the accounts out of balance.

**Proof sketch.** The empty entry of accounts that are balanced says what the fill left in it, and the
total profit says what was realized. Each of the three cases of `KeepsBalance` is one of these, read as
an equation: less of the position gives the entry of its own side, a flat position the total profit,
and a position that turns the entry of the other side. -/
lemma Tracked.keepsBalance_of_filled (h : Tracked a) (hside : r.side.IsBookSide) (hqty : 0 < r.execQty)
    {p' : PositionInfo Rat} (hfilled : a.positionInfo.Filled r (netQty (a.fills ++ [r])) p')
    (hbalanced : Balanced { positionInfo := p', fills := a.fills ++ [r] }) : KeepsBalance a r := by
  have hmoved := h.directed_netQty hside
  have hcash := cash_concat a.fills hside
  set x := netQty (a.fills ++ [r])
  have hzero : x = 0 ↔ directed r.side a.positionInfo.position.toInt + r.execQty = 0 := by
    rw [← hmoved, directed_eq_zero]
  obtain ⟨hown, -⟩ := (empty_iff hside _ _).mp ⟨h.buy, h.sell⟩
  have hvwap := hbalanced.openVwap
  simp only [hfilled.position] at hvwap
  have hempty := (empty_iff hside p'.openVwap x).mp
    ⟨fun hlong => hvwap _ (by decide) (fun hbuy => hlong hbuy.1) (by simp [sideToIndex]),
      fun hshort => hvwap _ (by decide) (by simp [sideToIndex]) fun hsell => hshort hsell.1⟩
  rw [hmoved, hfilled.own, hfilled.opposite] at hempty
  intro hreduces
  refine ⟨fun hless => ?_, fun hflat => ?_, fun hturns => ?_⟩
  · have hvalue := hempty.1 (by omega)
    rw [if_neg (by omega), hown (by omega), zero_add] at hvalue
    have hne : (r.execQty : ℚ) ≠ 0 := by positivity
    exact_mod_cast (mul_eq_zero.mp hvalue).resolve_right hne
  · -- the total profit of a flat position is what was realized, and that is nothing
    have htotal := hbalanced.totalPnl r (by simp)
    simp only [hfilled.totalPnl, hfilled.position, hzero.mpr hflat, h.realPnl, hcash, h.cash,
      vwap_sub hside, hown (by omega : ¬ 0 < directed r.side a.positionInfo.position.toInt)] at htotal
    have hdirected : directed r.side 1 * ((r.price * r.execQty : ℚ) -
        a.positionInfo.openVwap (sideToIndex r.side.opposite)) = 0 := by
      simp only [lt_self_iff_false, if_false, Int.cast_zero] at htotal
      linarith
    have hne : (directed r.side 1 : ℚ) ≠ 0 := by
      rw [Int.cast_ne_zero, ne_eq, directed_eq_zero]
      exact one_ne_zero
    exact sub_eq_zero.mp ((mul_eq_zero.mp hdirected).resolve_left hne)
  · have hvalue := hempty.2 (by omega)
    rwa [if_neg (by omega)] at hvalue

/-- **One fill**: it is added, and the accounts stay in balance exactly if the branch makes no
difference. -/
lemma Tracked.addFill (h : Tracked a) (hside : r.side.IsBookSide) (hqty : 0 < r.execQty)
    (hrange : NoOverflow (a.fills ++ [r])) :
    Safe (fun _ => False)
      (fun a' => (KeepsBalance a r → Tracked a') ∧ (Balanced a' → KeepsBalance a r))
      (a.addFill r) := by
  refine (a.positionInfo.safe_filled hside (x := netQty (a.fills ++ [r])) ?_ hrange.1.le
    hrange.2.1).bind fun p' hfilled => ?_
  · rw [netQty_concat hside, h.position]
  · exact ⟨h.of_filled hside hqty hrange hfilled, h.keepsBalance_of_filled hside hqty hfilled⟩

/-- A fill is remembered. -/
lemma fills_of_addFill (h : a.addFill r = .ok a') : a'.fills = a.fills ++ [r] := by
  obtain ⟨p', -, hp'⟩ := bind_eq_ok.mp h
  cases hp'
  rfl

/-- **When the accounts are balanced.** Of the fills of a book side, as long as nothing overflows,
each one is booked, and the accounts are balanced after each one exactly if for each one the branch
makes no difference.

**Proof sketch.** Every fill of a book side is booked. `Tracked` is the invariant, which says that both
entries are as the position demands. A fill on which the branch makes no difference keeps it, and one
on which it makes a difference leaves accounts that are not balanced (`Tracked.addFill`); so the two
properties of the runs are the same (`always_iff_meets`). -/
theorem balanced_iff {fills : List MEClientResponse}
    (hfills : ∀ r ∈ fills, r.side.IsBookSide ∧ 0 < r.execQty)
    (hrange : ∀ pre, pre <+: fills → NoOverflow pre) :
    (∃ a, fills.foldlM addFill new = .ok a) ∧
      (Always addFill Balanced new fills ↔ Meets addFill KeepsBalance new fills) := by
  have hcompletes : ∀ a : Account, ∀ r ∈ fills, ∃ a', a.addFill r = .ok a' := by
    intro a r hr
    unfold Account.addFill PositionInfo.addFill
    rw [if_pos (PositionInfo.sideToIndex_lt_openVwapSides (hfills r hr).1)]
    exact ⟨_, rfl⟩
  have hall : Safe (fun _ => False) (fun _ : Account => True) (fills.foldlM addFill new) := by
    refine safe_foldlM (fun a r _ (hr : r ∈ fills) => ?_) trivial
      (Meets.of_forall fun _ hr => hr)
    obtain ⟨a', ha'⟩ := hcompletes a r hr
    rw [ha']
    trivial
  obtain ⟨last, hlast, -⟩ := hall.exists_ok
  have hD : Meets addFill
      (fun a r => NoOverflow (a.fills ++ [r]) ∧ r ∈ fills) new fills := by
    have hhistory : Meets addFill (fun a r => NoOverflow (a.fills ++ [r])) new fills :=
      Meets.of_history (fun _ _ _ => fills_of_addFill) fun pre r hpre => hrange _ hpre
    exact hhistory.and_forall fun r hr => hr
  have hstep : ∀ a r a', Tracked a → NoOverflow (a.fills ++ [r]) ∧ r ∈ fills →
      a.addFill r = .ok a' →
      (KeepsBalance a r → Tracked a') ∧ (Balanced a' → KeepsBalance a r) :=
    fun a r a' ha hr => ((ha.addFill (hfills r hr.2).1 (hfills r hr.2).2 hr.1).of_eq_ok ·)
  refine ⟨⟨last, hlast⟩, ?_⟩
  rw [always_iff_meets (fun a r a' ha hr hkeeps ha' => (hstep a r a' ha hr ha').1 hkeeps)
    (fun _ => Tracked.balanced)
    (fun a r a' ha hr hnot ha' hbalanced => hnot ((hstep a r a' ha hr ha').2 hbalanced))
    tracked_new hD]
  refine ⟨fun h => (h.and hD).mono fun a r hr => ?_, fun h => h.mono fun a r hr _ _ => hr⟩
  obtain ⟨a', ha'⟩ := hcompletes a r hr.2.2
  exact hr.1 a' ha'

/-- Ten units are bought in two fills and sold at the value that was paid for them. -/
def sampleFills : List MEClientResponse :=
  [{ type := .filled, side := .buy, price := 10, execQty := 4 },
   { type := .filled, side := .buy, price := 20, execQty := 6 },
   { type := .filled, side := .sell, price := 16, execQty := 10 }]

/-- The accounts of these fills are balanced. -/
theorem balanced_sampleFills : Always addFill Balanced new sampleFills :=
  (balanced_iff (by decide) fun pre hpre => by
    have hall : ∀ pre ∈ sampleFills.inits, NoOverflow pre := by decide
    exact hall pre ((List.mem_inits ..).mpr hpre)).2.mpr (by decide +kernel)

/-- Ten units are bought at 100, and four of them are sold at 110. -/
def reducingFills : List MEClientResponse :=
  [{ type := .filled, side := .buy, price := 100, execQty := 10 },
   { type := .filled, side := .sell, price := 110, execQty := 4 }]

/-- The sell fill is taken for one that opens a position: nothing is realized, the total profit is
-340, where the fills and the price make 100, and the entry of the sell side is not 0. -/
theorem not_balanced_reducingFills :
    ∃ a, reducingFills.foldlM addFill new = .ok a ∧ a.positionInfo.totalPnl = -340 ∧
      (tradedValue .sell reducingFills : ℚ) - tradedValue .buy reducingFills +
        a.positionInfo.position.toInt * 110 = 100 ∧ ¬ Balanced a := by
  have hrun : Safe (fun _ => False)
      (fun a : Account => a.positionInfo.totalPnl = -340 ∧ a.positionInfo.position.toInt = 6 ∧
        a.positionInfo.openVwap 0 = 440)
      (reducingFills.foldlM addFill new) := by
    decide +kernel
  obtain ⟨a, ha, hpnl, hposition, hvwap⟩ := hrun.exists_ok
  refine ⟨a, ha, hpnl, ?_, fun h => ?_⟩
  · rw [hposition]
    decide +kernel
  · have hempty := h.openVwap 0 (by decide) (fun hbuy => absurd hbuy.2 (by decide)) fun hsell => by
      have := hsell.1
      omega
    rw [hvwap] at hempty
    norm_num at hempty

end Account

end Trading
