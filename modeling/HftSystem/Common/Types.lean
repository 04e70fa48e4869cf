import Mathlib.Data.Int.ModEq
import Mathlib.Tactic.Lemma
import HftSystem.Lib.Fallible

set_option relaxedAutoImplicit false
set_option autoImplicit false

/-!
# Shared types, limits and failures

The limits of `utils/types.h`, the side of an order, and the two ways in which `utils/macros.h`
ends the process. `OrderId`, `TickerId`, `ClientId` and `Priority` are natural numbers: an
execution that wraps a 64-bit counter needs `2 ^ 64` requests. `Price` is an integer, of which
`int64_t` is a range. `Qty` is a natural number, and the places where a `uint32_t` truncates
say so.

## Main definitions

* `Common.Side` — the side byte of an order, with the bytes that name no side.
* `Common.priceToIndex` — the bucket of a price in a book's table of price levels.
* `Common.Fault` — how an operation can fail to return.

## Main results

* `Common.priceToIndex_eq_iff` — two prices share a bucket exactly when they are congruent.
-/

namespace Common

/-- `ME_MAX_TICKERS`. -/
def meMaxTickers : ℕ := 8

/-- `ME_MAX_NUM_CLIENTS`. -/
def meMaxNumClients : ℕ := 256

/-- `ME_MAX_ORDER_IDS`. -/
def meMaxOrderIds : ℕ := 1024 * 1024

/-- `ME_MAX_PRICE_LEVELS`. -/
def meMaxPriceLevels : ℕ := 256

/-- `OrderId_INVALID`, the largest `uint64_t`. -/
def OrderId.invalid : ℕ := 2 ^ 64 - 1

/-- `TickerId_INVALID`, the largest `uint32_t`. -/
def TickerId.invalid : ℕ := 2 ^ 32 - 1

/-- `ClientId_INVALID`, the largest `uint64_t`. -/
def ClientId.invalid : ℕ := 2 ^ 64 - 1

/-- `Price_INVALID`, the largest `int64_t`. -/
def Price.invalid : ℤ := 2 ^ 63 - 1

/-- `Qty_INVALID`, the largest `uint32_t`. -/
def Qty.invalid : ℕ := 2 ^ 32 - 1

/-- `Priority_INVALID`, the largest `uint64_t`. -/
def Priority.invalid : ℕ := 2 ^ 64 - 1

/-- The side of an order. The enumeration has an `int8_t` underneath, so a record read from
the network can also hold a byte that is none of the three enumerators. -/
inductive Side
  | invalid
  | buy
  | sell
  | other (byte : ℤ)
  deriving DecidableEq, Repr

/-- The two sides of a book. -/
def Side.IsBookSide (side : Side) : Prop := side = .buy ∨ side = .sell

/-- Whether a side is one of a book can be evaluated. -/
instance (side : Side) : Decidable side.IsBookSide := inferInstanceAs (Decidable (_ ∨ _))

/-- The side an order on `side` trades against. -/
def Side.opposite : Side → Side
  | .buy => .sell
  | _ => .buy

/-- `sideToIndex`: the byte is converted to `size_t`, and 1 is added there. -/
def sideToIndex : Side → ℕ
  | .invalid => 1
  | .buy => 2
  | .sell => 0
  | .other byte => ((byte % 2 ^ 64).toNat + 1) % 2 ^ 64

/-- `sideToValue`: the byte as a `size_t`. -/
def sideToValue : Side → BitVec 64
  | .invalid => 0
  | .buy => 1
  | .sell => BitVec.ofInt 64 (-1)
  | .other byte => BitVec.ofInt 64 byte

/-- The two sides of a book have an index of their own. -/
lemma sideToIndex_inj {side side' : Side} (h : side.IsBookSide) (h' : side'.IsBookSide) :
    sideToIndex side = sideToIndex side' ↔ side = side' := by
  rcases h with rfl | rfl <;> rcases h' with rfl | rfl <;> decide

/-- `orderIdToString`. -/
def orderIdToString (orderId : ℕ) : String :=
  if orderId = OrderId.invalid then "INVALID" else toString orderId

/-- `tickerIdToString`. -/
def tickerIdToString (tickerId : ℕ) : String :=
  if tickerId = TickerId.invalid then "INVALID" else toString tickerId

/-- `clientIdToString`. -/
def clientIdToString (clientId : ℕ) : String :=
  if clientId = ClientId.invalid then "INVALID" else toString clientId

/-- `priceToString`. -/
def priceToString (price : ℤ) : String :=
  if price = Price.invalid then "INVALID" else toString price

/-- `qtyToString`. -/
def qtyToString (qty : ℕ) : String :=
  if qty = Qty.invalid then "INVALID" else toString qty

/-- `priorityToString`. -/
def priorityToString (priority : ℕ) : String :=
  if priority = Priority.invalid then "INVALID" else toString priority

/-- `sideToString`. -/
def sideToString : Side → String
  | .buy => "BUY"
  | .sell => "SELL"
  | .invalid => "INVALID"
  | .other _ => "UNKNOWN"

/-- `priceToIndex` of both books: the remainder is taken in `size_t`, so a negative price is
first converted modulo `2 ^ 64`. -/
def priceToIndex (price : ℤ) : ℕ := (price % 2 ^ 64).toNat % meMaxPriceLevels

/-- The conversion to `size_t` does not matter, since the number of levels divides `2 ^ 64`. -/
lemma priceToIndex_cast (price : ℤ) : (priceToIndex price : ℤ) = price % meMaxPriceLevels := by
  simp only [priceToIndex, meMaxPriceLevels]
  omega

/-- **Two prices share a bucket exactly when they are congruent.** -/
theorem priceToIndex_eq_iff {p q : ℤ} :
    priceToIndex p = priceToIndex q ↔ p ≡ q [ZMOD meMaxPriceLevels] := by
  rw [← Nat.cast_inj (R := ℤ), priceToIndex_cast, priceToIndex_cast]
  rfl

/-- How an operation can fail to return: a null pointer is followed, `std::array::at` throws
inside a `noexcept` function, a vector or a buffer is indexed past its end, `memcpy` is given
regions that overlap, an `ASSERT` or `FATAL` ends the process, or a loop is not over when its bound
is used up. -/
inductive Fault
  | nullPointer
  | outOfRange
  | overrun
  | overlap
  | assert (msg : String)
  | diverges
  deriving DecidableEq, Repr

/-- `ASSERT`. -/
def ASSERT (cond : Prop) [Decidable cond] (msg : String) : Except Fault Unit :=
  if cond then .ok () else .error (.assert msg)

/-- An `ASSERT` whose condition holds does nothing. -/
@[simp] lemma ASSERT_of_true {cond : Prop} [Decidable cond] (h : cond) (msg : String) :
    ASSERT cond msg = .ok () := if_pos h

/-- After an `ASSERT` its condition holds. -/
lemma safe_ASSERT {allow : Fault → Prop} {cond : Prop} [Decidable cond] {msg : String}
    (h : ¬ cond → allow (.assert msg)) : Fallible.Safe allow (fun _ => cond) (ASSERT cond msg) := by
  unfold ASSERT
  split
  · assumption
  · exact h ‹_›

/-- A block address. Blocks live in a memory pool and are named by their index there. -/
abbrev Ptr := ℕ

/-- The block behind a pointer that the program is about to follow. -/
def deref : Option Ptr → Except Fault Ptr
  | some p => .ok p
  | none => .error .nullPointer

/-- A pointer that is not null can be followed. -/
@[simp] lemma deref_some (p : Ptr) : deref (some p) = .ok p := rfl

end Common
