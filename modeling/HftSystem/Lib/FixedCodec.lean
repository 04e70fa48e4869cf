import Mathlib.Tactic.Lemma
import Mathlib.Tactic.Ring
import Mathlib.Data.List.Basic
import Mathlib.Algebra.Order.Ring.Int

set_option relaxedAutoImplicit false
set_option autoImplicit false

/-!
# Records of a fixed number of bytes

A record that is sent as its bytes in memory has a fixed size, and its fields stand at fixed
offsets. `FixedCodec` is such a representation together with its round trip; records are put
together from little-endian integers with `pair`, and get their names with `iso`.

## Main definitions

* `Wire.FixedCodec` — a representation with a fixed number of bytes.
* `Wire.unsigned`, `Wire.signed`, `Wire.padding` — integers in little-endian order, and bytes
  that nobody reads.
* `Wire.FixedCodec.pair`, `Wire.FixedCodec.iso` — records.

## Main results

* `Wire.ofLittleEndian_littleEndian` — an integer is read back up to the width of the field.
* `Wire.FixedCodec.length_flatMap_encode` — the length of a stream of records.
-/

namespace Wire

/-- The `w` bytes of `n`, the lowest one first. -/
def littleEndian : ℕ → ℕ → List UInt8
  | 0, _ => []
  | w + 1, n => UInt8.ofNat n :: littleEndian w (n / 256)

/-- The number that the bytes stand for, the lowest one first. -/
def ofLittleEndian : List UInt8 → ℕ
  | [] => 0
  | b :: bs => b.toNat + 256 * ofLittleEndian bs

/-- An integer of `w` bytes has `w` bytes. -/
@[simp] lemma length_littleEndian (w n : ℕ) : (littleEndian w n).length = w := by
  induction w generalizing n with
  | zero => rfl
  | succ w ih => simp [littleEndian, ih]

/-- **An integer is read back up to the width of the field.** -/
lemma ofLittleEndian_littleEndian (w n : ℕ) :
    ofLittleEndian (littleEndian w n) = n % 256 ^ w := by
  induction w generalizing n with
  | zero => simp [littleEndian, ofLittleEndian, Nat.mod_one]
  | succ w ih =>
    have hbyte : (UInt8.ofNat n).toNat = n % 256 := UInt8.toNat_ofNat'
    rw [littleEndian, ofLittleEndian, ih, hbyte, pow_succ, Nat.mul_comm (256 ^ w), Nat.mod_mul]

/-- A representation of the values of `α` by `size` bytes. The values that `Fits` are those that
the representation tells apart: decoding gives them back. -/
structure FixedCodec (α : Type) where
  size : ℕ
  encode : α → List UInt8
  decode : List UInt8 → α
  Fits : α → Prop
  length_encode : ∀ a, (encode a).length = size
  decode_encode : ∀ a, Fits a → decode (encode a) = a

/-- An unsigned integer of `w` bytes. -/
def unsigned (w : ℕ) : FixedCodec ℕ where
  size := w
  encode := littleEndian w
  decode := ofLittleEndian
  Fits n := n < 256 ^ w
  length_encode := length_littleEndian w
  decode_encode n h := by rw [ofLittleEndian_littleEndian, Nat.mod_eq_of_lt h]

/-- A number in the range of `w` bytes is read back from its two's complement. -/
lemma bmod_ofLittleEndian (w : ℕ) {z : ℤ} (hle : -(256 ^ w : ℕ) ≤ z * 2)
    (hlt : z * 2 < (256 ^ w : ℕ)) :
    (ofLittleEndian (littleEndian w (z % (256 ^ w : ℕ)).toNat) : ℤ).bmod (256 ^ w) = z := by
  have hpos : 0 < 256 ^ w := Nat.pow_pos (by decide)
  generalize hm : 256 ^ w = m at *
  have hnonneg : 0 ≤ z % (m : ℤ) := Int.emod_nonneg z (by omega)
  have hmod : z % (m : ℤ) < m := Int.emod_lt_of_pos z (by omega)
  rw [ofLittleEndian_littleEndian, hm, Nat.mod_eq_of_lt (by omega), Int.toNat_of_nonneg hnonneg,
    Int.emod_bmod, Int.bmod_eq_of_le_mul_two hle hlt]

/-- A signed integer of `w` bytes in two's complement. -/
def signed (w : ℕ) : FixedCodec ℤ where
  size := w
  encode z := littleEndian w (z % (256 ^ w : ℕ)).toNat
  decode bs := (ofLittleEndian bs : ℤ).bmod (256 ^ w)
  Fits z := -(256 ^ w : ℕ) ≤ z * 2 ∧ z * 2 < (256 ^ w : ℕ)
  length_encode _ := length_littleEndian w _
  decode_encode _ h := bmod_ofLittleEndian w h.1 h.2

/-- `w` bytes that are never read. -/
def padding (w : ℕ) : FixedCodec Unit where
  size := w
  encode _ := List.replicate w 0
  decode _ := ()
  Fits _ := True
  length_encode _ := List.length_replicate
  decode_encode _ _ := rfl

namespace FixedCodec

variable {α β : Type}

/-- A field and the fields behind it. -/
def pair (c : FixedCodec α) (d : FixedCodec β) : FixedCodec (α × β) where
  size := c.size + d.size
  encode x := c.encode x.1 ++ d.encode x.2
  decode bs := (c.decode (bs.take c.size), d.decode (bs.drop c.size))
  Fits x := c.Fits x.1 ∧ d.Fits x.2
  length_encode x := by rw [List.length_append, c.length_encode, d.length_encode]
  decode_encode x h := by
    rw [List.take_left' (c.length_encode x.1), List.drop_left' (c.length_encode x.1),
      c.decode_encode x.1 h.1, d.decode_encode x.2 h.2]

/-- The same bytes for another type: `read` and `write` say what the values mean, and agree on
those for which `Means` holds. -/
def iso (c : FixedCodec α) (write : β → α) (read : α → β) (Means : β → Prop)
    (h : ∀ b, Means b → read (write b) = b) : FixedCodec β where
  size := c.size
  encode b := c.encode (write b)
  decode bs := read (c.decode bs)
  Fits b := c.Fits (write b) ∧ Means b
  length_encode b := c.length_encode (write b)
  decode_encode b hb := by rw [c.decode_encode _ hb.1, h b hb.2]

/-- **The length of a stream of records.** -/
lemma length_flatMap_encode (c : FixedCodec α) (as : List α) :
    (as.flatMap c.encode).length = c.size * as.length := by
  induction as with
  | nil => rfl
  | cons a as ih =>
    rw [List.flatMap_cons, List.length_append, ih, c.length_encode, List.length_cons]
    ring

end FixedCodec

end Wire
