/-
**Binary64 numbers from integers.**

The IEEE 754 binary64 number nearest to a 64-bit integer, as its bit pattern.  A magnitude `m` with
`2 ^ e ≤ m < 2 ^ (e + 1)` keeps its 53 leading bits; where bits are dropped the result goes to the
nearer neighbour, and halfway to the even one.  Everything is done on natural numbers.
-/

set_option relaxedAutoImplicit false
set_option autoImplicit false

namespace Cityscape

/-- The integer nearest to `n / d`, and of two nearest ones the even one. -/
def divRound (n d : Nat) : Nat :=
  let quotient := n / d
  let excess := 2 * (n % d)
  if d < excess ∨ (d = excess ∧ quotient % 2 = 1) then quotient + 1 else quotient

/-- A binary64 number, given by its bit pattern. -/
structure Binary64 where
  /-- The sign bit, eleven bits of biased exponent, and 52 bits of fraction. -/
  bits : UInt64
  deriving DecidableEq, Repr

namespace Binary64

/-- Zero with a positive sign. -/
def zero : Binary64 := ⟨0⟩

/-- The 53 leading bits of `m`, whose leading bit stands at place `e`; rounding up may carry to
`2 ^ 53`. -/
def significand (m e : Nat) : Nat :=
  if e ≤ 52 then m <<< (52 - e) else divRound m (1 <<< (e - 52))

/-- The pattern of the magnitude `m`.  The leading bit of the significand is not stored: it is
added into the exponent field, which is therefore one too small, and so a carry moves on to the
next exponent by itself. -/
def magnitude (m : Nat) : Nat :=
  if m = 0 then 0 else ((m.log2 + 1022) <<< 52) + significand m m.log2

/-- **The binary64 number nearest to an integer.** -/
def ofInt64 (x : Int64) : Binary64 :=
  ⟨.ofNat ((if x < 0 then 1 <<< 63 else 0) + magnitude x.toInt.natAbs)⟩

/-- The bit pattern as sixteen lower-case hexadecimal digits. -/
def hex (f : Binary64) : String :=
  .ofList ((List.range 16).map fun i => Nat.digitChar ((f.bits.toNat >>> (4 * (15 - i))) % 16))

end Binary64

end Cityscape
