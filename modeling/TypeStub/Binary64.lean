/-!
Contract: which decimal numbers lie in the range of binary floating-point numbers of 64 bits.

Owns:
- `nearest`, the rounding of a natural number to 53 significant bits;
- `holds`, the range of numbers that are rounded once;
- `holdsProduct`, the range of numbers that are computed as a product of two rounded factors.

Only numbers that are too great lie outside: what is too close to zero becomes zero.
-/

namespace TypeStub.Binary64

/-- The least number that no binary floating-point number is nearest to: half a unit in the
last place beyond the greatest one. -/
def overflowBound : Nat :=
  Nat.pow 2 1024 - Nat.pow 2 970

/-- The number of decimal digits; zero has none. -/
def width (number : Nat) : Nat :=
  if number = 0 then 0 else (Nat.toDigits 10 number).length

/-- The number with 53 significant bits that is nearest to `number`; of two, the one whose
last bit is zero. -/
def nearest (number : Nat) : Nat :=
  let unit := Nat.pow 2 (number.log2 - 52)
  let below := number / unit
  let rest := number % unit
  if unit < 2 * rest ∨ (2 * rest = unit ∧ below % 2 = 1) then (below + 1) * unit
  else below * unit

/-- `digits` times a power of ten is in range. Numbers with more than 310 digits before the
point are not, and are not computed. -/
def holds (digits : Nat) (exponent : Int) : Bool :=
  if digits = 0 then true
  else if exponent + width digits > 310 then false
  else if exponent ≥ 0 then digits * Nat.pow 10 exponent.toNat < overflowBound
  else exponent + width digits < 300 || digits < overflowBound * Nat.pow 10 (-exponent).toNat

/-- The greatest exponent whose power of ten is in range. -/
def greatestPower : Int :=
  308

/-- `digits` times a power of ten is in range if each of the two factors is rounded before
they are multiplied. A power of ten that is out of range makes no product but with zero, and
a quotient is always in range. -/
def holdsProduct (digits : Nat) (exponent : Int) : Bool :=
  if digits = 0 ∨ exponent < 0 then true
  else if exponent > greatestPower then false
  else nearest digits * nearest (Nat.pow 10 exponent.toNat) < overflowBound

end TypeStub.Binary64
