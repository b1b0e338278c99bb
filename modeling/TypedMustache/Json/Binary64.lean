import TypedMustache.Json.Basic

/-! The binary64 value of a number literal, as far as it decides which literals have one.
The value is a product of two binary64 numbers, one for the leading digits and one for
the power of ten. Both are rounded before they are multiplied, so next to the largest
number the range has no sharp end: 1.79769313486231581e308 lies within it and the
smaller 1.7976931348623158e308 does not. -/

namespace TypedMustache.Json

/-- The number of at most 53 significant bits that is nearest to `n`, the even one of two. -/
def roundBits (n : Nat) : Nat :=
  let unit := Nat.pow 2 (n.log2 - 52)
  let below := n / unit
  let rest := 2 * (n % unit)
  if rest < unit ∨ (rest = unit ∧ below % 2 = 0) then below * unit else (below + 1) * unit

/-- The least product that rounds past the largest finite binary64 number. -/
def binary64Limit : Nat := Nat.pow 2 1024 - Nat.pow 2 970

namespace Number

/-- The leading digits of the coefficient that fit in 64 bits, at most twenty of them, and
the number of digits after them. -/
def leadingDigits (n : Number) : Nat × Nat :=
  let excess := (Nat.toDigits 10 n.coefficient).length - 20
  let leading := n.coefficient / Nat.pow 10 excess
  if leading < UInt64.size then (leading, excess) else (leading / 10, excess + 1)

/-- Whether the literal has a finite binary64 value. Digits that do not fit in 64 bits
count only by their number. -/
def isFinite (n : Number) : Bool :=
  let (leading, dropped) := n.leadingDigits
  let exponent := n.exponent + dropped
  leading == 0 || exponent < 0 ||
    (exponent ≤ 308 &&
      roundBits leading * roundBits (Nat.pow 10 exponent.toNat) < binary64Limit)

example : isFinite { coefficient := 179769313486231581, exponent := 291, integral := false } := by
  decide +kernel

example : ¬ isFinite { coefficient := 17976931348623158, exponent := 292, integral := false } := by
  decide +kernel

end Number

end TypedMustache.Json
