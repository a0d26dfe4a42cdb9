import ZioControl.Text.Numeral

/-!
# Fixed places

A floating-point number with a fixed count of decimals. The number is taken exactly as its bits
spell it, as a whole number times a power of two, and is rounded once: to the nearest decimal of
that many places, and to the even one of two that are equally near.
-/

namespace ZioControl.Text

/-- A quotient rounded to the nearest whole number, a half to the even neighbour. -/
def roundDiv (num den : Nat) : Nat :=
  let low := num / den
  let rest := num % den
  if 2 * rest < den then low
  else if den < 2 * rest then low + 1
  else if low % 2 = 0 then low else low + 1

/-- A number of units of the last place as a decimal with that many places. -/
def decimalPlaces (places units : Nat) : String :=
  let unit := Nat.pow 10 places
  if places = 0 then decimal units
  else decimal (units / unit) ++ "." ++ decimalPadded places (units % unit)

/-- A number with the given count of decimals. -/
def fixed (places : Nat) (x : Float) : String :=
  let bits := x.toBits.toNat
  let sign := if bits >>> 63 = 1 then "-" else ""
  let exponent := bits >>> 52 &&& 0x7ff
  let fraction := bits &&& 0xfffffffffffff
  -- the largest exponent is that of the numbers that are not finite
  if exponent = 0x7ff then
    if fraction = 0 then sign ++ "inf" else "NaN"
  else
    -- a normal number has one more bit in front of its fraction
    let whole := if exponent = 0 then fraction else fraction + 0x10000000000000
    let power := max exponent 1
    let scaled := whole * Nat.pow 10 places
    let units :=
      if 1075 ≤ power then scaled <<< (power - 1075)
      else roundDiv scaled (1 <<< (1075 - power))
    sign ++ decimalPlaces places units

end ZioControl.Text
