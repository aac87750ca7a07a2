/-!
# Decimal text of binary numbers

A finite floating-point number is `mantissa · 2 ^ exponent`. Two written forms are computed exactly:
with a fixed number of places (`Dyadic.fixed`), and with the fewest digits that read back as the
same number (`Dyadic.shortest`).
-/

namespace CircuitCompiler.Text

/-- The number `mantissa · 2 ^ exponent`, with a sign. -/
structure Dyadic where
  negative : Bool
  mantissa : Nat
  exponent : Int
  deriving DecidableEq, Repr, Inhabited

namespace Dyadic

/-- The number a finite floating-point value stands for. -/
def ofFloat (x : Float) : Dyadic :=
  let bits := x.toBits.toNat
  let fraction : Nat := bits % Nat.pow 2 52
  let biased : Nat := bits / Nat.pow 2 52 % 2048
  ⟨decide (Nat.pow 2 63 ≤ bits), if biased = 0 then fraction else fraction + Nat.pow 2 52,
    if biased = 0 then -1074 else (biased : Int) - 1075⟩

/-- A fraction `num / den` of the size of a number times a power of ten. -/
def scaled (d : Dyadic) (power : Int) : Nat × Nat :=
  (d.mantissa * Nat.pow 2 d.exponent.toNat * Nat.pow 10 power.toNat,
    Nat.pow 2 (-d.exponent).toNat * Nat.pow 10 (-power).toNat)

/-- A quotient rounded to the nearest whole number; a half goes to the even one. -/
def roundHalfEven (num den : Nat) : Nat :=
  let whole := num / den
  let rest := 2 * (num % den)
  if rest < den then whole
  else if den < rest then whole + 1
  else if whole % 2 = 0 then whole else whole + 1

/-- The digits of `n`, with zeros before them up to a number of digits. -/
def digitsAtLeast (count n : Nat) : List Char :=
  let digits := (toString n).toList
  List.replicate (count - digits.length) '0' ++ digits

/-- The digits with a point before the last `places` of them. -/
def withPoint (places : Nat) (digits : List Char) : String :=
  let whole := digits.length - places
  if places = 0 then String.ofList digits
  else String.ofList (digits.take whole ++ '.' :: digits.drop whole)

/-- A number with a fixed number of places; a half goes to the even neighbour. -/
def fixed (places : Nat) (d : Dyadic) : String :=
  let (num, den) := d.scaled places
  let digits := digitsAtLeast (places + 1) (roundHalfEven num den)
  (if d.negative then "-" else "") ++ withPoint places digits

/-! ## Fewest digits -/

/-- Twice the mantissa less and more a half unit, at half the unit: the bounds between which every
number rounds to this one. Just above a power of two the lower unit is half as large. -/
def bounds (d : Dyadic) : Dyadic × Dyadic :=
  let low := if d.mantissa = Nat.pow 2 52 && -1074 < d.exponent then
      ⟨false, 4 * d.mantissa - 1, d.exponent - 2⟩
    else ⟨false, 2 * d.mantissa - 1, d.exponent - 1⟩
  (low, ⟨false, 2 * d.mantissa + 1, d.exponent - 1⟩)

/-- The number of digits before the point of a positive number, or below one tenth the number of
zeros behind it, as a negative number. -/
def magnitude (d : Dyadic) : Int :=
  let (num, den) := d.scaled 0
  if den ≤ num then ((toString (num / den)).length : Nat)
  else -((((List.range 400).find? fun j => den ≤ num * Nat.pow 10 (j + 1)).getD 0 : Nat) : Int)

/-- Whether `n · 10 ^ power` reads back as the number. -/
def reads (d : Dyadic) (power : Int) (n : Nat) : Bool :=
  let (low, high) := d.bounds
  let (lowNum, lowDen) := low.scaled (-power)
  let (highNum, highDen) := high.scaled (-power)
  if d.mantissa % 2 = 0 then lowNum ≤ n * lowDen && n * highDen ≤ highNum
  else lowNum < n * lowDen && n * highDen < highNum

/-- The decimal with a number of digits that is nearest to the number among the two next to it and
reads back, if one does. -/
def withDigits? (d : Dyadic) (count : Nat) : Option (Nat × Int) :=
  let power := d.magnitude - count
  let (num, den) := d.scaled (-power)
  let below := num / den
  match d.reads power below, d.reads power (below + 1) with
  | true, true => some (roundHalfEven num den, power)
  | true, false => some (below, power)
  | false, true => some (below + 1, power)
  | false, false => none

/-- The fewest digits that read back as a positive number, and the power of ten of the last. -/
def shortest (d : Dyadic) : Nat × Int :=
  ((List.range 17).findSome? fun i => d.withDigits? (i + 1)).getD (0, 0)

/-- Digits times a power of ten, written with a point. -/
def positional (n : Nat) (power : Int) : String :=
  if 0 ≤ power then toString (n * Nat.pow 10 power.toNat)
  else withPoint (-power).toNat (digitsAtLeast ((-power).toNat + 1) n)

/-- Digits times a power of ten, written with one digit before the point and an exponent. -/
def scientific (n : Nat) (power : Int) : String :=
  let digits := (toString n).toList
  let exponent := power + (digits.length - 1 : Nat)
  String.ofList (digits.take 1) ++
    (if digits.length = 1 then "" else "." ++ String.ofList (digits.drop 1)) ++
    "e" ++ (if exponent < 0 then "-" else "+") ++ toString exponent.natAbs

/-- Whole powers of ten at the end of the digits go into the exponent. -/
def trimmed : Nat → Nat → Int → Nat × Int
  | 0, n, power => (n, power)
  | fuel + 1, n, power => if n % 10 = 0 then trimmed fuel (n / 10) (power + 1) else (n, power)

/-- A number with the fewest digits that read back: positional from `10⁻⁶` on and below `10²¹`. -/
def shortestText (d : Dyadic) : String :=
  let sign := if d.negative then "-" else ""
  if d.mantissa = 0 then sign ++ "0"
  else
    let (n, power) := d.shortest
    let (n, power) := trimmed 17 n power
    let magnitude := power + ((toString n).length : Nat)
    sign ++ (if -6 < magnitude && magnitude ≤ 21 then positional n power else scientific n power)

end Dyadic
end CircuitCompiler.Text
