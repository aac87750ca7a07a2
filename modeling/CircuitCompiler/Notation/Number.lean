import CircuitCompiler.Text.Bytes

/-!
# Numbers of the notation

Decimal numbers of any size, exact except for quotients. A number is of the kind of whole numbers or
of the kind of fractions; the kind comes from how it is written, so that `1` and `1.0` are of
different kinds and yet compare as equal.
-/

namespace CircuitCompiler.Notation

/-- The number `digits · 10^power`. -/
structure Number where
  digits : Int
  power : Int := 0
  /-- Whether the number is of the kind of whole numbers. -/
  whole : Bool := true
  deriving DecidableEq, Repr, Inhabited

namespace Number

/-- A power of ten. -/
def tenTo (n : Nat) : Int := Nat.pow 10 n

/-- The digits of a number at a power that is not above its own. -/
def digitsAt (a : Number) (power : Int) : Int := a.digits * tenTo (a.power - power).toNat

/-- The difference of two numbers at their common power, for comparison. -/
def gap (a b : Number) : Int :=
  let power := min a.power b.power
  a.digitsAt power - b.digitsAt power

/-- Whether two numbers have the same value. -/
def same (a b : Number) : Bool := a.gap b == 0

/-- Whether a number is below another. -/
def less (a b : Number) : Bool := a.gap b < 0

/-- The whole number of a value without fraction. -/
def integer? (a : Number) : Option Int :=
  if 0 ≤ a.power then some (a.digits * tenTo a.power.toNat)
  else
    let unit := tenTo a.power.natAbs
    if a.digits % unit == 0 then some (a.digits / unit) else none

/-- The sum, with a sign for the second number. -/
def combine (sign : Int) (a b : Number) : Number :=
  let power := min a.power b.power
  ⟨a.digitsAt power + sign * b.digitsAt power, power, a.whole && b.whole⟩

/-- The product. -/
def times (a b : Number) : Number := ⟨a.digits * b.digits, a.power + b.power, a.whole && b.whole⟩

/-- The number with the other sign. -/
def negated (a : Number) : Number := { a with digits := -a.digits }

/-- The number of digits of a quotient. -/
def quotientDigits : Nat := 34

/-- The quotient, to so many digits; its kind is that of fractions. -/
def quotient? (a b : Number) : Option Number :=
  if b.digits == 0 then none
  else
    let shift := quotientDigits + (Nat.toDigits 10 b.digits.natAbs).length
    some ⟨Int.tdiv (a.digits * tenTo shift) b.digits, a.power - b.power - shift, false⟩

/-- The written form. -/
def text (a : Number) : String :=
  match a.integer? with
  | some n => if a.whole then toString n else toString n ++ ".0"
  | none =>
    let places := a.power.natAbs
    let ds := Nat.toDigits 10 a.digits.natAbs
    let ds := List.replicate (places + 1 - ds.length) '0' ++ ds
    String.ofList ((if a.digits < 0 then ['-'] else []) ++ ds.take (ds.length - places) ++
      '.' :: ds.drop (ds.length - places))

/-! ## Literals -/

/-- The value of a digit; an underscore stands between digits. -/
def digit? (c : Char) : Option Nat :=
  if c.isDigit then some (c.toNat - 48)
  else if c == '_' then some 0
  else if 'a' ≤ c && c ≤ 'f' then some (c.toNat - 87)
  else if 'A' ≤ c && c ≤ 'F' then some (c.toNat - 55)
  else none

/-- Whether a character can stand in a run of digits of a base. -/
def isDigitOf (base : Nat) (c : Char) : Bool := (digit? c).any (· < base)

/-- Whether no underscore is doubled or last. -/
def spacedWell : List Char → Bool
  | [] => true
  | ['_'] => false
  | '_' :: '_' :: _ => false
  | _ :: rest => spacedWell rest

/-- The run of digits at the front, without the underscores in it. -/
def run? (base : Nat) (cs : List Char) : Option (List Char × List Char) :=
  let ds := cs.takeWhile (isDigitOf base)
  if spacedWell ds then some (ds.filter (· != '_'), cs.drop ds.length) else none

/-- The value of digits. -/
def valueOf (base : Nat) (ds : List Char) : Nat :=
  ds.foldl (fun n c => n * base + (digit? c).getD 0) 0

/-- A whole number in another base, behind its announcement. -/
def based? (base : Nat) (cs : List Char) : Option (Number × List Char) := do
  let (ds, rest) ← run? base cs
  if ds.isEmpty then none else some ({ digits := valueOf base ds }, rest)

/-- The order of magnitude that a letter stands for, counted in thousands. -/
def magnitude? (c : Char) : Option Nat := ['K', 'M', 'G', 'T', 'P'].findIdx? (· == c) |>.map (· + 1)

/-- The largest exponent. -/
def largestExponent : Nat := 100000

/-- What may follow the digits of a number: a letter for its magnitude, which makes it whole, or an
exponent, which makes it a fraction. -/
def scaled? (a : Number) (cs : List Char) : Option (Number × List Char) :=
  match cs with
  | [] => some (a, [])
  | c :: rest =>
    match magnitude? c with
    | some n => do
      let (factor, rest) : Int × List Char := match rest with
        | 'i' :: rest => (Nat.pow 1024 n, rest)
        | rest => (Nat.pow 1000 n, rest)
      some ({ digits := ← (a.times { digits := factor }).integer? }, rest)
    | none =>
      if c == 'e' || c == 'E' then do
        let (negative, rest) := match rest with
          | '-' :: rest => (true, rest)
          | '+' :: rest => (false, rest)
          | rest => (false, rest)
        let (ds, rest) ← run? 10 rest
        let n := valueOf 10 ds
        if ds.isEmpty || largestExponent < n then none
        else some (⟨a.digits, a.power + (if negative then -(n : Int) else n), false⟩, rest)
      else some (a, cs)

/-- The rest of a decimal number behind its whole part. -/
def fraction? (whole : List Char) (cs : List Char) : Option (Number × List Char) := do
  match cs with
  | '.' :: rest =>
    let (ds, rest) ← run? 10 rest
    scaled? ⟨valueOf 10 (whole ++ ds), -(ds.length : Int), false⟩ rest
  | _ => scaled? { digits := valueOf 10 whole } cs

/-- The number at the front of a text that begins with a digit, or with a point and a digit. A whole
number other than zero does not begin with zero. -/
def read? (cs : List Char) : Option (Number × List Char) :=
  match cs with
  | '0' :: 'x' :: rest | '0' :: 'X' :: rest => based? 16 rest
  | '0' :: 'b' :: rest => based? 2 rest
  | '0' :: 'o' :: rest => based? 8 rest
  | '0' :: rest => do
    let (ds, after) ← if rest.head?.any Char.isDigit then run? 10 rest else some ([], rest)
    if after.head?.any fun c => c == '.' || c == 'e' || c == 'E' then fraction? ds after
    else if ds.isEmpty then some ({ digits := 0 }, after)
    else none
  | '.' :: _ => fraction? [] cs
  | _ => do
    let (ds, rest) ← run? 10 cs
    fraction? ds rest

end Number
end CircuitCompiler.Notation
