/-!
Finite numbers of the IEEE 754 format binary64, kept as a sign, an integer significand and a power
of two. Reading rounds a decimal to the nearest such number, a tie to the even significand; writing
chooses the fewest digits that read back, and of those the nearest.
-/

namespace BlockDoc

/-- The finite number `± significand * 2 ^ exponent`. The significand is below `2 ^ 53`, the
exponent at least `-1074`, and a significand below `2 ^ 52` comes with the exponent `-1074` only.
-/
structure Binary64 where
  negative : Bool
  significand : Nat
  exponent : Int
  deriving DecidableEq, Repr

namespace Binary64

/-- The least exponent, that of the numbers next to zero. -/
def minExponent : Int := -1074

/-- The exponent of the greatest finite numbers. -/
def maxExponent : Int := 971

/-- Zero with a sign. -/
def zero (negative : Bool) : Binary64 := ⟨negative, 0, minExponent⟩

instance : Inhabited Binary64 := ⟨zero false⟩

/-- Whether the number is greater than zero. -/
def isPositive (x : Binary64) : Bool := !x.negative && x.significand != 0

/-- `n / d` rounded to an integer, a tie to the even neighbour. -/
def roundDiv (n d : Nat) : Nat :=
  let q := n / d
  let r := n % d
  if 2 * r < d then q
  else if d < 2 * r then q + 1
  else if q % 2 == 0 then q else q + 1

/-- The fraction `n / d` divided by `2 ^ e`. -/
def scale (n d : Nat) (e : Int) : Nat × Nat :=
  if 0 ≤ e then (n, d * Nat.pow 2 e.toNat) else (n * Nat.pow 2 (-e).toNat, d)

/-- The nearest number to `n / d`; nothing when that is beyond the finite ones. -/
def ofRatio? (negative : Bool) (n d : Nat) : Option Binary64 :=
  if n == 0 then some (zero negative)
  else
    -- the quotient over `2 ^ guess` lies between `2 ^ 51` and `2 ^ 53`
    let guess : Int := (n.log2 : Int) - (d.log2 : Int) - 52
    let (n₁, d₁) := scale n d guess
    let fit := if n₁ < Nat.pow 2 52 * d₁ then guess - 1 else guess
    let e := max fit minExponent
    let (n₂, d₂) := scale n d e
    let m := roundDiv n₂ d₂
    let (m, e) := if m == Nat.pow 2 53 then (Nat.pow 2 52, e + 1) else (m, e)
    if maxExponent < e then none else some ⟨negative, m, e⟩

/-- The number of decimal digits of `n`; zero has one. -/
def digitCount (n : Nat) : Nat := (Nat.toDigits 10 n).length

/-- The nearest number to `m * 10 ^ e`; nothing when that is beyond the finite ones. A decimal above
`10 ^ 310` is so, and one below `10 ^ -330` is nearest to zero. -/
def ofDecimal? (negative : Bool) (m : Nat) (e : Int) : Option Binary64 :=
  let magnitude := e + digitCount m
  if m == 0 then some (zero negative)
  else if 311 < magnitude then none
  else if magnitude < -330 then some (zero negative)
  else if 0 ≤ e then ofRatio? negative (m * Nat.pow 10 e.toNat) 1
  else ofRatio? negative m (Nat.pow 10 (-e).toNat)

/-! ## The fewest digits that read back -/

/-- A decimal `digits * 10 ^ exponent`. -/
structure Decimal where
  digits : Nat
  exponent : Int
  deriving DecidableEq, Repr

/-- The neighbours of `n / d` among the multiples of `10 ^ k` that lie in the interval from
`lo / d` to `hi / d`, its ends included when `closed`; the nearer one comes out, of two equally
near the even one. -/
def onGrid? (n d lo hi : Nat) (closed : Bool) (k : Int) : Option Decimal :=
  -- everything over the common denominator `d * unit`
  let (up, unit) : Nat × Nat :=
    if 0 ≤ k then (1, Nat.pow 10 k.toNat) else (Nat.pow 10 (-k).toNat, 1)
  let step := d * unit
  let value := n * up
  let below := value / step
  let inside (m : Nat) : Bool :=
    let x := m * step
    if closed then lo * up ≤ x && x ≤ hi * up else lo * up < x && x < hi * up
  let r := value % step
  let preferUpper : Bool :=
    step < 2 * r || (2 * r == step && below % 2 == 1)
  match inside below && below != 0, inside (below + 1) with
  | true, true => some ⟨if preferUpper then below + 1 else below, k⟩
  | true, false => some ⟨below, k⟩
  | false, true => some ⟨below + 1, k⟩
  | false, false => none

/-- The first grid with a hit, going from coarse to fine. -/
def firstGrid? (n d lo hi : Nat) (closed : Bool) : Nat → Int → Option Decimal
  | 0, _ => none
  | tries + 1, k => (onGrid? n d lo hi closed k).or (firstGrid? n d lo hi closed tries (k - 1))

/-- The least power of ten above `n / d`, as an exponent. -/
def decimalPoint (n d : Nat) : Int :=
  if d ≤ n then digitCount (n / d) else 1 - (digitCount (d / n) : Int)

/-- Drops zeros at the end of the digits. -/
def Decimal.strip : Nat → Decimal → Decimal
  | 0, x => x
  | fuel + 1, x =>
    if x.digits != 0 && x.digits % 10 == 0 then strip fuel ⟨x.digits / 10, x.exponent + 1⟩ else x

/-- The decimal with the fewest digits that is nearer to this number than to any other, and of
those the nearest. The sign is left out. -/
def shortest (x : Binary64) : Decimal :=
  if x.significand == 0 then ⟨0, 0⟩
  else
    -- four units per step leave room for the half step above and the quarter step below
    let lower := if x.significand == Nat.pow 2 52 && minExponent < x.exponent then 1 else 2
    let m := 4 * x.significand
    let (up, d) : Nat × Nat :=
      if 0 ≤ x.exponent then (Nat.pow 2 x.exponent.toNat, 4)
      else (1, 4 * Nat.pow 2 (-x.exponent).toNat)
    let n := m * up
    let lo := (m - lower) * up
    let hi := (m + 2) * up
    let top := decimalPoint n d
    let found := firstGrid? n d lo hi (x.significand % 2 == 0) 20 top
    Decimal.strip 20 (found.getD ⟨0, 0⟩)

/-! ## Text -/

/-- A number is written positionally, always with a point, when its leading digit stands for
`10 ^ -5` up to `10 ^ 15`; otherwise with an exponent whose sign is written. -/
def toText (x : Binary64) : String :=
  let s := x.shortest
  let digits := (Nat.toDigits 10 s.digits)
  let lead : Int := s.exponent + digits.length - 1
  let zeros (n : Nat) : List Char := List.replicate n '0'
  let body : List Char :=
    if x.significand == 0 then ['0', '.', '0']
    else if -5 ≤ lead && lead < 16 then
      if 0 ≤ s.exponent then digits ++ zeros s.exponent.toNat ++ ['.', '0']
      else if 0 ≤ lead then
        digits.take (lead.toNat + 1) ++ '.' :: digits.drop (lead.toNat + 1)
      else '0' :: '.' :: (zeros (-lead - 1).toNat ++ digits)
    else
      let fraction := digits.drop 1
      let power : List Char :=
        (if 0 ≤ lead then '+' else '-') :: Nat.toDigits 10 lead.natAbs
      digits.take 1 ++ (if fraction.isEmpty then [] else '.' :: fraction) ++ 'e' :: power
  String.ofList (if x.negative then '-' :: body else body)

end Binary64

end BlockDoc
