/-!
Digits of numbers in a base, and the parts of a decimal with point and exponent.
-/

namespace BlockDoc.Text

/-- The value of a digit or a letter, letters counting from ten on in either case. -/
def digitValue? (c : Char) : Option Nat :=
  if '0' ≤ c ∧ c ≤ '9' then some (c.toNat - '0'.toNat)
  else if 'a' ≤ c ∧ c ≤ 'z' then some (c.toNat - 'a'.toNat + 10)
  else if 'A' ≤ c ∧ c ≤ 'Z' then some (c.toNat - 'A'.toNat + 10)
  else none

/-- The number that digits of a base write; no digits write none. -/
def natOfDigits? (base : Nat) (cs : List Char) : Option Nat :=
  if cs.isEmpty then none
  else cs.foldlM (fun acc c => do
    let d ← digitValue? c
    if d < base then some (base * acc + d) else none) 0

/-- A sign in front: whether it is a minus, and what follows. -/
def splitSign : List Char → Bool × List Char
  | '-' :: rest => (true, rest)
  | '+' :: rest => (false, rest)
  | cs => (false, cs)

/-- A decimal `digits * 10 ^ exponent` with a sign. -/
structure DecimalText where
  negative : Bool
  digits : Nat
  exponent : Int
  deriving DecidableEq, Repr

/-- The exponent behind the letter `e`, zero when there is none. -/
def exponent? : List Char → Option Int
  | [] => some 0
  | c :: rest =>
    if c == 'e' || c == 'E' then
      let (negative, digits) := splitSign rest
      (natOfDigits? 10 digits).map fun n => if negative then -(n : Int) else n
    else none

/-- Reads a decimal: a sign, digits with or without a point, and an exponent. There is a digit on
at least one side of the point. -/
def decimal? (cs : List Char) : Option DecimalText := do
  let (negative, body) := splitSign cs
  let whole := body.takeWhile Char.isDigit
  let rest := body.dropWhile Char.isDigit
  let (fraction, rest) := match rest with
    | '.' :: more => (more.takeWhile Char.isDigit, more.dropWhile Char.isDigit)
    | _ => ([], rest)
  let digits ← natOfDigits? 10 (whole ++ fraction)
  let e ← exponent? rest
  return ⟨negative, digits, e - fraction.length⟩

end BlockDoc.Text
