import TaskTags.Decimal.Shortest

/-!
Written forms of binary floating point numbers. A style says which numbers stand without an
exponent and how an exponent looks; the digits are the shortest ones that read back.
-/

namespace TaskTags.Decimal

structure Style where
  /-- Numbers whose first digit has an exponent between the bounds stand without exponent. -/
  positionalFrom : Int
  positionalTo : Int
  /-- Written between `e` and the digits of an exponent that is not negative. -/
  exponentSign : List Char
  infinity : String
  negInfinity : String
  nan : String

/-- Digits with a point, always with a digit on both sides of it. -/
def positional (d : Scientific) : List Char :=
  let ds := digits d.digits
  if 0 ≤ d.exponent then
    ds ++ List.replicate d.exponent.toNat '0' ++ ['.', '0']
  else
    let places := (-d.exponent).toNat
    if places < ds.length then
      ds.take (ds.length - places) ++ '.' :: ds.drop (ds.length - places)
    else
      '0' :: '.' :: (List.replicate (places - ds.length) '0' ++ ds)

def exponential (style : Style) (d : Scientific) : List Char :=
  let mantissa :=
    match digits d.digits with
    | [] => []
    | [c] => [c]
    | c :: rest => c :: '.' :: rest
  let e := d.leading
  let sign := if e < 0 then ['-'] else style.exponentSign
  mantissa ++ 'e' :: (sign ++ digits e.natAbs)

def stripZeros : Nat → Scientific → Scientific
  | 0, d => d
  | fuel + 1, d =>
    if d.digits ≠ 0 ∧ d.digits % 10 = 0 then
      stripZeros fuel ⟨d.digits / 10, d.exponent + 1⟩
    else
      d

def Style.write (style : Style) (x : Binary64) : String :=
  if x.isNaN then style.nan
  else if x.isInfinite then
    if x.isNegative then style.negInfinity else style.infinity
  else
    let d := shortest x.magnitude
    let d := stripZeros (width d.digits) d
    let sign := if x.isNegative then ['-'] else []
    let body :=
      if style.positionalFrom ≤ d.leading ∧ d.leading ≤ style.positionalTo then
        positional d
      else
        exponential style d
    String.ofList (sign ++ body)

end TaskTags.Decimal
