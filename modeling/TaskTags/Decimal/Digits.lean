/-!
Natural numbers as decimal digits.
-/

namespace TaskTags.Decimal

def isDigit (c : Char) : Bool :=
  '0' ≤ c && c ≤ '9'

def digitValue (c : Char) : Nat :=
  c.toNat - '0'.toNat

/-- The shortest digits of a number; zero has one. -/
def digits (n : Nat) : List Char :=
  Nat.toDigits 10 n

def ofDigits (base : Nat) (value : Char → Nat) (cs : List Char) : Nat :=
  cs.foldl (fun n c => n * base + value c) 0

def natOf (cs : List Char) : Nat :=
  ofDigits 10 digitValue cs

def intText (n : Int) : String :=
  if n < 0 then
    String.ofList ('-' :: digits n.natAbs)
  else
    String.ofList (digits n.natAbs)

def hexValue? (c : Char) : Option Nat :=
  if isDigit c then
    some (digitValue c)
  else if 'a' ≤ c && c ≤ 'f' then
    some (c.toNat - 'a'.toNat + 10)
  else if 'A' ≤ c && c ≤ 'F' then
    some (c.toNat - 'A'.toNat + 10)
  else
    none

def width (n : Nat) : Nat :=
  (digits n).length

end TaskTags.Decimal
