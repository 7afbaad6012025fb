import TaskTags.Decimal.Binary64
import TaskTags.Decimal.Digits

/-!
The fewest decimal digits that read back as a binary floating point number, and among those the
ones nearest to it.
-/

namespace TaskTags.Decimal

/-- A decimal number `digits * 10 ^ exponent`. -/
structure Scientific where
  digits : Nat
  exponent : Int
deriving DecidableEq, Inhabited

namespace Scientific

def ratio (d : Scientific) : Nat × Nat :=
  if 0 ≤ d.exponent then
    (d.digits * pow10 d.exponent.toNat, 1)
  else
    (d.digits, pow10 (-d.exponent).toNat)

def readsAs (d : Scientific) (magnitude : Nat) : Bool :=
  let (num, den) := d.ratio
  Binary64.nearest num den == magnitude

def leading (d : Scientific) : Int :=
  d.exponent + width d.digits - 1

end Scientific

def log10Ratio (num den : Nat) : Int :=
  if den ≤ num then
    width (num / den) - 1
  else
    -(width ((den + num - 1) / num - 1) : Nat)

/-- The two neighbours of a quotient on the grid of step `10 ^ e`, the nearer one first. -/
def neighbours (num den : Nat) (e : Int) : List Scientific :=
  let num' := if 0 ≤ e then num else num * pow10 (-e).toNat
  let den' := if 0 ≤ e then den * pow10 e.toNat else den
  let low := num' / den'
  let twice := 2 * (num' % den')
  if den' < twice || (twice == den' && low % 2 == 1) then
    [⟨low + 1, e⟩, ⟨low, e⟩]
  else
    [⟨low, e⟩, ⟨low + 1, e⟩]

def exact (magnitude : Nat) : Scientific :=
  let m := Binary64.significand magnitude
  let e := Binary64.exponent magnitude
  if 0 ≤ e then ⟨m * pow2 e.toNat, 0⟩ else ⟨m * Nat.pow 5 (-e).toNat, e⟩

/-- Of the grids of one, two, up to seventeen digits the first with a number that reads back; of
two such numbers the nearer. -/
def shortest (magnitude : Nat) : Scientific :=
  if magnitude == 0 then
    ⟨0, 0⟩
  else
    let (num, den) := Binary64.ratio magnitude
    let top := log10Ratio num den
    let candidates := (List.range 17).flatMap fun (n : Nat) => neighbours num den (top - n)
    (candidates.find? (·.readsAs magnitude)).getD (exact magnitude)

end TaskTags.Decimal
