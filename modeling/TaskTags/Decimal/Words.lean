/-!
Powers, and the integers that fit words of a number of bits.
-/

namespace TaskTags.Decimal

def pow2 (n : Nat) : Nat := Nat.pow 2 n

def pow10 (n : Nat) : Nat := Nat.pow 10 n

def fitsUnsigned (bits : Nat) (n : Int) : Bool :=
  0 ≤ n && n.toNat < pow2 bits

def fitsSigned (bits : Nat) (n : Int) : Bool :=
  if 0 ≤ n then n.toNat < pow2 (bits - 1) else n.natAbs ≤ pow2 (bits - 1)

end TaskTags.Decimal
