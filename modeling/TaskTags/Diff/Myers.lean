import TaskTags.Diff.Edit

/-!
A shortest edit script by divide and conquer: the two texts are cut at a point on a shortest path,
which a search from both ends finds, and the halves are compared on their own.
-/

namespace TaskTags.Diff

/-- The farthest reach on each diagonal, unset diagonals at zero. -/
structure Frontier where
  reach : Array Nat
  offset : Nat

namespace Frontier

def start (bound : Nat) : Frontier :=
  ⟨Array.replicate (2 * bound + 3) 0, bound + 1⟩

def get (f : Frontier) (diagonal : Int) : Nat :=
  f.reach.getD (diagonal + f.offset).toNat 0

def set (f : Frontier) (diagonal : Int) (x : Nat) : Frontier :=
  { f with reach := f.reach.setIfInBounds (diagonal + f.offset).toNat x }

/-- The point from which a search with `d` differences goes on along a diagonal. -/
def entry (f : Frontier) (d diagonal : Int) : Nat :=
  let below := f.get (diagonal - 1)
  let above := f.get (diagonal + 1)
  if diagonal == -d || (diagonal != d && below < above) then above else below + 1

end Frontier

/-- One direction of the search. `meets d diagonal` is the diagonal of the opposite search that meets
this one, if the two can meet here. -/
structure Direction where
  xs : List String
  ys : List String
  meets : Int → Int → Option Int

/-- Follows one diagonal: the point where it is entered and the farthest point of equal lines. -/
def Direction.advance (dir : Direction) (f : Frontier) (d diagonal : Int) : Nat × Nat :=
  let x := f.entry d diagonal
  let y := (x - diagonal : Int).toNat
  (x, x + commonPrefix (dir.xs.drop x) (dir.ys.drop y))

/-- The diagonals of a search with `d` differences, the greatest first. -/
def diagonals (d : Nat) : List Int :=
  (List.range (d + 1)).map fun (i : Nat) => (d : Int) - 2 * i

/-- Advances on all diagonals; stops on the first where the opposite search is met, with the
diagonal, the entry and the farthest point. -/
def Direction.sweep (dir : Direction) (opposite : Frontier) (d : Nat) :
    List Int → Frontier → Frontier × Option (Int × Nat × Nat)
  | [], f => (f, none)
  | k :: rest, f =>
    let (x₀, x) := dir.advance f d k
    let f := f.set k x
    match dir.meets d k with
    | some far =>
      if dir.xs.length ≤ x + opposite.get far then (f, some (k, x₀, x))
      else dir.sweep opposite d rest f
    | none => dir.sweep opposite d rest f

/-- A point on a shortest path, as line numbers in both texts, found within a number of rounds. -/
def midpoint? (xs ys : List String) : Option (Nat × Nat) :=
  let n := xs.length
  let m := ys.length
  let delta : Int := n - m
  let odd := delta % 2 != 0
  let bound := (n + m + 1) / 2 + 1
  let forward : Direction :=
    ⟨xs, ys, fun d k => if odd && decide ((k - delta).natAbs ≤ d - 1) then some (delta - k) else none⟩
  let backward : Direction :=
    ⟨xs.reverse, ys.reverse,
      fun d k => if !odd && decide ((k - delta).natAbs ≤ d) then some (delta - k) else none⟩
  let rec search (rounds d : Nat) (ahead back : Frontier) : Option (Nat × Nat) :=
    match rounds with
    | 0 => none
    | rounds + 1 =>
      let (ahead, met) := forward.sweep back d (diagonals d) ahead
      match met with
      | some (k, x₀, _) => some (x₀, (x₀ - k : Int).toNat)
      | none =>
        let (back, met) := backward.sweep ahead d (diagonals d) back
        match met with
        | some (k, _, x) => some (n - x, m - (x - k : Int).toNat)
        | none => search rounds (d + 1) ahead back
  search bound 0 (Frontier.start bound) (Frontier.start bound)

def keepIfAny (ls : List String) : Script :=
  if ls.isEmpty then [] else [.keep ls]

/-- The script without lines in common at its ends; one that is cut short replaces all lines. -/
def conquer : Nat → List String → List String → Script
  | 0, xs, ys => [.delete xs, .insert ys]
  | fuel + 1, xs, ys =>
    let p := commonPrefix xs ys
    let xs' := xs.drop p
    let ys' := ys.drop p
    let s := commonSuffix xs' ys'
    let xs'' := xs'.take (xs'.length - s)
    let ys'' := ys'.take (ys'.length - s)
    let middle :=
      if xs''.isEmpty && ys''.isEmpty then []
      else if ys''.isEmpty then [.delete xs'']
      else if xs''.isEmpty then [.insert ys'']
      else
        match midpoint? xs'' ys'' with
        | some (x, y) =>
          conquer fuel (xs''.take x) (ys''.take y) ++ conquer fuel (xs''.drop x) (ys''.drop y)
        | none => [.delete xs'', .insert ys'']
    keepIfAny (xs.take p) ++ middle ++ keepIfAny (xs'.drop (xs'.length - s))

def shortestScript (xs ys : List String) : Script :=
  conquer (xs.length + ys.length + 1) xs ys

end TaskTags.Diff
