import TaskTags.Decimal.Reading
import TaskTags.Json.Basic

/-!
What a plain scalar stands for: null, a truth value, a number or its text.
-/

namespace TaskTags.Yaml

inductive Scalar where
  | null
  | bool (value : Bool)
  | num (value : Json.Number)
  | str (value : String)
deriving DecidableEq, Inhabited

namespace Scalar

def isNull (s : String) : Bool :=
  s == "null" || s == "Null" || s == "NULL" || s == "~"

def bool? (s : String) : Option Bool :=
  if s == "true" || s == "True" || s == "TRUE" then some true
  else if s == "false" || s == "False" || s == "FALSE" then some false
  else none

/-- Zeros in front of more digits make a text of a number. -/
def isPadded (cs : List Char) : Bool :=
  let cs := match cs with
    | '-' :: rest | '+' :: rest => rest
    | rest => rest
  2 ≤ cs.length && cs.head? == some '0' && cs.all Decimal.isDigit

/-- The natural number that all the characters stand for in a base, if there are any. -/
def natIn? (base : Nat) (cs : List Char) : Option Nat := do
  if cs.isEmpty then none
  let values ← cs.mapM fun c => (Decimal.hexValue? c).filter (· < base)
  return values.foldl (fun n d => n * base + d) 0

/-- A natural number in a base that its first characters name. -/
def unsigned? : List Char → Option Nat
  | '0' :: 'x' :: rest => natIn? 16 rest
  | '0' :: 'o' :: rest => natIn? 8 rest
  | '0' :: 'b' :: rest => natIn? 2 rest
  | cs => natIn? 10 cs

def integer? (s : String) : Option Int :=
  let cs := s.toList
  if isPadded cs then none
  else
    match cs with
    | '-' :: rest => (unsigned? rest).map fun n => -(n : Int)
    | '+' :: rest => (unsigned? rest).map fun n => (n : Int)
    | rest => (unsigned? rest).map fun n => (n : Int)

/-- The integers for which there is no place, though they are too near to be taken for floating
point numbers. -/
def isRefused (n : Int) : Bool :=
  !Json.inIntRange n && (Decimal.fitsSigned 128 n || Decimal.fitsUnsigned 128 n)

def infinities : List String := [".inf", ".Inf", ".INF"]
def nans : List String := [".nan", ".NaN", ".NAN"]

def float? (s : String) : Option Binary64 :=
  if infinities.any fun i => s == i || s == "+" ++ i then some Binary64.infinity
  else if infinities.any fun i => s == "-" ++ i then some Binary64.infinity.neg
  else if nans.contains s then some Binary64.nan
  else (Decimal.float? s.toList).filter Binary64.isFinite

/-- Nothing for an integer for which there is no place. -/
def ofPlain? (s : String) : Option Scalar :=
  if s.isEmpty || isNull s then some .null
  else
    match bool? s, integer? s with
    | some b, _ => some (.bool b)
    | none, some n =>
      if Json.inIntRange n then some (.num (.int n))
      else if isRefused n then none
      else some (ofLarge s)
    | none, none => some (ofLarge s)
where
  ofLarge (s : String) : Scalar :=
    if isPadded s.toList then .str s
    else
      match float? s with
      | some x => .num (.float x)
      | none => .str s

/-- What a scalar stands for under a tag of its own. -/
def ofTagged? (tag : String) (isPlain : Bool) (s : String) : Option Scalar :=
  let standard := "tag:yaml.org,2002:"
  if tag == standard ++ "bool" then (bool? s).map .bool
  else if tag == standard ++ "int" then
    (integer? s).bind fun n => if Json.inIntRange n then some (.num (.int n)) else none
  else if tag == standard ++ "float" then (float? s).map fun x => .num (.float x)
  else if tag == standard ++ "null" then if isNull s then some .null else none
  else if tag.startsWith "!" && isPlain then ofPlain? s
  else some (.str s)

end Scalar
end TaskTags.Yaml
