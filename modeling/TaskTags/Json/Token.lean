import TaskTags.Decimal.Reading
import TaskTags.Json.Basic

/-!
The tokens of a JSON text.
-/

namespace TaskTags.Json

inductive Token where
  | beginArray
  | endArray
  | beginObject
  | endObject
  | colon
  | comma
  /-- A string, a number or a word. -/
  | scalar (value : Json)
deriving Inhabited

def isSpace (c : Char) : Bool :=
  c == ' ' || c == '\n' || c == '\t' || c == '\r'

/-- Four hexadecimal digits. -/
def codeUnit? (a b c d : Char) : Option Nat := do
  let a ← Decimal.hexValue? a
  let b ← Decimal.hexValue? b
  let c ← Decimal.hexValue? c
  let d ← Decimal.hexValue? d
  return ((a * 16 + b) * 16 + c) * 16 + d

def isLeading (unit : Nat) : Bool := 0xD800 ≤ unit && unit < 0xDC00
def isTrailing (unit : Nat) : Bool := 0xDC00 ≤ unit && unit < 0xE000

def pairChar (leading trailing : Nat) : Char :=
  Char.ofNat (0x10000 + (leading - 0xD800) * 0x400 + (trailing - 0xDC00))

def shortEscape? : Char → Option Char
  | '"' => some '"'
  | '\\' => some '\\'
  | '/' => some '/'
  | 'b' => some (Char.ofNat 8)
  | 'f' => some (Char.ofNat 12)
  | 'n' => some '\n'
  | 'r' => some '\r'
  | 't' => some '\t'
  | _ => none

/-- The characters of a string up to its closing quote, and what follows it. -/
def stringBody? : List Char → Option (List Char × List Char)
  | [] => none
  | '"' :: rest => some ([], rest)
  | '\\' :: 'u' :: a :: b :: c :: d :: rest =>
    match codeUnit? a b c d with
    | none => none
    | some unit =>
      if isTrailing unit then none
      else if isLeading unit then
        match rest with
        | '\\' :: 'u' :: e :: f :: g :: h :: rest' =>
          match codeUnit? e f g h with
          | none => none
          | some low =>
            if isTrailing low then
              (stringBody? rest').map fun (cs, r) => (pairChar unit low :: cs, r)
            else none
        | _ => none
      else
        (stringBody? rest).map fun (cs, r) => (Char.ofNat unit :: cs, r)
  | '\\' :: e :: rest =>
    match shortEscape? e with
    | none => none
    | some c => (stringBody? rest).map fun (cs, r) => (c :: cs, r)
  | c :: rest =>
    if c.toNat < 32 || c == '\\' then none
    else (stringBody? rest).map fun (cs, r) => (c :: cs, r)

def powerOfTen (k : Nat) : Nat × Nat :=
  Binary64.ratio (Binary64.nearest (Decimal.pow10 k) 1)

/-- Multiplies by a power of ten in steps the range of the numbers allows, rounding each step;
nothing if a step overflows. -/
def scale? : Nat → Nat → Int → Option Nat
  | 0, _, _ => none
  | fuel + 1, magnitude, e =>
    let (m, d) := Binary64.ratio magnitude
    if e.natAbs ≤ 308 then
      let (pm, pd) := powerOfTen e.natAbs
      if 0 ≤ e then
        let product := Binary64.nearest (m * pm) (d * pd)
        if product < Binary64.infinityMagnitude then some product else none
      else
        some (Binary64.nearest (m * pd) (d * pm))
    else if magnitude = 0 then some 0
    else if 0 ≤ e then none
    else
      let (pm, pd) := powerOfTen 308
      scale? fuel (Binary64.nearest (m * pd) (d * pm)) (e + 308)

/-- Takes digits while the number they make fits 64 bits. -/
def takeSignificand : Nat → List Char → Nat × List Char
  | n, [] => (n, [])
  | n, c :: rest =>
    let n' := n * 10 + Decimal.digitValue c
    if n' < Decimal.pow2 64 then takeSignificand n' rest else (n, c :: rest)

/-- The number of an integer part, a fraction and an exponent. The first digits that fit 64 bits
make a significand, and so may digits of the fraction; a digit left out only counts for the power of
ten. -/
def number? (negative : Bool) (whole fraction : List Char) (e : Option Int) : Option Number :=
  let (n, dropped) := takeSignificand 0 whole
  if fraction.isEmpty && e.isNone && dropped.isEmpty then
    if negative then
      if n = 0 || Decimal.pow2 63 < n then
        some (.float (Binary64.ofMagnitude true (Binary64.nearest n 1)))
      else
        some (.int (-(n : Int)))
    else
      some (.int n)
  else
    let (n, lost) := takeSignificand n fraction
    let power : Int := dropped.length - (fraction.length - lost.length : Nat) + e.getD 0
    let magnitude :=
      if n = 0 then some 0 else scale? (power.natAbs / 308 + 2) (Binary64.nearest n 1) power
    magnitude.map fun m => .float (Binary64.ofMagnitude negative m)

/-- A fraction, if one follows; nothing if it has no digits. -/
def fraction? : List Char → Option (List Char × List Char)
  | '.' :: rest =>
    let ds := rest.takeWhile Decimal.isDigit
    if ds.isEmpty then none else some (ds, rest.dropWhile Decimal.isDigit)
  | rest => some ([], rest)

/-- A number without its sign, and what follows it. A zero takes no more digits. -/
def unsigned? (negative : Bool) (cs : List Char) : Option (Number × List Char) := do
  let whole := cs.takeWhile Decimal.isDigit
  let rest := cs.dropWhile Decimal.isDigit
  if whole.isEmpty || (whole.head? == some '0' && whole.length ≠ 1) then none
  let (fraction, rest) ← fraction? rest
  let (e, rest) ← Decimal.exponent? rest
  return (← number? negative whole fraction e, rest)

def afterWord? (word : List Char) (cs : List Char) : Option (List Char) :=
  if word.isPrefixOf cs then some (cs.drop word.length) else none

/-- The first token of a text that does not start with a space, and what follows it. -/
def Token.first? : List Char → Option (Token × List Char)
  | '[' :: rest => some (.beginArray, rest)
  | ']' :: rest => some (.endArray, rest)
  | '{' :: rest => some (.beginObject, rest)
  | '}' :: rest => some (.endObject, rest)
  | ':' :: rest => some (.colon, rest)
  | ',' :: rest => some (.comma, rest)
  | '"' :: rest => (stringBody? rest).map fun (cs, r) => (.scalar (.str (String.ofList cs)), r)
  | '-' :: rest => (unsigned? true rest).map fun (n, r) => (.scalar (.num n), r)
  | 'n' :: rest => (afterWord? "ull".toList rest).map (.scalar .null, ·)
  | 't' :: rest => (afterWord? "rue".toList rest).map (.scalar (.bool true), ·)
  | 'f' :: rest => (afterWord? "alse".toList rest).map (.scalar (.bool false), ·)
  | cs => (unsigned? false cs).map fun (n, r) => (.scalar (.num n), r)

def Token.all? (cs : List Char) : Option (List Token) :=
  match cs.dropWhile isSpace with
  | [] => some []
  | c :: rest =>
    match Token.first? (c :: rest) with
    | none => none
    | some (token, rest') =>
      if rest'.length < cs.length then
        (Token.all? rest').map (token :: ·)
      else
        none
termination_by cs.length

end TaskTags.Json
