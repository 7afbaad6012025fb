import TaskTags.Template.Value

/-!
Operators on the values of templates. Integers calculate exactly, within 128 bits; with a floating
point number on one side both are floating point numbers.
-/

namespace TaskTags.Template.Value

/-- An integer as result, unless it leaves the range. -/
def wide (n : Int) : Except Fault Value :=
  if isWide n then .ok (int n) else .error .invalidOperation

def onFloats (f : Float → Float → Float) (x y : Binary64) : Value :=
  float (Binary64.ofFloat (f x.toFloat y.toFloat))

/-- Sum of numbers; texts and sequences are put together. -/
def add (v w : Value) : Except Fault Value :=
  match v, w with
  | list _ xs, list _ ys => .ok (list true (xs ++ ys))
  | v, w =>
    match pair? true v w with
    | some (.ints a b) => wide (a + b)
    | some (.floats x y) => .ok (onFloats (· + ·) x y)
    | some (.strs s t) => .ok (text (s ++ t))
    | Option.none => .error .invalidOperation

def sub (v w : Value) : Except Fault Value :=
  match pair? true v w with
  | some (.ints a b) => wide (a - b)
  | some (.floats x y) => .ok (onFloats (· - ·) x y)
  | _ => .error .invalidOperation

def times (count : Value) : Value → Except Fault Value
  | str s _ =>
    match count.asNat? with
    | some n => .ok (text (String.join (List.replicate n s)))
    | Option.none => .error .invalidOperation
  | list _ items =>
    match count.asNat? with
    | some n => .ok (list true (List.replicate n items).flatten)
    | Option.none => .error .invalidOperation
  | _ => .error .invalidOperation

def mul (v w : Value) : Except Fault Value :=
  match v, w with
  | str s b, w => times w (str s b)
  | v, str s b => times v (str s b)
  | list b xs, w => times w (list b xs)
  | v, list b xs => times v (list b xs)
  | v, w =>
    match pair? true v w with
    | some (.ints a b) => wide (a * b)
    | some (.floats x y) => .ok (onFloats (· * ·) x y)
    | _ => .error .invalidOperation

def div (v w : Value) : Except Fault Value :=
  match v.asFloat? true, w.asFloat? true with
  | some x, some y => .ok (onFloats (· / ·) x y)
  | _, _ => .error .invalidOperation

/-- The part of a number in front of its point. -/
def truncated (x : Float) : Float := if x < 0 then x.ceil else x.floor

/-- The remainder of a division whose quotient is cut toward zero. -/
def remainder (x y : Binary64) : Binary64 :=
  if x.isNaN || y.isNaN || x.isInfinite || y.magnitude == 0 then Binary64.nan
  else if y.isInfinite || x.magnitude == 0 then x
  else
    let (a, b) := Binary64.ratio x.magnitude
    let (c, d) := Binary64.ratio y.magnitude
    Binary64.ofMagnitude x.isNegative (Binary64.nearest ((a * d) % (c * b)) (b * d))

def floorDiv (v w : Value) : Except Fault Value :=
  match pair? true v w with
  | some (.ints a b) => if b = 0 then .error .invalidOperation else wide (a / b)
  | some (.floats x y) =>
    let q := truncated (x.toFloat / y.toFloat)
    let r := (remainder x y).toFloat
    let q := if r < 0 then (if 0 < y.toFloat then q - 1 else q + 1) else q
    .ok (float (Binary64.ofFloat q))
  | _ => .error .invalidOperation

def rem (v w : Value) : Except Fault Value :=
  match pair? true v w with
  | some (.ints a b) => if b = 0 then .error .invalidOperation else wide (a % b)
  | some (.floats x y) => .ok (float (remainder x y))
  | _ => .error .invalidOperation

def intPower (a : Int) : Nat → Except Fault Value
  | n =>
    if a.natAbs ≤ 1 then .ok (int (if n = 0 then 1 else if a = -1 ∧ n % 2 = 0 then 1 else a))
    else if 128 ≤ n then .error .invalidOperation
    else wide (a.pow n)

def pow (v w : Value) : Except Fault Value :=
  match pair? true v w with
  | some (.ints a b) =>
    if Decimal.fitsUnsigned 32 b then intPower a b.toNat else .error .invalidOperation
  | some (.floats x y) => .ok (onFloats Float.pow x y)
  | _ => .error .invalidOperation

def neg : Value → Except Fault Value
  | float x => .ok (float x.neg)
  | int n => if isWide n then wide (-n) else .error .invalidOperation
  | _ => .error .invalidOperation

/-- Whether a container has a value: a text a part, a list an item, a mapping a key. -/
def contains (container v : Value) : Except Fault Bool :=
  match container with
  | undefined _ => .ok false
  | str s _ =>
    let part := v.display
    .ok (part.isEmpty || 1 < (s.splitOn part).length)
  | list _ items => .ok (items.any (same · v))
  | map es | named es | nameSpace es => .ok (lookup? es v).isSome
  | loop .. | function _ | callable .. => .ok false
  | _ => .error .invalidOperation

/-- The bounds of a slice that goes forward: where it starts and how many items it covers. -/
def bounds (start : Int) (stop : Option Int) (length : Nat) : Nat × Nat :=
  let start : Int := if start < 0 then length + start else start
  let stop : Int :=
    match stop with
    | Option.none => length
    | some n => if n < 0 then length + n else n
  if start < 0 then (0, 0) else if stop < 0 then (start.toNat, length) else (start.toNat, (stop - start).toNat)

def everyNth {α : Type} (step : Nat) (items : List α) : List α :=
  (items.zipIdx.filter fun (_, i) => i % step == 0).map (·.1)

def backward (start stop : Option Int) (step length : Nat) : List Nat :=
  let first : Nat :=
    match start with
    | Option.none => length - 1
    | some n =>
      if (length : Int) ≤ n then length - 1
      else if 0 ≤ n then n.toNat
      else (length + n).toNat
  let last : Nat :=
    match stop with
    | Option.none => 0
    | some n => if n < 0 then (length + n).toNat else n.toNat
  let count := if last = 0 then (first + step) / step else (first + step - 1 - last) / step
  (List.range count).map fun i => first - i * step

def sliceItems {α : Type} (items : List α) (start stop : Option Int) (step : Int) : List α :=
  if 0 < step then
    let (first, count) := bounds (start.getD 0) stop items.length
    everyNth step.toNat ((items.drop first).take count)
  else
    (backward start stop step.natAbs items.length).filterMap fun i => items[i]?

/-- A bound of a slice; none is no bound. -/
def bound? : Value → Except Fault (Option Int)
  | none => .ok Option.none
  | v =>
    match v.asInt? with
    | some n => if Json.isInt64 n then .ok (some n) else .error .invalidOperation
    | Option.none => .error .invalidOperation

def slice (v start stop step : Value) : Except Fault Value := do
  if v.isMissing then throw .undefinedValue
  let start ← bound? start
  let stop ← bound? stop
  let step := (← bound? step).getD 1
  if step = 0 then throw .invalidOperation
  match v with
  | undefined _ | none => return list false []
  | str s _ => return text (String.ofList (sliceItems s.toList start stop step))
  | list _ items => return list true (sliceItems items start stop step)
  | _ => throw .invalidOperation

def itemsOf (v : Value) : Except Fault (List Value) :=
  if v.isMissing then .error .undefinedValue
  else
    match v.items? with
    | some items => .ok items
    | Option.none => .error .invalidOperation

/-- Whether a value counts as true; a missing one may not be asked. -/
def truth (v : Value) : Except Fault Bool :=
  if v.isMissing then .error .undefinedValue else .ok v.isTrue

/-- The part under a key. A value without such a part has an undefined one there; an undefined value
has no parts. -/
def part (v key : Value) : Except Fault Value :=
  match v.get? key with
  | some part => .ok part
  | Option.none => if v.isUndefined then .error .undefinedValue else .ok (undefined false)

/-- The part at the end of a path of names and positions with points between them. -/
def path (v : Value) (names : List String) : Except Fault Value :=
  names.foldlM (fun v name =>
    part v (match name.toNat? with
      | some n => int n
      | Option.none => text name)) v

end TaskTags.Template.Value
