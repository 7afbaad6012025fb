import TaskTags.Decimal.Reading
import TaskTags.Template.Escape
import TaskTags.Template.Test

/-!
Filters on values.
-/

namespace TaskTags.Template.Filter

/-- A failure to go through a value is one to make a list of it. -/
def listOf (v : Value) : Except Fault (List Value) :=
  v.itemsOf.mapError fun _ => .invalidOperation

/-- The order of values; texts without regard to case unless it counts. -/
def compareBy (isCaseSensitive : Bool) (v w : Value) : Ordering :=
  match isCaseSensitive, v.asStr?, w.asStr? with
  | false, some s, some t => Text.order (Text.lowerAscii s) (Text.lowerAscii t)
  | _, _, _ => v.order w

def sortBy {α : Type} (key : α → Value) (isCaseSensitive : Bool) (items : List α) : List α :=
  items.mergeSort fun a b => compareBy isCaseSensitive (key a) (key b) != .gt

def pairValue (v w : Value) : Value := .list false [v, w]

/-- The text around each part that is equal to a separator. An empty separator stands between all
characters and at both ends. -/
def splitText (separator s : String) : List String :=
  if separator.isEmpty then "" :: s.toList.map (fun c => String.ofList [c]) ++ [""]
  else s.splitOn separator

/-- At most `n` parts, the last one with the separators that remain. -/
def splitAtMost (n : Nat) (separator s : String) : List String :=
  let parts := splitText separator s
  if parts.length ≤ n then parts
  else
    match n with
    | 0 => []
    | n + 1 => parts.take n ++ [String.intercalate separator (parts.drop n)]

def words (s : String) : List String :=
  ((s.toList.splitOnP Text.isBlank).filter (· ≠ [])).map String.ofList

/-- Lines without their ends; nothing stands behind the last end. -/
def lines (s : String) : List String :=
  let parts := s.splitOn "\n"
  let parts := if parts.getLast? == some "" then parts.dropLast else parts
  parts.map fun line => if line.endsWith "\r" then (line.dropEnd 1).toString else line

def trimSet (set : List Char) (s : String) : String :=
  let drop := List.dropWhile fun c => set.contains c
  String.ofList (drop (drop s.toList).reverse).reverse

def replaceText (old new s : String) : String :=
  String.intercalate new (splitText old s)

def floatWord? (s : String) : Option Binary64 :=
  let s := Text.lowerAscii s
  let (isNegative, word) :=
    match s.toList with
    | '-' :: rest => (true, String.ofList rest)
    | '+' :: rest => (false, String.ofList rest)
    | _ => (false, s)
  if word == "inf" || word == "infinity" then
    some (if isNegative then Binary64.negInfinity else Binary64.infinity)
  else if word == "nan" then some Binary64.nan
  else none

def floatOf? (s : String) : Option Binary64 :=
  Decimal.float? s.toList <|> floatWord? s

def intOf? (s : String) : Option Int := do
  let (isNegative, ds) : Bool × List Char :=
    match s.toList with
    | '-' :: rest => (true, rest)
    | '+' :: rest => (false, rest)
    | rest => (false, rest)
  if ds.isEmpty || !ds.all Decimal.isDigit then none
  let n : Int := Decimal.natOf ds
  (some (if isNegative then -n else n)).filter Value.isWide

/-- The integer part of a number, cut off at the bounds of 128 bits. -/
def truncate (x : Binary64) : Int :=
  let top : Int := Decimal.pow2 127
  if x.isNaN then 0
  else if x.isInfinite then if x.isNegative then -top else top - 1
  else max (-top) (min (top - 1) x.truncate)

def toInt : Value → Except Fault Value
  | .undefined _ | .none => .ok (.int 0)
  | .bool b => .ok (.int (if b then 1 else 0))
  | .int n => .ok (.int n)
  | .float x => .ok (.int (truncate x))
  | .str s _ =>
    match intOf? s, floatOf? s with
    | some n, _ => .ok (.int n)
    | none, some x => .ok (.int (truncate x))
    | none, none => .error .invalidOperation
  | _ => .error .invalidOperation

def toFloat : Value → Except Fault Value
  | .undefined _ | .none => .ok (.float Binary64.zero)
  | .str s _ =>
    match floatOf? s with
    | some x => .ok (.float x)
    | none => .error .invalidOperation
  | v =>
    match v.asFloat? true with
    | some x => .ok (.float x)
    | none => .error .invalidOperation

/-- Rounds to a number of decimal places, a half away from zero. -/
def round (places : Int) : Value → Except Fault Value
  | .int n => .ok (.int n)
  | .float x =>
    let scale := Float.pow 10 (Float.ofInt places)
    .ok (.float (Binary64.ofFloat ((scale * x.toFloat).round / scale)))
  | _ => .error .invalidOperation

def abs : Value → Except Fault Value
  | .int n => Value.wide n.natAbs
  | .float x => .ok (.float (Binary64.ofMagnitude false x.magnitude))
  | _ => .error .invalidOperation

def first : Value → Except Fault Value
  | .undefined _ | .none => .error .invalidOperation
  | v =>
    match v.items? with
    | some items => .ok (items.head?.getD (.undefined false))
    | none => .error .invalidOperation

def last : Value → Except Fault Value
  | .str s b => .ok (((Value.str s b).items?.getD []).getLast?.getD (.undefined false))
  | .list _ items => .ok (items.getLast?.getD (.undefined false))
  | _ => .error .invalidOperation

def least (items : List Value) : Value :=
  match items with
  | [] => .undefined false
  | v :: rest => rest.foldl (fun m w => if w.order m == .lt then w else m) v

def greatest (items : List Value) : Value :=
  match items with
  | [] => .undefined false
  | v :: rest => rest.foldl (fun m w => if w.order m == .lt then m else w) v

def reverse : Value → Except Fault Value
  | .undefined b => .ok (.undefined b)
  | .none => .ok .none
  | .str s _ => .ok (.text (String.ofList s.toList.reverse))
  | v =>
    match v.items? with
    | some items => .ok (.list true items.reverse)
    | none => .error .invalidOperation

def join (separator : String) : Value → Except Fault Value
  | .undefined _ => .ok (.text "")
  | v =>
    match v.items? with
    | some items => .ok (.text (String.intercalate separator (items.map Value.display)))
    | none => .error .invalidOperation

def total (items : List Value) : Except Fault Value :=
  items.foldlM (fun sum v =>
    if v.isMissing then .error .undefinedValue
    else if v.kind == .number then sum.add v
    else .error .invalidOperation) (.int 0)

def unique (key : Value → Value) (items : List Value) : List Value :=
  (items.foldl (fun (kept, seen) v =>
    let k := key v
    if seen.any (fun l => k.order l == .eq) then (kept, seen) else (v :: kept, k :: seen))
    (([], []) : List Value × List Value)).1.reverse

/-- Rows of `count` items; the last one filled up if there is something to fill it with. -/
def batch (count : Nat) (fill : Option Value) (items : List Value) : List Value :=
  (go items.length items).map (Value.list false)
where
  go : Nat → List Value → List (List Value)
    | 0, _ => []
    | fuel + 1, items =>
      if items.isEmpty then []
      else
        let row := items.take count
        let row :=
          match fill with
          | some v => row ++ List.replicate (count - row.length) v
          | none => row
        row :: go fuel (items.drop count)

/-- `count` columns of equal length, the first ones with one more; those without it are filled up. -/
def columns (count : Nat) (fill : Option Value) (items : List Value) : List Value :=
  let short := items.length / count
  let extra := items.length % count
  (List.range count).map fun i =>
    let start := i * short + min i extra
    let column := (items.drop start).take (if i < extra then short + 1 else short)
    .list false (if extra ≤ i then column ++ fill.toList else column)

def indent (width : Nat) (hasFirst hasBlank : Bool) (s : String) : String :=
  let cut (s : String) :=
    let s := if s.endsWith "\n" then (s.dropEnd 1).toString else s
    if s.endsWith "\r" then (s.dropEnd 1).toString else s
  let blanks := String.ofList (List.replicate width ' ')
  let line (l : String) :=
    (if l.isEmpty then (if hasBlank then blanks else "") else blanks ++ l) ++ "\n"
  match (cut s).splitOn "\n" with
  | [] => ""
  | l :: rest =>
    let head := if hasFirst then line l else l ++ "\n"
    cut (head ++ String.join (rest.map line))

def pretty (fuel depth : Nat) (v : Value) : String :=
  let blanks (n : Nat) := String.ofList (List.replicate (4 * n) ' ')
  match fuel with
  | 0 => v.describe
  | fuel + 1 =>
    match v with
    | .list _ (x :: xs) =>
      "[\n" ++ String.join ((x :: xs).map fun v =>
        blanks (depth + 1) ++ pretty fuel (depth + 1) v ++ ",\n") ++ blanks depth ++ "]"
    | .map (e :: es) | .named (e :: es) | .nameSpace (e :: es) =>
      "\x7b\n" ++ String.join ((e :: es).map fun (k, v) =>
        blanks (depth + 1) ++ k.describe ++ ": " ++ pretty fuel (depth + 1) v ++ ",\n") ++
        blanks depth ++ "\x7d"
    | v => v.describe

/-- The width of an indentation: two with a truth value that is true. -/
def indentWidth? : Value → Option Nat
  | .bool b => if b then some 2 else none
  | v => v.asNat?

def toJson (v : Value) (indent : Option Value) : Except Fault Value :=
  match v.toJson? with
  | none => .error .invalidOperation
  | some j =>
    match indent with
    | none | some (.bool false) => .ok (.str (Escape.jsonText j.compactChars) true)
    | some i =>
      match indentWidth? i with
      | some width => .ok (.str (Escape.jsonText (j.prettyChars width 0)) true)
      | none => .error .invalidOperation

def groupBy (name : String) (missing : Value) (isCaseSensitive : Bool) (items : List Value) :
    List Value :=
  let key (v : Value) : Value :=
    match v.path (name.splitOn ".") with
    | .ok w => if w.isUndefined then missing else w
    | .error _ => missing
  let sorted := sortBy (·.1) isCaseSensitive (items.map fun v => (key v, v))
  let groups := sorted.foldr (fun (k, v) groups =>
    match groups with
    | (l, vs) :: rest =>
      if compareBy isCaseSensitive k l == .eq then (k, v :: vs) :: rest else (k, [v]) :: groups
    | [] => [(k, [v])]) ([] : List (Value × List Value))
  groups.map fun (k, vs) => pairValue k (.list false vs)

/-- Keeps the items that pass a test, or those that do not. The test is put to the item or to what
is under a path in it; without a name it asks for the truth. -/
def select (filterNames : List String) (keepPassing : Bool) (path : Option String)
    (test : Option String) (args items : List Value) : Except Fault Value := do
  let passes (v : Value) : Except Fault Bool :=
    match test with
    | some name => Test.apply filterNames name (v :: args)
    | none => .ok v.isTrue
  match test with
  | some name =>
    if !Test.names.contains name then throw .unknownTest
  | none => pure ()
  let kept ← items.filterM fun v => do
    let v ←
      match path with
      | some p => v.path (p.splitOn ".")
      | none => pure v
    return (← passes v) == keepPassing
  return .list false kept

def names : List String :=
  ["safe", "escape", "e", "upper", "lower", "title", "capitalize", "replace", "length", "count",
    "dictsort", "items", "reverse", "trim", "join", "split", "lines", "default", "d", "round",
    "abs", "int", "float", "attr", "first", "last", "min", "max", "sort", "list", "string", "bool",
    "slice", "batch", "sum", "indent", "select", "reject", "selectattr", "rejectattr", "map",
    "groupby", "unique", "chain", "zip", "pprint", "tojson"]

def onText (f : String → String) : Args Value :=
  (fun s => .text (f s)) <$> Args.text

def onValue (f : Value → Except Fault Value) : Args Value := do
  let v ← Args.value
  Args.done
  f v

/-- A split of a sequence into parts, told by a count that is not zero and a filler. -/
def partition (split : Nat → Option Value → List Value → List Value) : Args Value := do
  let v ← Args.value
  let n ← Args.nat
  let fill ← Args.any?
  Args.done
  if n = 0 then throw .invalidOperation
  return .list false (split n fill (← listOf v))

/-- Applies a filter by name to all items of a list, or takes what is under a path in each. -/
def mapItems (apply : String → List Value → Except Fault Value) : Args Value := do
  let v ← Args.value
  let o : Options := ⟨← Args.named⟩
  let args ← Args.rest
  match ← o.get? "attribute" some with
  | some field =>
    if !args.isEmpty then throw .tooManyArguments
    let missing := (o.any? "default").getD (.undefined false)
    let results ← (← v.itemsOf).mapM fun v => do
      let found :=
        match field.asStr? with
        | some name => v.path (name.splitOn ".")
        | none => v.part field
      match found with
      | .ok w => return if w.isUndefined then missing else w
      | .error fault => if missing.isUndefined then throw fault else return missing
    o.allIn ["attribute", "default"]
    return .list false results
  | none =>
    match args with
    | [] => throw .invalidOperation
    | name :: args =>
      match name.asStr? with
      | none => throw .invalidOperation
      | some name =>
        if !names.contains name then throw .unknownFilter
        return .list false (← (← v.itemsOf).mapM fun v => apply name (v :: args))

def sortItems : Args Value := do
  let v ← Args.value
  let o : Options := ⟨← Args.named⟩
  Args.done
  let items ← listOf v
  let isCaseSensitive ← o.flag "case_sensitive"
  let field ← o.get? "attribute" Value.asStr?
  let isReversed ← o.flag "reverse"
  o.allIn ["case_sensitive", "attribute", "reverse"]
  let sorted :=
    match field with
    | none => sortBy id isCaseSensitive items
    | some name =>
      let le (v w : Value) : Bool :=
        match v.path (name.splitOn "."), w.path (name.splitOn ".") with
        | .ok v, .ok w => compareBy isCaseSensitive v w != .gt
        | _, _ => true
      items.mergeSort le
  return .list false (if isReversed then sorted.reverse else sorted)

def sortEntries : Args Value := do
  let v ← Args.value
  let o : Options := ⟨← Args.named⟩
  Args.done
  match Value.entriesOf? v with
  | none => throw .invalidOperation
  | some entries =>
    let byValue := (← o.get? "by" Value.asStr?) == some "value"
    let isCaseSensitive ← o.flag "case_sensitive"
    let isReversed ← o.flag "reverse"
    o.allIn ["by", "case_sensitive", "reverse"]
    let sorted := sortBy (fun e => if byValue then e.2 else e.1) isCaseSensitive entries
    let sorted := if isReversed then sorted.reverse else sorted
    return .list false (sorted.map fun (k, v) => pairValue k v)

def uniqueItems : Args Value := do
  let v ← Args.value
  let o : Options := ⟨← Args.named⟩
  Args.done
  let isCaseSensitive ← o.flag "case_sensitive"
  let field ← o.get? "attribute" Value.asStr?
  o.allIn ["case_sensitive", "attribute"]
  let key (v : Value) : Value :=
    let v :=
      match field with
      | none => v
      | some name =>
        match v.path (name.splitOn ".") with
        | .ok w => w
        | .error _ => .undefined false
    match isCaseSensitive, v.asStr? with
    | false, some s => .text (Text.lower s)
    | _, _ => v
  return .list false (unique key (← listOf v))

def groupItems : Args Value := do
  let v ← Args.value
  let o : Options := ⟨← Args.named⟩
  let given ← Args.optional Value.asStr?
  Args.done
  let missing := (← o.get? "default" some).getD (.undefined false)
  let isCaseSensitive ← o.flag "case_sensitive"
  let field ←
    match given with
    | some name => pure (some name)
    | none => o.get? "attribute" Value.asStr?
  o.allIn ["default", "case_sensitive", "attribute"]
  match field with
  | none => throw .missingArgument
  | some name => return .list false (groupBy name missing isCaseSensitive (← v.itemsOf))

/-- Sequences one after the other; of mappings alone the entries, a later one in front. -/
def chain (values : List Value) : Except Fault Value := do
  match values.mapM Value.entriesOf? with
  | some maps => return .map (Value.mapOf maps.flatten)
  | none => return .list true (← values.mapM Value.itemsOf).flatten

/-- Lists of the items at equal positions, up to the end of the shortest sequence. -/
def zip (values : List Value) : Except Fault Value := do
  let rows ← values.mapM Value.itemsOf
  let width := (rows.map List.length).min?.getD 0
  return .list true ((List.range width).map fun i =>
    .list false (rows.filterMap fun row => row[i]?))

def ofName? (escape : Escape) (apply : String → List Value → Except Fault Value) :
    String → Option (Args Value)
  | "safe" => some ((.str · true) <$> Args.text)
  | "escape" | "e" => some (onValue fun v => do
      match v with
      | .str s true => return .str s true
      | v => return .str (← (if escape == .none then Escape.html else escape).write v) true)
  | "upper" => some (onText Text.upper)
  | "lower" => some (onText Text.lower)
  | "title" => some (onText Text.title)
  | "capitalize" => some (onText Text.capitalize)
  | "replace" => some do
      let s ← Args.text
      let old ← Args.text
      let new ← Args.text
      return .text (replaceText old new s)
  | "length" | "count" => some (onValue fun v =>
      match v.length? with
      | some n => .ok (.int n)
      | none => .error .invalidOperation)
  | "dictsort" => some sortEntries
  | "items" => some (onValue fun v =>
      match Value.entriesOf? v with
      | some es => .ok (.list true (es.map fun (k, v) => pairValue k v))
      | none => .error .invalidOperation)
  | "reverse" => some (onValue reverse)
  | "trim" => some do
      let s ← Args.text
      match ← Args.text? with
      | some set => return .text (trimSet set.toList s)
      | none => return .text (Text.trim s)
  | "join" => some do
      let v ← Args.value
      let separator ← Args.text?
      Args.done
      join (separator.getD "") v
  | "split" => some do
      let s ← Args.text
      let separator ← Args.text?
      let most ← Args.int?
      let most := (most.filter (0 ≤ ·)).map (·.toNat + 1)
      let parts :=
        match separator, most with
        | none, _ => words s
        | some separator, none => splitText separator s
        | some separator, some n => splitAtMost n separator s
      return .list true (parts.map .text)
  | "lines" => some ((fun s => .list true ((lines s).map .text)) <$> Args.text)
  | "default" | "d" => some do
      let v ← Args.value
      let other ← Args.any?
      let isLax ← Args.flag?
      if v.isUndefined || (isLax.getD false && !v.isTrue) then return other.getD (.text "")
      return v
  | "round" => some do
      let v ← Args.value
      let places ← Args.int?
      Args.done
      round (places.getD 0) v
  | "abs" => some (onValue abs)
  | "int" => some (onValue toInt)
  | "float" => some (onValue toFloat)
  | "attr" => some do
      let v ← Args.value
      let key ← Args.value
      Args.done
      v.part key
  | "first" => some (onValue first)
  | "last" => some (onValue last)
  | "min" => some (onValue fun v => least <$> listOf v)
  | "max" => some (onValue fun v => greatest <$> listOf v)
  | "sort" => some sortItems
  | "list" => some (onValue fun v => .list false <$> listOf v)
  | "string" => some (onValue fun v =>
      match v with
      | .str s b => .ok (.str s b)
      | v => .ok (.text v.display))
  | "bool" => some (onValue fun v => .ok (.bool v.isTrue))
  | "slice" => some (partition columns)
  | "batch" => some (partition batch)
  | "sum" => some (onValue fun v => do total (← v.itemsOf))
  | "indent" => some do
      let s ← Args.text
      let width ← Args.nat
      let hasFirst ← Args.flag?
      let hasBlank ← Args.flag?
      return .text (indent width (hasFirst.getD false) (hasBlank.getD false) s)
  | "select" => some (selecting true false)
  | "reject" => some (selecting false false)
  | "selectattr" => some (selecting true true)
  | "rejectattr" => some (selecting false true)
  | "map" => some (mapItems apply)
  | "groupby" => some groupItems
  | "unique" => some uniqueItems
  | "chain" => some do chain (← Args.rest)
  | "zip" => some do zip (← Args.rest)
  | "pprint" => some (onValue fun v => .ok (.text (pretty 100 0 v)))
  | "tojson" => some do
      let v ← Args.value
      let o : Options := ⟨← Args.named⟩
      let indent ← Args.any?
      Args.done
      let indent ←
        match indent with
        | some i => pure (some i)
        | none => o.get? "indent" some
      o.allIn ["indent"]
      toJson v indent
  | _ => none
where
  selecting (keepPassing byPath : Bool) : Args Value := do
    let v ← Args.value
    let path ← if byPath then some <$> Args.text else pure none
    let test ← Args.text?
    let args ← Args.rest
    select names keepPassing path test args (← v.itemsOf)

/-- The result of a filter, of which the first argument is what it applies to. `depth` bounds how
often filters apply filters. -/
def apply : Nat → Escape → String → List Value → Except Fault Value
  | 0, _, _, _ => .error .invalidOperation
  | depth + 1, escape, name, args =>
    match ofName? escape (apply depth escape) name with
    | some filter => Args.run filter args
    | none => .error .unknownFilter

end TaskTags.Template.Filter
