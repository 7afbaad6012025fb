import TaskTags.Yaml.Cursor
import TaskTags.Decimal.Digits

/-!
The texts of YAML scalars: plain, quoted and block scalars. Each reader goes from the first
character of a scalar to the place behind it.
-/

namespace TaskTags.Yaml

/-- Line breaks between two parts of a scalar: the first one and those after it. -/
structure Breaks where
  first : List Char
  more : List Char

/-- A single break between two parts is a blank, of several the first is dropped; a separator of
lines or paragraphs stays. -/
def Breaks.fold (b : Breaks) : List Char :=
  if b.first.head? == some '\n' then
    if b.more.isEmpty then [' '] else b.more
  else
    b.first ++ b.more

/-- The blanks and breaks at a place: without break the blanks, else the breaks. `column` is the
least column at which a tab may stand in front of the text of a line. -/
def scanGap? (fuel : Nat) (column : Int) (c : Cursor) (found : Option Breaks)
    (blanks : List Char) : Option (Cursor × Option Breaks × List Char) :=
  match fuel with
  | 0 => none
  | fuel + 1 =>
    match c.lineBreak? with
    | some (text, next) =>
      match found with
      | none => scanGap? fuel column next (some ⟨text, []⟩) []
      | some b => scanGap? fuel column next (some ⟨b.first, b.more ++ text⟩) []
    | none =>
      match c.peek? with
      | some x =>
        if isSpaceOrTab x then
          if found.isSome then
            if x == '\t' && decide ((c.column : Int) < column) then none
            else scanGap? fuel column (c.skip 1) found blanks
          else
            scanGap? fuel column (c.skip 1) found (blanks ++ [x])
        else some (c, found, blanks)
      | none => some (c, found, blanks)

def isFlowMark (x : Char) : Bool :=
  x == ',' || x == '[' || x == ']' || x == '{' || x == '}'

/-- The characters of a plain scalar up to a blank or a mark that ends it; nothing if a colon stands
in front of a mark of a flow collection. -/
def plainRun? (inFlow : Bool) : List Char → Option (List Char)
  | [] => some []
  | x :: rest =>
    if isSpaceOrTab x || isBreak x then some []
    else
      let next := rest.head?
      let blankNext := next.all fun y => isSpaceOrTab y || isBreak y
      if inFlow && x == ':' && next.any (fun y => y == '?' || isFlowMark y) then none
      else if (x == ':' && blankNext) || (inFlow && isFlowMark x) then some []
      else (plainRun? inFlow rest).map (x :: ·)

/-- A plain scalar, the place behind it, and whether a line break ends it. `gap` is what stands
between the text so far and the place. -/
def scanPlain? (fuel : Nat) (inFlow : Bool) (indent : Int) (c : Cursor) (text gap : List Char)
    (afterBreak : Bool) : Option (List Char × Cursor × Bool) :=
  match fuel with
  | 0 => none
  | fuel + 1 => do
    if c.atDocumentMark || c.looksAt '#' then
      return (text, c, afterBreak)
    let run ← plainRun? inFlow c.rest
    let joined := if run.isEmpty then text else text ++ gap ++ run
    let afterBreak := afterBreak && run.isEmpty
    let c := c.skip run.length
    if c.atEnd || !c.blankAt 0 then
      return (joined, c, afterBreak)
    let (next, breaks, blanks) ← scanGap? (c.rest.length + 1) indent c none []
    let afterBreak := afterBreak || breaks.isSome
    if !inFlow && decide ((next.column : Int) < indent) then
      return (joined, next, afterBreak)
    let gap :=
      match breaks with
      | some b => b.fold
      | none => blanks
    scanPlain? fuel inFlow indent next joined gap afterBreak

def simpleEscape? : Char → Option Char
  | '0' => some (Char.ofNat 0)
  | 'a' => some (Char.ofNat 7)
  | 'b' => some (Char.ofNat 8)
  | 't' => some '\t'
  | '\t' => some '\t'
  | 'n' => some '\n'
  | 'v' => some (Char.ofNat 0xB)
  | 'f' => some (Char.ofNat 0xC)
  | 'r' => some '\r'
  | 'e' => some (Char.ofNat 0x1B)
  | ' ' => some ' '
  | '"' => some '"'
  | '/' => some '/'
  | '\\' => some '\\'
  | 'N' => some (Char.ofNat 0x85)
  | '_' => some (Char.ofNat 0xA0)
  | 'L' => some (Char.ofNat 0x2028)
  | 'P' => some (Char.ofNat 0x2029)
  | _ => none

def escapeWidth? : Char → Option Nat
  | 'x' => some 2
  | 'u' => some 4
  | 'U' => some 8
  | _ => none

/-- The character that an escape stands for, and the length of the escape without its backslash. -/
def escape? (cs : List Char) : Option (Char × Nat) := do
  let x ← cs.head?
  match escapeWidth? x with
  | some width =>
    let ds := (cs.drop 1).take width
    if ds.length ≠ width then none
    let values ← ds.mapM Decimal.hexValue?
    let n := values.foldl (fun n d => n * 16 + d) 0
    if (0xD800 ≤ n && n ≤ 0xDFFF) || 0x10FFFF < n then none
    return (Char.ofNat n, width + 1)
  | none => return (← simpleEscape? x, 1)

inductive RunEnd where
  | quote
  | blank
  /-- A backslash at the end of a line. -/
  | joined
deriving DecidableEq

/-- The characters of a quoted scalar up to a blank, its closing quote or an escaped line break. -/
def quotedRun? (single : Bool) : Nat → Cursor → Option (List Char × Cursor × RunEnd)
  | 0, _ => none
  | fuel + 1, c =>
    match c.rest with
    | [] => some ([], c, .blank)
    | x :: rest =>
      let add (y : Char) (n : Nat) :=
        (quotedRun? single fuel (c.skip n)).map fun (cs, c, e) => (y :: cs, c, e)
      if isSpaceOrTab x || isBreak x then some ([], c, .blank)
      else if single then
        if x == '\'' then
          if rest.head? == some '\'' then add '\'' 2 else some ([], c, .quote)
        else add x 1
      else if x == '"' then some ([], c, .quote)
      else if x == '\\' then
        if c.breakAt 1 then
          match (c.skip 1).lineBreak? with
          | some (_, next) => some ([], next, .joined)
          | none => none
        else
          match escape? rest with
          | some (y, n) => add y (n + 1)
          | none => none
      else add x 1

/-- A quoted scalar from behind its opening quote, and the place behind the closing one. -/
def scanQuoted? (fuel : Nat) (single : Bool) (c : Cursor) (text : List Char) :
    Option (List Char × Cursor) :=
  match fuel with
  | 0 => none
  | fuel + 1 => do
    if c.atDocumentMark || c.atEnd then none
    let (run, c, runEnd) ← quotedRun? single (c.rest.length + 1) c
    let text := text ++ run
    if runEnd == .quote || c.looksAt (if single then '\'' else '"') then
      return (text, c.skip 1)
    let found := if runEnd == .joined then some ⟨[], []⟩ else none
    let (next, breaks, blanks) ← scanGap? (c.rest.length + 1) 0 c found []
    let gap :=
      match breaks with
      | some b => b.fold
      | none => blanks
    scanQuoted? fuel single next (text ++ gap)

/-- Which of the line breaks at the end of a block scalar stay. -/
inductive Chomping where
  | strip
  | clip
  | keep
deriving DecidableEq

/-- The header of a block scalar: how its end is chomped and by how much it is indented. -/
def blockHeader? (c : Cursor) : Option (Chomping × Option Nat × Cursor) := do
  let chomping (c : Cursor) : Option Chomping :=
    match c.peek? with
    | some '+' => some .keep
    | some '-' => some .strip
    | _ => none
  let digit (c : Cursor) : Option Nat :=
    match c.peek? with
    | some x => if Decimal.isDigit x then some (Decimal.digitValue x) else none
    | none => none
  match chomping c with
  | some ch =>
    let c := c.skip 1
    match digit c with
    | some 0 => none
    | some n => return (ch, some n, c.skip 1)
    | none => return (ch, none, c)
  | none =>
    match digit c with
    | some 0 => none
    | some n =>
      let c := c.skip 1
      match chomping c with
      | some ch => return (ch, some n, c.skip 1)
      | none => return (.clip, some n, c)
    | none => return (.clip, none, c)

/-- The empty lines at a place, with the greatest column reached by blanks; without a known
indentation all blanks count as indentation. -/
def blockBreaks? (fuel : Nat) (indent : Option Nat) (c : Cursor) (text : List Char) (widest : Nat) :
    Option (List Char × Cursor × Nat) :=
  match fuel with
  | 0 => none
  | fuel + 1 =>
    let blanks := (c.rest.takeWhile (· == ' ')).length
    let taken :=
      match indent with
      | some n => min blanks (n - c.column)
      | none => blanks
    let c := c.skip taken
    let widest := max widest c.column
    let short :=
      match indent with
      | some n => decide (c.column < n)
      | none => true
    if short && c.looksAt '\t' then none
    else
      match c.lineBreak? with
      | some (b, next) => blockBreaks? fuel indent next (text ++ b) widest
      | none => some (text, c, widest)

/-- The lines of a block scalar from the start of a line. `leading` is the break behind the last
line, `trailing` the empty lines after it, `wasBlank` whether the last line starts with a blank. -/
def blockLines? (fuel : Nat) (literal : Bool) (indent : Nat) (c : Cursor)
    (text leading trailing : List Char) (wasBlank : Bool) :
    Option (List Char × List Char × List Char × Cursor) :=
  match fuel with
  | 0 => none
  | fuel + 1 => do
    if c.column ≠ indent || c.atEnd then
      return (text, leading, trailing, c)
    let isBlank := c.peek?.any isSpaceOrTab
    let join :=
      if !literal && leading.head? == some '\n' && !wasBlank && !isBlank then
        if trailing.isEmpty then [' '] else []
      else leading
    let (line, c) := c.takeWhile fun x => !isBreak x
    let (leading, c) := c.lineBreak?.getD ([], c)
    let (trailing', c, _) ← blockBreaks? (c.rest.length + 1) (some indent) c [] 0
    blockLines? fuel literal indent c (text ++ join ++ trailing ++ line) leading trailing' isBlank

/-- A block scalar from behind its mark. `outer` is the indentation of the block around it. -/
def scanBlock? (literal : Bool) (outer : Int) (c : Cursor) : Option (List Char × Cursor) := do
  let (chomping, increment, c) ← blockHeader? c
  let c := (c.skipWhile isSpaceOrTab).skipComment
  if !c.atLineEnd then none
  let c := (c.lineBreak?.map (·.2)).getD c
  let given := increment.map fun n => if 0 ≤ outer then outer.toNat + n else n
  let (trailing, c, widest) ← blockBreaks? (c.rest.length + 1) given c [] 0
  let indent := given.getD (max widest (max (outer + 1).toNat 1))
  let (text, leading, trailing, c) ←
    blockLines? (c.rest.length + 1) literal indent c [] [] trailing false
  let tail :=
    match chomping with
    | .strip => []
    | .clip => leading
    | .keep => leading ++ trailing
  return (text ++ tail, c)

end TaskTags.Yaml
