import TaskTags.Decimal.Reading
import TaskTags.Template.Fault
import TaskTags.Text.Blank

/-!
The tokens of a template: its text, the marks of its expressions and statements, and what stands
between them. A statement or comment takes the blanks in front of it on its line and the line break
behind it; a minus at a mark takes all blanks on its side, a plus keeps them.
-/

namespace TaskTags.Template

inductive Token where
  | text (value : String)
  | exprStart
  | exprEnd
  | blockStart
  | blockEnd
  | name (value : String)
  | str (value : String)
  | int (value : Nat)
  | float (value : Binary64)
  /-- An operator or a bracket. -/
  | mark (value : String)
  /-- What cannot be read. Nothing follows it. -/
  | bad (fault : Fault)
deriving DecidableEq, Inhabited

/-- What stands around a place of a template. -/
inductive Mode where
  | text
  | expr
  | block
deriving DecidableEq

/-- What a mark does with the blanks beside it. -/
inductive Trim where
  | line
  | all
  | keep
deriving DecidableEq

def Trim.ofChar? : Option Char → Trim
  | some '-' => .all
  | some '+' => .keep
  | _ => .line

def Trim.width : Trim → Nat
  | .line => 0
  | _ => 1

def isLineEnd (c : Char) : Bool := c == '\n' || c == '\r'

def dropLineBreak : List Char → List Char
  | '\r' :: '\n' :: rest => rest
  | '\r' :: rest => rest
  | '\n' :: rest => rest
  | cs => cs

/-- Splits at the first place of a mark of two characters, which belongs to neither part. -/
def splitAt? (a b : Char) : List Char → Option (List Char × List Char)
  | [] => none
  | [_] => none
  | c :: d :: rest =>
    if c == a && d == b then some ([], rest)
    else (splitAt? a b (d :: rest)).map fun (xs, ys) => (c :: xs, ys)

def untilMark : List Char → List Char × List Char
  | [] => ([], [])
  | '{' :: c :: rest =>
    if c == '{' || c == '%' || c == '#' then ([], '{' :: c :: rest)
    else
      let (xs, ys) := untilMark (c :: rest)
      ('{' :: xs, ys)
  | c :: rest =>
    let (xs, ys) := untilMark rest
    (c :: xs, ys)

/-- Whether only blanks stand between the start of a line and the end of a text. Without a line
break in the text that is so if it was so before it. -/
def endsBlankLine (before : Bool) (cs : List Char) : Bool :=
  match cs.reverse.dropWhile fun c => Text.isBlank c && !isLineEnd c with
  | [] => before
  | c :: _ => isLineEnd c

/-- The text without the blanks behind its last line break. -/
def dropLastBlanks (cs : List Char) : List Char :=
  (cs.reverse.dropWhile fun c => Text.isBlank c && !isLineEnd c).reverse

def leadingText (trim : Trim) (isExpr atLineStart : Bool) (cs : List Char) : List Char :=
  match trim with
  | .all => Text.trimEnd cs
  | .keep => cs
  | .line => if !isExpr && endsBlankLine atLineStart cs then dropLastBlanks cs else cs

def isInnerBlank (c : Char) : Bool :=
  c == ' ' || c == '\t' || c == '\n' || c == '\r' || c.toNat == 12

/-- The end of a tag that consists of one word, from behind its opening mark, and the sign at its
closing mark. -/
def wordTag? (word : String) (cs : List Char) : Option (List Char × Trim) :=
  let cs := cs.dropWhile isInnerBlank
  let word := word.toList
  if !word.isPrefixOf cs then none
  else
    let cs := (cs.drop word.length).dropWhile isInnerBlank
    let trim := Trim.ofChar? cs.head?
    match cs.drop trim.width with
    | '%' :: '}' :: rest => some (rest, trim)
    | _ => none

/-- The text up to the tag that ends a raw one, the signs at the marks of that tag, and what
follows. -/
def rawText? : List Char → Option (List Char × Trim × Trim × List Char)
  | [] => none
  | '{' :: '%' :: rest =>
    let first := Trim.ofChar? rest.head?
    match wordTag? "endraw" (rest.drop first.width) with
    | some (rest', last) => some ([], first, last, rest')
    | none => (rawText? ('%' :: rest)).map fun (cs, r) => ('{' :: cs, r)
  | c :: rest => (rawText? rest).map fun (cs, r) => (c :: cs, r)

def rawBody (opening closing : Trim) (cs : List Char) : List Char :=
  let cs :=
    match opening with
    | .line => dropLineBreak cs
    | .all => Text.trimStart cs
    | .keep => cs
  match closing with
  | .line => if endsBlankLine true cs then dropLastBlanks cs else cs
  | .all => Text.trimEnd cs
  | .keep => cs

def isNameStart (c : Char) : Bool := c.isAlpha || c == '_'
def isNameChar (c : Char) : Bool := c.isAlphanum || c == '_'

/-- The value of digits in a base; nothing if there are none or one is none. -/
def digitsIn? (base : Nat) (cs : List Char) : Option Nat := do
  if cs.isEmpty then none
  let values ← cs.mapM fun c => (Decimal.hexValue? c).filter (· < base)
  return values.foldl (fun n d => n * base + d) 0

inductive NumberPhase where
  | digits
  | fraction
  | exponentMark
  | exponent
deriving DecidableEq

def numberChars (base : Nat) : NumberPhase → List Char → List Char × Bool × List Char
  | phase, [] => ([], phase ≠ .digits, [])
  | phase, c :: rest =>
    let isWhole := phase == .digits && base == 10
    let next : Option NumberPhase :=
      if c == '.' && isWhole then some .fraction
      else if (c == 'e' || c == 'E') && (isWhole || phase == .fraction) then some .exponentMark
      else if (c == '+' || c == '-') && phase == .exponentMark then some .exponent
      else if Decimal.isDigit c then
        some (if phase == .exponentMark then .exponent else phase)
      else if base == 16 && (Decimal.hexValue? c).isSome then some phase
      else if c == '_' then some phase
      else none
    match next with
    | none => ([], phase ≠ .digits, c :: rest)
    | some p =>
      let (cs, isFloat, rest') := numberChars base p rest
      (c :: cs, isFloat, rest')

def numberBase : List Char → Nat × List Char
  | '0' :: 'b' :: rest | '0' :: 'B' :: rest => (2, rest)
  | '0' :: 'o' :: rest | '0' :: 'O' :: rest => (8, rest)
  | '0' :: 'x' :: rest | '0' :: 'X' :: rest => (16, rest)
  | rest => (10, rest)

/-- The number that characters stand for. An underscore may stand between them. -/
def numberToken? (base : Nat) (isFloat : Bool) (text : List Char) : Option Token :=
  let plain := text.filter (· ≠ '_')
  if text.getLast? == some '_' then none
  else if isFloat then (Decimal.float? plain).map .float
  else (digitsIn? base plain).bind fun n => if n < Decimal.pow2 128 then some (.int n) else none

def scanNumber (cs : List Char) : Token × List Char :=
  let (base, cs) := numberBase cs
  let (text, isFloat, rest) := numberChars base .digits cs
  match numberToken? base isFloat text with
  | some t => (t, rest)
  | none => (.bad .syntaxError, [])

def quotedPart? (quote : Char) : List Char → Option (List Char × List Char)
  | [] => none
  | '\\' :: c :: rest => (quotedPart? quote rest).map fun (cs, r) => ('\\' :: c :: cs, r)
  | c :: rest =>
    if c == quote then some ([], rest)
    else (quotedPart? quote rest).map fun (cs, r) => (c :: cs, r)

def hexUnit? (cs : List Char) : Option Nat := do
  if cs.length ≠ 4 then none
  digitsIn? 16 cs

def escapedChar? : Char → Option Char
  | '"' => some '"'
  | '\\' => some '\\'
  | '/' => some '/'
  | '\'' => some '\''
  | 'b' => some (Char.ofNat 8)
  | 'f' => some (Char.ofNat 12)
  | 'n' => some '\n'
  | 'r' => some '\r'
  | 't' => some '\t'
  | _ => none

/-- Resolves escapes. `half` is the first code unit of a pair whose second one has to follow. -/
def unescape? (half : Option Nat) : List Char → Option (List Char)
  | [] => if half.isSome then none else some []
  | '\\' :: 'u' :: a :: b :: c :: d :: rest => do
    let unit ← hexUnit? [a, b, c, d]
    let isHalf := 0xD800 ≤ unit && unit ≤ 0xDFFF
    match half, isHalf with
    | none, false => return Char.ofNat unit :: (← unescape? none rest)
    | none, true => unescape? (some unit) rest
    | some _, false => none
    | some first, true =>
      if first < 0xDC00 && 0xDC00 ≤ unit then
        let c := Char.ofNat (0x10000 + (first - 0xD800) * 0x400 + (unit - 0xDC00))
        return c :: (← unescape? none rest)
      else none
  | '\\' :: c :: rest => do
    if half.isSome then none
    return (← escapedChar? c) :: (← unescape? none rest)
  | c :: rest => do
    if half.isSome || c == '\\' then none
    return c :: (← unescape? none rest)

def scanString (quote : Char) (cs : List Char) : Token × List Char :=
  match quotedPart? quote cs with
  | none => (.bad .syntaxError, [])
  | some (part, rest) =>
    match unescape? none part with
    | some text => (.str (String.ofList text), rest)
    | none => (.bad .badEscape, [])

def longMarks : List String := ["//", "**", "==", "!=", ">=", "<="]

def isMark (c : Char) : Bool := "+-*/%.,:~|=><()[]\x7b\x7d".toList.contains c

def nesting (mark : String) : Int :=
  if mark == "(" || mark == "[" || mark == "\x7b" then 1
  else if mark == ")" || mark == "]" || mark == "\x7d" then -1
  else 0

/-- The token at the front of the inside of a tag, which does not start with a blank. -/
def scanInner (c : Char) (rest : List Char) : Token × List Char :=
  let pair := String.ofList (c :: rest.take 1)
  if longMarks.contains pair then (.mark pair, rest.drop 1)
  else if isMark c then (.mark (String.ofList [c]), rest)
  else if c == '\'' || c == '"' then scanString c rest
  else if Decimal.isDigit c then scanNumber (c :: rest)
  else if isNameStart c then
    (.name (String.ofList ((c :: rest).takeWhile isNameChar)), rest.dropWhile isNameChar)
  else (.bad .syntaxError, [])

def closing? (mode : Mode) (cs : List Char) : Option (List Char × Trim) :=
  let first := if mode == .expr then '}' else '%'
  let trim := Trim.ofChar? cs.head?
  match cs.drop trim.width with
  | c :: '}' :: rest => if c == first then some (rest, trim) else none
  | _ => none

/-- What is known at a place of a template: what stands around it, the count of open brackets,
whether blanks are to be left out, and whether only blanks stand in front of it on its line. -/
structure Place where
  mode : Mode
  depth : Int
  dropBlanks : Bool
  atLineStart : Bool

def Place.afterTag (trim : Trim) (takesLineBreak : Bool) (rest : List Char) : Place × List Char :=
  let rest' := if takesLineBreak && trim == .line then dropLineBreak rest else rest
  (⟨.text, 0, trim == .all, rest'.length < rest.length⟩, rest')

def Token.list : Nat → Place → List Char → List Token
  | 0, _, _ => [.bad .syntaxError]
  | fuel + 1, p, cs =>
    match p.mode with
    | .text =>
      let blanks := if p.dropBlanks then cs.takeWhile Text.isBlank else []
      let cs := cs.drop blanks.length
      let atLineStart := endsBlankLine p.atLineStart blanks
      match cs with
      | [] => []
      | '{' :: '#' :: rest =>
        let sign := Trim.ofChar? rest.head?
        match splitAt? '#' '}' (rest.drop sign.width) with
        | none => [.bad .syntaxError]
        | some (body, rest) =>
          let (p, rest) := Place.afterTag (Trim.ofChar? body.getLast?) true rest
          Token.list fuel p rest
      | '{' :: '{' :: rest =>
        .exprStart :: Token.list fuel ⟨.expr, 0, false, false⟩ (rest.drop (Trim.ofChar? rest.head?).width)
      | '{' :: '%' :: rest =>
        let rest := rest.drop (Trim.ofChar? rest.head?).width
        match wordTag? "raw" rest with
        | none => .blockStart :: Token.list fuel ⟨.block, 0, false, false⟩ rest
        | some (rest, opening) =>
          match rawText? rest with
          | none => [.bad .syntaxError]
          | some (body, closing, last, rest) =>
            let (p, rest) := Place.afterTag last true rest
            .text (String.ofList (rawBody opening closing body)) :: Token.list fuel p rest
      | cs =>
        let (lead, rest) := untilMark cs
        let shown :=
          match rest with
          | [] => lead
          | _ => leadingText (Trim.ofChar? rest[2]?) (rest[1]? == some '{') atLineStart lead
        let following := Token.list fuel ⟨.text, 0, false, endsBlankLine atLineStart lead⟩ rest
        if shown.isEmpty then following else .text (String.ofList shown) :: following
    | mode =>
      match cs.dropWhile isInnerBlank with
      | [] => []
      | c :: rest =>
        match (if p.depth == 0 then closing? mode (c :: rest) else none) with
        | some (rest, trim) =>
          let (p, rest) := Place.afterTag trim (mode == .block) rest
          (if mode == .expr then .exprEnd else .blockEnd) :: Token.list fuel p rest
        | none =>
          let (token, rest) := scanInner c rest
          let depth :=
            match token with
            | .mark m => p.depth + nesting m
            | _ => p.depth
          token :: Token.list fuel { p with depth } rest

def dropLastBreak (cs : List Char) : List Char :=
  match cs.reverse with
  | '\n' :: '\r' :: rest => rest.reverse
  | '\n' :: rest => rest.reverse
  | '\r' :: rest => rest.reverse
  | _ => cs

def Token.ofTemplate (source : String) : List Token :=
  let cs := dropLastBreak source.toList
  Token.list (2 * cs.length + 2) ⟨.text, 0, false, true⟩ cs

def Token.ofExpression (source : String) : List Token :=
  let cs := dropLastBreak source.toList
  Token.list (2 * cs.length + 2) ⟨.expr, 0, false, false⟩ cs

end TaskTags.Template
