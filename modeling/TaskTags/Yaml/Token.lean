import TaskTags.Yaml.ScalarText

/-!
The tokens of a YAML text. Indentation becomes opening and closing tokens, and a key gets its token
when the colon behind it is found.
-/

namespace TaskTags.Yaml

inductive Token where
  | version (major minor : Nat)
  /-- A handle of tags and the text that it stands for. -/
  | handle (name text : String)
  | documentStart
  | documentEnd
  | openBlockList
  | openBlockMap
  | closeBlock
  | openList
  | closeList
  | openMap
  | closeMap
  /-- The dash in front of an item of a block list. -/
  | dash
  | comma
  | key
  | value
  | alias (name : String)
  | anchor (name : String)
  | tag (handle suffix : String)
  | scalar (isPlain : Bool) (text : String)
deriving DecidableEq, Inhabited

/-- A place at which a key may have started. -/
structure KeyPlace where
  /-- The number of tokens in front. -/
  tokens : Nat
  line : Nat
  index : Nat
  column : Nat
  /-- Whether nothing but a key can stand there. -/
  required : Bool

/-- What is open at a place of a text: blocks by their columns, flow collections by the keys that
may have started in them. -/
structure Layout where
  indent : Int
  outer : List Int
  key : Option KeyPlace
  outerKeys : List (Option KeyPlace)
  keyAllowed : Bool
  tokens : Array Token

namespace Layout

def start : Layout := ⟨-1, [], none, [], true, #[]⟩

def inFlow (l : Layout) : Bool := !l.outerKeys.isEmpty

def push (l : Layout) (t : Token) : Layout := { l with tokens := l.tokens.push t }

def allow (l : Layout) (b : Bool) : Layout := { l with keyAllowed := b }

/-- A key must end on its line and within 1024 characters. -/
def dropStale? (l : Layout) (c : Cursor) : Option Layout :=
  let isStale (k : KeyPlace) : Bool := k.line < c.line || k.index + 1024 < c.index
  let all := l.key :: l.outerKeys
  if all.any fun k => k.any fun k => isStale k && k.required then none
  else
    let drop (k : Option KeyPlace) := k.filter fun k => !isStale k
    some { l with key := drop l.key, outerKeys := l.outerKeys.map drop }

def dropKey? (l : Layout) : Option Layout :=
  if l.key.any (·.required) then none else some { l with key := none }

/-- A key may start here. -/
def markKey? (l : Layout) (c : Cursor) : Option Layout :=
  if l.keyAllowed then do
    let required := !l.inFlow && l.indent == (c.column : Int)
    let l ← l.dropKey?
    return { l with key := some ⟨l.tokens.size, c.line, c.index, c.column, required⟩ }
  else some l

/-- Opens a block at a column to the right of the present one; the token goes in front of those
after the first `place`. -/
def openBlock (l : Layout) (column : Nat) (place : Nat) (t : Token) : Layout :=
  if !l.inFlow && decide (l.indent < (column : Int)) then
    { l with
      indent := column
      outer := l.indent :: l.outer
      tokens := l.tokens.insertIdxIfInBounds place t }
  else l

/-- Closes blocks down to a column. -/
def closeBlocks (l : Layout) (column : Int) : Layout :=
  if l.inFlow then l
  else go l.indent l.outer l.tokens
where
  go (indent : Int) (outer : List Int) (tokens : Array Token) : Layout :=
    if column < indent then
      match outer with
      | above :: rest => go above rest (tokens.push .closeBlock)
      | [] => { l with indent := column, outer := [], tokens := tokens.push .closeBlock }
    else { l with indent, outer, tokens }

def openFlow (l : Layout) (t : Token) : Layout :=
  { l with key := none, outerKeys := l.key :: l.outerKeys, keyAllowed := true, tokens := l.tokens.push t }

def closeFlow? (l : Layout) (t : Token) : Option Layout := do
  let l ← l.dropKey?
  let l := { (l.allow false) with tokens := l.tokens.push t }
  match l.outerKeys with
  | k :: rest => return { l with key := k, outerKeys := rest }
  | [] => return l

end Layout

/-- Goes to the next token: past blanks, comments and line breaks. In block context a key may start
on a new line. A tab stands for a blank only where no key may start. -/
def toNextToken : Nat → Cursor → Layout → Cursor × Layout
  | 0, c, l => (c, l)
  | fuel + 1, c, l =>
    let c := if c.column == 0 && c.looksAt byteOrderMark then c.skip 1 else c
    let c := c.skipWhile fun x => x == ' ' || ((l.inFlow || !l.keyAllowed) && x == '\t')
    let c := c.skipComment
    match c.lineBreak? with
    | some (_, next) => toNextToken fuel next (if l.inFlow then l else l.allow true)
    | none => (c, l)

def isTagChar (verbatim : Bool) (x : Char) : Bool :=
  isNameChar x || ";/?:@&=+$.%!~*'()".toList.contains x || (verbatim && ",[]".toList.contains x)

def escapedByte? : List Char → Option (UInt8 × List Char)
  | '%' :: a :: b :: rest => do
    let a ← Decimal.hexValue? a
    let b ← Decimal.hexValue? b
    return ((a * 16 + b).toUInt8, rest)
  | _ => none

/-- The bytes of the escapes at the front of a text, at most `n`. -/
def escapedBytes? : Nat → List Char → Option (List UInt8 × List Char)
  | 0, cs => some ([], cs)
  | n + 1, cs => do
    let (byte, rest) ← escapedByte? cs
    let (bytes, rest) ← escapedBytes? n rest
    return (byte :: bytes, rest)

/-- How many bytes a character has, by its first one. -/
def byteWidth? (byte : UInt8) : Option Nat :=
  if byte < 0x80 then some 1
  else if 0xC0 ≤ byte && byte < 0xE0 then some 2
  else if 0xE0 ≤ byte && byte < 0xF0 then some 3
  else if 0xF0 ≤ byte && byte < 0xF8 then some 4
  else none

def tagText? (fuel : Nat) (cs : List Char) : Option (List Char) :=
  match fuel, cs with
  | _, [] => some []
  | 0, _ => none
  | fuel + 1, '%' :: rest => do
    let (first, _) ← escapedByte? ('%' :: rest)
    let (bytes, rest) ← escapedBytes? (← byteWidth? first) ('%' :: rest)
    let text ← String.fromUTF8? (ByteArray.mk bytes.toArray)
    return text.toList ++ (← tagText? fuel rest)
  | fuel + 1, x :: rest => (tagText? fuel rest).map (x :: ·)

def scanTagText? (verbatim : Bool) (c : Cursor) : Option (List Char × Cursor) := do
  let (cs, next) := c.takeWhile (isTagChar verbatim)
  return (← tagText? cs.length cs, next)

/-- The handle at a place: `!`, `!!` or `!name!`; without the closing mark what there is of it. -/
def scanHandle? (c : Cursor) : Option (List Char × Cursor) :=
  if c.looksAt '!' then
    let (name, next) := (c.skip 1).takeWhile isNameChar
    if next.looksAt '!' then some ('!' :: name ++ ['!'], next.skip 1)
    else some ('!' :: name, next)
  else none

def scanTag? (inFlow : Bool) (c : Cursor) : Option (Token × Cursor) := do
  let (handle, suffix, next) ←
    if c.peekAt? 1 == some '<' then do
      let (text, next) ← scanTagText? true (c.skip 2)
      if text.isEmpty || !next.looksAt '>' then none
      pure ([], text, next.skip 1)
    else do
      let (handle, next) ← scanHandle? c
      if 2 ≤ handle.length && handle.getLast? == some '!' then
        let (text, next) ← scanTagText? false next
        if text.isEmpty then none
        pure (handle, text, next)
      else
        let (text, next) ← scanTagText? false next
        let suffix := handle.drop 1 ++ text
        pure (if suffix.isEmpty then ([], ['!'], next) else (['!'], suffix, next))
  if (inFlow && next.looksAt ',') || next.blankAt 0 then
    return (.tag (String.ofList handle) (String.ofList suffix), next)
  else none

def scanName? (c : Cursor) : Option (String × Cursor) :=
  let (name, next) := c.takeWhile isNameChar
  let ends := next.blankAt 0 || (next.peek?.any fun x => "?:,]\x7d%@`".toList.contains x)
  if name.isEmpty || !ends then none else some (String.ofList name, next)

def scanVersion? (c : Cursor) : Option (Token × Cursor) := do
  let (major, c) := (c.skipWhile isSpaceOrTab).takeWhile Decimal.isDigit
  if !c.looksAt '.' then none
  let (minor, c) := (c.skip 1).takeWhile Decimal.isDigit
  if major.isEmpty || minor.isEmpty || 9 < major.length || 9 < minor.length then none
  return (.version (Decimal.natOf major) (Decimal.natOf minor), c)

def scanHandleText? (c : Cursor) : Option (Token × Cursor) := do
  let (name, c) ← scanHandle? (c.skipWhile isSpaceOrTab)
  if name ≠ ['!'] && name.getLast? ≠ some '!' then none
  if !c.peek?.any isSpaceOrTab then none
  let (text, c) ← scanTagText? true (c.skipWhile isSpaceOrTab)
  if text.isEmpty || !c.blankAt 0 then none
  return (.handle (String.ofList name) (String.ofList text), c)

/-- A line of directions to the reader, from behind its percent sign. -/
def scanDirective? (c : Cursor) : Option (Token × Cursor) := do
  let (name, c) := c.takeWhile isNameChar
  if !c.blankAt 0 then none
  let (token, c) ←
    if name == "YAML".toList then scanVersion? c
    else if name == "TAG".toList then scanHandleText? c
    else none
  let c := (c.skipWhile isSpaceOrTab).skipComment
  if !c.atLineEnd then none
  return (token, (c.lineBreak?.map (·.2)).getD c)

def startsPlain (inFlow : Bool) (c : Cursor) : Bool :=
  match c.peek? with
  | none => false
  | some x =>
    !(c.blankAt 0 || "-?:,[]\x7b\x7d#&*!|>'\"%@`".toList.contains x) ||
      (x == '-' && !(c.peekAt? 1).any isSpaceOrTab) ||
      (!inFlow && (x == '?' || x == ':') && !c.blankAt 1)

/-- A dash, or a question mark in front of a key; in block context it opens a block. -/
def Layout.mark? (l : Layout) (c : Cursor) (opening : Token) : Option Layout :=
  if l.inFlow then some l
  else if l.keyAllowed then some (l.openBlock c.column l.tokens.size opening)
  else none

def Layout.colon? (l : Layout) (c : Cursor) : Option Layout :=
  match l.key with
  | some k =>
    let l := { l with tokens := l.tokens.insertIdxIfInBounds k.tokens .key, key := none }
    some ((l.openBlock k.column k.tokens .openBlockMap).allow false |>.push .value)
  | none => do
    let l ← l.mark? c .openBlockMap
    return (l.allow (!l.inFlow)).push .value

def scanToken? (c : Cursor) (l : Layout) : Option (Cursor × Layout) := do
  let one (l : Layout) : Option (Cursor × Layout) := some (c.skip 1, l)
  let scalar (isPlain allowed : Bool) (l : Layout) (r : List Char × Cursor) : Cursor × Layout :=
    (r.2, (l.allow allowed).push (.scalar isPlain (String.ofList r.1)))
  let outside (l : Layout) : Option Layout := ((l.closeBlocks (-1)).dropKey?).map (·.allow false)
  let x ← c.peek?
  if c.column == 0 && x == '%' then
    let (token, next) ← scanDirective? (c.skip 1)
    return (next, (← outside l).push token)
  if c.atDocumentMark then
    let token := if x == '-' then .documentStart else .documentEnd
    return (c.skip 3, (← outside l).push token)
  match x with
  | '[' => one ((← l.markKey? c).openFlow .openList)
  | '{' => one ((← l.markKey? c).openFlow .openMap)
  | ']' => one (← l.closeFlow? .closeList)
  | '}' => one (← l.closeFlow? .closeMap)
  | ',' => one (((← l.dropKey?).allow true).push .comma)
  | _ =>
  if x == '-' && c.blankAt 1 then
    let l ← l.mark? c .openBlockList
    return (c.skip 1, ((← l.dropKey?).allow true).push .dash)
  if x == '?' && (l.inFlow || c.blankAt 1) then
    let l ← l.mark? c .openBlockMap
    return (c.skip 1, ((← l.dropKey?).allow !l.inFlow).push .key)
  if x == ':' && (l.inFlow || c.blankAt 1) then
    return (c.skip 1, ← l.colon? c)
  if x == '*' || x == '&' then
    let l ← l.markKey? c
    let (name, next) ← scanName? (c.skip 1)
    return (next, (l.allow false).push (if x == '*' then .alias name else .anchor name))
  if x == '!' then
    let l ← l.markKey? c
    let (token, next) ← scanTag? l.inFlow c
    return (next, (l.allow false).push token)
  if (x == '|' || x == '>') && !l.inFlow then
    let l ← l.dropKey?
    let r ← scanBlock? (x == '|') l.indent (c.skip 1)
    return scalar false true l r
  if x == '\'' || x == '"' then
    let l ← l.markKey? c
    let r ← scanQuoted? (c.rest.length + 1) (x == '\'') (c.skip 1) []
    return scalar false false l r
  if startsPlain l.inFlow c then
    let l ← l.markKey? c
    let (text, next, afterBreak) ←
      scanPlain? (c.rest.length + 1) l.inFlow (l.indent + 1) c [] [] false
    return scalar true afterBreak l (text, next)
  none

def scanTokens? (fuel : Nat) (c : Cursor) (l : Layout) : Option (List Token) :=
  match fuel with
  | 0 => none
  | fuel + 1 => do
    let (c, l) := toNextToken (c.rest.length + 1) c l
    let l ← l.dropStale? c
    let l := l.closeBlocks c.column
    if c.atEnd then
      return (← (l.closeBlocks (-1)).dropKey?).tokens.toList
    let (c, l) ← scanToken? c l
    scanTokens? fuel c l

def Token.all? (text : String) : Option (List Token) :=
  let cs := text.toList
  if cs.all isAllowed then scanTokens? (cs.length + 1) (.start cs) .start else none

end TaskTags.Yaml
