import TaskTags.Toml.Scalar
import TaskTags.Toml.Text

/-!
The lines of a TOML document: headers, and keys with their values.
-/

namespace TaskTags.Toml

inductive Line where
  | header (key : Key)
  | itemHeader (key : Key)
  | assign (key : Key) (value : Value)
deriving Inhabited

abbrev Read := StateT (List Char) Option

namespace Read

def peek? : Read (Option Char) := return (← get).head?

def skipSpaces : Read Unit := modify fun cs => cs.dropWhile isSpace

def take (c : Char) : Read Bool := do
  match ← get with
  | x :: rest =>
    if x = c then
      set rest
      return true
    return false
  | [] => return false

def expect (c : Char) : Read Unit := do
  unless ← take c do failure

def afterFiller? : Bool → List Char → Option (List Char)
  | _, [] => some []
  | _, '\r' :: '\n' :: rest => afterFiller? false rest
  | inComment, c :: rest =>
    if c = '\n' then afterFiller? false rest
    else if inComment then
      if isPrinting c then afterFiller? true rest else none
    else if c = '#' then afterFiller? true rest
    else if isSpace c then afterFiller? false rest
    else some (c :: rest)

def skipFiller : Read Unit := do
  match afterFiller? false (← get) with
  | some rest => set rest
  | none => failure

def endLine : Read Unit := do
  skipSpaces
  let rest ← get
  unless rest.isEmpty || rest.head? = some '#' || startsLine rest do failure

def string : Read String := fun cs => string? cs

def keyPart : Read String := do
  let cs ← get
  if ['"', '"', '"'].isPrefixOf cs || ['\'', '\'', '\''].isPrefixOf cs then failure
  match cs.head? with
  | some '"' | some '\'' => string
  | _ =>
    let name := cs.takeWhile isKeyChar
    if name.isEmpty then failure
    set (cs.drop name.length)
    return String.ofList name

/-- One more than the greatest number of the parts of a key, and of the brackets around a value. -/
def maxDepth : Nat := 80

def keyParts : Nat → Read (List String)
  | 0 => failure
  | limit + 1 => do
    skipSpaces
    let part ← keyPart
    skipSpaces
    if ← take '.' then
      return part :: (← keyParts limit)
    return [part]

def key : Read Key := do
  let parts ← keyParts (maxDepth - 1)
  return ⟨parts.dropLast, parts.getLastD ""⟩

def isScalarChar (c : Char) : Bool :=
  isKeyChar c || c = '+' || c = '.' || c = ':'

/-- Whether a time of day follows a date after a space. -/
def continuesDate (word rest : List Char) : Bool :=
  isDate word &&
    match rest with
    | ' ' :: a :: b :: ':' :: _ => areDigits [a, b]
    | _ => false

def scalar : Read Value := do
  let cs ← get
  let word := cs.takeWhile isScalarChar
  let rest := cs.drop word.length
  let time := if continuesDate word rest then ' ' :: (rest.drop 1).takeWhile isScalarChar else []
  set (rest.drop time.length)
  StateT.lift (scalar? (word ++ time))

mutual
/-- A value in at most `depth` more brackets; `fuel` bounds the steps. -/
def value : Nat → Nat → Read Value
  | 0, _ => failure
  | fuel + 1, depth => do
    match ← peek? with
    | some '"' | some '\'' => return .str (← string)
    | some '[' =>
      expect '['
      match depth with
      | 0 => failure
      | depth + 1 =>
        skipFiller
        return .array (← items fuel depth)
    | some '\x7b' =>
      expect '\x7b'
      match depth with
      | 0 => failure
      | depth + 1 =>
        skipSpaces
        if ← take '\x7d' then return .table .braced []
        return .table .braced (← members fuel depth [])
    | _ => scalar

def items : Nat → Nat → Read (List Value)
  | 0, _ => failure
  | fuel + 1, depth => do
    if ← take ']' then return []
    let item ← value fuel depth
    skipFiller
    if ← take ',' then
      skipFiller
      return item :: (← items fuel depth)
    expect ']'
    return [item]

def members : Nat → Nat → Entries → Read Entries
  | 0, _, _ => failure
  | fuel + 1, depth, entries => do
    let key ← key
    expect '='
    skipSpaces
    let v ← value fuel depth
    let entries ← StateT.lift (entries.assign? key.name v key.path)
    skipSpaces
    if ← take ',' then members fuel depth entries
    else
      expect '\x7d'
      return entries
end

/-- Of two steps one takes a character. -/
def wholeValue : Read Value := do
  value (2 * (← get).length + 2) (maxDepth - 1)

def line : Read Line := do
  if ← take '[' then
    if ← take '[' then
      let key ← key
      expect ']'
      expect ']'
      endLine
      return .itemHeader key
    let key ← key
    expect ']'
    endLine
    return .header key
  let key ← key
  expect '='
  skipSpaces
  let v ← wholeValue
  endLine
  return .assign key v

def lines : Nat → Read (List Line)
  | 0 => failure
  | fuel + 1 => do
    skipFiller
    if (← get).isEmpty then return []
    let first ← line
    return first :: (← lines fuel)

end Read

def Line.all? (text : String) : Option (List Line) :=
  let cs := text.toList
  let cs := if cs.head? = some (Char.ofNat 0xFEFF) then cs.drop 1 else cs
  ((Read.lines (cs.length + 1)).run cs).map (·.1)

end TaskTags.Toml
