/-!
A place in a YAML text, and the classes of characters that the text's structure rests on.
-/

namespace TaskTags.Yaml

def isBreak (c : Char) : Bool :=
  c == '\n' || c == '\r' || c.toNat == 0x85 || c.toNat == 0x2028 || c.toNat == 0x2029

def isSpaceOrTab (c : Char) : Bool :=
  c == ' ' || c == '\t'

/-- Letters, digits, `_` and `-`, of which names consist. -/
def isNameChar (c : Char) : Bool :=
  ('0' ≤ c && c ≤ '9') || ('a' ≤ c && c ≤ 'z') || ('A' ≤ c && c ≤ 'Z') || c == '_' || c == '-'

/-- The characters that a text may contain. -/
def isAllowed (c : Char) : Bool :=
  let n := c.toNat
  n == 9 || n == 0xA || n == 0xD || (0x20 ≤ n && n ≤ 0x7E) || n == 0x85 ||
    (0xA0 ≤ n && n ≤ 0xD7FF) || (0xE000 ≤ n && n ≤ 0xFFFD) || 0x10000 ≤ n

def byteOrderMark : Char := Char.ofNat 0xFEFF

structure Cursor where
  rest : List Char
  index : Nat
  line : Nat
  column : Nat
deriving Inhabited

namespace Cursor

def start (text : List Char) : Cursor := ⟨text, 0, 0, 0⟩

def peek? (c : Cursor) : Option Char := c.rest.head?

def peekAt? (c : Cursor) (n : Nat) : Option Char := c.rest[n]?

/-- Goes on by characters that are no line breaks. -/
def skip (c : Cursor) (n : Nat) : Cursor :=
  ⟨c.rest.drop n, c.index + n, c.line, c.column + n⟩

/-- The characters in front of the first one that fails a test, and the place behind them. -/
def takeWhile (c : Cursor) (p : Char → Bool) : List Char × Cursor :=
  let taken := c.rest.takeWhile p
  (taken, c.skip taken.length)

def skipWhile (c : Cursor) (p : Char → Bool) : Cursor :=
  (c.takeWhile p).2

/-- The line break at a place, as the text that it stands for, and the place behind it. -/
def lineBreak? (c : Cursor) : Option (List Char × Cursor) :=
  match c.rest with
  | '\r' :: '\n' :: rest => some (['\n'], ⟨rest, c.index + 2, c.line + 1, 0⟩)
  | x :: rest =>
    if x.toNat == 0x2028 || x.toNat == 0x2029 then some ([x], ⟨rest, c.index + 1, c.line + 1, 0⟩)
    else if isBreak x then some (['\n'], ⟨rest, c.index + 1, c.line + 1, 0⟩)
    else none
  | [] => none

def atEnd (c : Cursor) : Bool := c.rest.isEmpty

def looksAt (c : Cursor) (x : Char) : Bool := c.peek? == some x

/-- Whether a blank, a line break or the end stands some characters ahead. -/
def blankAt (c : Cursor) (n : Nat) : Bool :=
  match c.peekAt? n with
  | none => true
  | some x => isSpaceOrTab x || isBreak x

def breakAt (c : Cursor) (n : Nat) : Bool :=
  match c.peekAt? n with
  | none => false
  | some x => isBreak x

def atLineEnd (c : Cursor) : Bool :=
  match c.peek? with
  | none => true
  | some x => isBreak x

def startsWith (c : Cursor) (word : List Char) : Bool :=
  word.isPrefixOf c.rest

/-- Whether a line starts here with one of the marks between documents. -/
def atDocumentMark (c : Cursor) : Bool :=
  c.column == 0 && (c.startsWith ['-', '-', '-'] || c.startsWith ['.', '.', '.']) && c.blankAt 3

def skipComment (c : Cursor) : Cursor :=
  if c.looksAt '#' then c.skipWhile fun x => !isBreak x else c

end Cursor
end TaskTags.Yaml
