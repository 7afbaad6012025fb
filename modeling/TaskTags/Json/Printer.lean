import TaskTags.Json.Basic

/-!
JSON text, compact or on indented lines.
-/

namespace TaskTags.Json

/-- Floating point numbers in JSON text: without exponent from 1e-5 up to 1e16. -/
def floatStyle : Decimal.Style where
  positionalFrom := -5
  positionalTo := 15
  exponentSign := ['+']
  infinity := "null"
  negInfinity := "null"
  nan := "null"

def Number.text : Number → String
  | .int n => Decimal.intText n
  | .float x => floatStyle.write x

def hexDigit (n : Nat) : Char :=
  Nat.digitChar n

def escapeChar (c : Char) : List Char :=
  if c = '"' then ['\\', '"']
  else if c = '\\' then ['\\', '\\']
  else if c.toNat = 8 then ['\\', 'b']
  else if c.toNat = 9 then ['\\', 't']
  else if c.toNat = 10 then ['\\', 'n']
  else if c.toNat = 12 then ['\\', 'f']
  else if c.toNat = 13 then ['\\', 'r']
  else if c.toNat < 32 then
    ['\\', 'u', '0', '0', hexDigit (c.toNat / 16), hexDigit (c.toNat % 16)]
  else [c]

def quoteChars (cs : List Char) : List Char :=
  '"' :: (cs.flatMap escapeChar ++ ['"'])

def quote (s : String) : List Char :=
  quoteChars s.toList

mutual
def compactChars : Json → List Char
  | .null => "null".toList
  | .bool b => (if b then "true" else "false").toList
  | .num n => n.text.toList
  | .str s => quote s
  | .arr items => '[' :: (compactItems items ++ [']'])
  | .obj fields => '{' :: (compactFields fields ++ ['}'])

def compactItems : List Json → List Char
  | [] => []
  | [v] => compactChars v
  | v :: w :: rest => compactChars v ++ ',' :: compactItems (w :: rest)

def compactFields : List (String × Json) → List Char
  | [] => []
  | [(k, v)] => quote k ++ ':' :: compactChars v
  | (k, v) :: f :: rest => quote k ++ ':' :: (compactChars v ++ ',' :: compactFields (f :: rest))
end

def newline (width depth : Nat) : List Char :=
  '\n' :: List.replicate (width * depth) ' '

mutual
/-- The text on lines, with `width` blanks for each level of nesting; empty arrays and objects stay
on one. -/
def prettyChars (width depth : Nat) : Json → List Char
  | .null => "null".toList
  | .bool b => (if b then "true" else "false").toList
  | .num n => n.text.toList
  | .str s => quote s
  | .arr [] => ['[', ']']
  | .arr (v :: rest) =>
    '[' :: (newline width (depth + 1) ++ prettyChars width (depth + 1) v ++
      prettyItems width (depth + 1) rest ++ newline width depth ++ [']'])
  | .obj [] => ['{', '}']
  | .obj ((k, v) :: rest) =>
    '{' :: (newline width (depth + 1) ++ quote k ++ ':' :: ' ' :: prettyChars width (depth + 1) v ++
      prettyFields width (depth + 1) rest ++ newline width depth ++ ['}'])

def prettyItems (width depth : Nat) : List Json → List Char
  | [] => []
  | v :: rest =>
    ',' :: (newline width depth ++ prettyChars width depth v ++ prettyItems width depth rest)

def prettyFields (width depth : Nat) : List (String × Json) → List Char
  | [] => []
  | (k, v) :: rest =>
    ',' :: (newline width depth ++ quote k ++ ':' :: ' ' :: prettyChars width depth v ++
      prettyFields width depth rest)
end

def compact (v : Json) : String :=
  String.ofList v.compactChars

/-- The text on lines, two blanks for each level of nesting. -/
def pretty (v : Json) : String :=
  String.ofList (v.prettyChars 2 0)

end TaskTags.Json
