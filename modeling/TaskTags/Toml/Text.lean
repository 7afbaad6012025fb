import TaskTags.Decimal.Digits

/-!
The characters and the strings of TOML.
-/

namespace TaskTags.Toml

def isSpace (c : Char) : Bool :=
  c == ' ' || c == '\t'

/-- All but control characters; a tab is none. -/
def isPrinting (c : Char) : Bool :=
  c == '\t' || (0x20 ≤ c.toNat && c.toNat ≠ 0x7F)

def isKeyChar (c : Char) : Bool :=
  Decimal.isDigit c || ('a' ≤ c && c ≤ 'z') || ('A' ≤ c && c ≤ 'Z') || c == '_' || c == '-'

def shortEscape? : Char → Option Char
  | 'b' => some (Char.ofNat 8)
  | 't' => some '\t'
  | 'n' => some '\n'
  | 'f' => some (Char.ofNat 12)
  | 'r' => some '\r'
  | '"' => some '"'
  | '\\' => some '\\'
  | _ => none

def codePoint? (ds : List Char) : Option Char := do
  let values ← ds.mapM Decimal.hexValue?
  let n := values.foldl (fun n d => n * 16 + d) 0
  if n.isValidChar then some (Char.ofNat n) else none

def startsLine : List Char → Bool
  | '\n' :: _ | '\r' :: '\n' :: _ => true
  | _ => false

def quoted? : List Char → Option (List Char × List Char)
  | [] => none
  | '"' :: rest => some ([], rest)
  | '\\' :: 'u' :: a :: b :: c :: d :: rest => do
    let x ← codePoint? [a, b, c, d]
    let (cs, rest) ← quoted? rest
    return (x :: cs, rest)
  | '\\' :: 'U' :: a :: b :: c :: d :: e :: f :: g :: h :: rest => do
    let x ← codePoint? [a, b, c, d, e, f, g, h]
    let (cs, rest) ← quoted? rest
    return (x :: cs, rest)
  | '\\' :: c :: rest => do
    let x ← shortEscape? c
    let (cs, rest) ← quoted? rest
    return (x :: cs, rest)
  | c :: rest =>
    if isPrinting c && c ≠ '\\' then (quoted? rest).map fun (cs, r) => (c :: cs, r) else none

def literal? (cs : List Char) : Option (List Char × List Char) :=
  let body := cs.takeWhile fun c => isPrinting c && c ≠ '\''
  match cs.drop body.length with
  | '\'' :: rest => some (body, rest)
  | _ => none

/-- Up to two quotes at the end of a string of lines belong to it, in front of the three that
close it. -/
def closing (quote : Char) : List Char → List Char × List Char
  | a :: b :: rest =>
    if a = quote then
      if b = quote then ([quote, quote], rest) else ([quote], b :: rest)
    else ([], a :: b :: rest)
  | [a] => if a = quote then ([quote], []) else ([], [a])
  | [] => ([], [])

/-- The characters of several lines up to three double quotes, and what follows them. A backslash
at the end of a line skips blanks and line ends. -/
def quotedLines? : Bool → List Char → Option (List Char × List Char)
  | _, [] => none
  | _, '"' :: '"' :: '"' :: rest => some (closing '"' rest)
  | skips, '\r' :: '\n' :: rest =>
    if skips then quotedLines? true rest
    else (quotedLines? false rest).map fun (cs, r) => ('\n' :: cs, r)
  | _, '\\' :: 'u' :: a :: b :: c :: d :: rest => do
    let x ← codePoint? [a, b, c, d]
    let (cs, rest) ← quotedLines? false rest
    return (x :: cs, rest)
  | _, '\\' :: 'U' :: a :: b :: c :: d :: e :: f :: g :: h :: rest => do
    let x ← codePoint? [a, b, c, d, e, f, g, h]
    let (cs, rest) ← quotedLines? false rest
    return (x :: cs, rest)
  | _, '\\' :: c :: rest =>
    if startsLine ((c :: rest).dropWhile isSpace) then
      quotedLines? true (c :: rest)
    else do
      let x ← shortEscape? c
      let (cs, rest) ← quotedLines? false rest
      return (x :: cs, rest)
  | skips, c :: rest =>
    if skips && (isSpace c || c = '\n') then quotedLines? true rest
    else if c = '\n' || (isPrinting c && c ≠ '\\') then
      (quotedLines? false rest).map fun (cs, r) => (c :: cs, r)
    else none

def literalLines? : List Char → Option (List Char × List Char)
  | [] => none
  | '\'' :: '\'' :: '\'' :: rest => some (closing '\'' rest)
  | '\r' :: '\n' :: rest => (literalLines? rest).map fun (cs, r) => ('\n' :: cs, r)
  | c :: rest =>
    if c = '\n' || isPrinting c then (literalLines? rest).map fun (cs, r) => (c :: cs, r) else none

/-- A line end directly behind the quotes that open a string of lines is no part of it. -/
def afterLineEnd : List Char → List Char
  | '\n' :: rest => rest
  | '\r' :: '\n' :: rest => rest
  | rest => rest

def string? : List Char → Option (String × List Char)
  | '"' :: '"' :: '"' :: rest =>
    (quotedLines? false (afterLineEnd rest)).map fun (cs, r) => (String.ofList cs, r)
  | '\'' :: '\'' :: '\'' :: rest =>
    (literalLines? (afterLineEnd rest)).map fun (cs, r) => (String.ofList cs, r)
  | '"' :: rest => (quoted? rest).map fun (cs, r) => (String.ofList cs, r)
  | '\'' :: rest => (literal? rest).map fun (cs, r) => (String.ofList cs, r)
  | _ => none

end TaskTags.Toml
