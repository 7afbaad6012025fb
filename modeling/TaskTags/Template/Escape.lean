import TaskTags.Template.Value

/-!
Escaping of values for the format of the text that they stand in.
-/

namespace TaskTags.Template

inductive Escape where
  | none
  | html
  | json
deriving DecidableEq, Inhabited

namespace Escape

def htmlChar : Char → List Char
  | '<' => "&lt;".toList
  | '>' => "&gt;".toList
  | '&' => "&amp;".toList
  | '"' => "&quot;".toList
  | '\'' => "&#x27;".toList
  | '/' => "&#x2f;".toList
  | c => [c]

/-- JSON text that may stand in HTML. -/
def jsonChar : Char → List Char
  | '<' => "\\u003c".toList
  | '>' => "\\u003e".toList
  | '&' => "\\u0026".toList
  | '\'' => "\\u0027".toList
  | c => [c]

def jsonText (cs : List Char) : String :=
  String.ofList (cs.flatMap jsonChar)

def write (e : Escape) (v : Value) : Except Fault String :=
  match e, v with
  | _, .str s true => .ok s
  | .none, v => .ok v.display
  | .html, .undefined _ | .html, .none | .html, .bool _ | .html, .int _ | .html, .float _ =>
    .ok v.display
  | .html, v => .ok (String.ofList (v.display.toList.flatMap htmlChar))
  | .json, v =>
    match v.toJson? with
    | some j => .ok (jsonText j.compactChars)
    | Option.none => .error .badSerialization

end Escape
end TaskTags.Template
