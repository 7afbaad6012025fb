import TaskTags.Error
import TaskTags.Tag.Entry
import TaskTags.Template.Render

/-!
Templates in tag declarations. A tag that is one expression stands for the value of the expression:
a list for several tags, none for no tag, an integer for an integer. In any other tag the template
is rendered to text.
-/

namespace TaskTags

/-- Resolves the entries of a declaration under variables. -/
abbrev Templater := Bindings → List TagEntry → Except Error (List TagEntry)

namespace Templater

def hasMark : List Char → Bool
  | '{' :: c :: rest => c == '{' || c == '%' || c == '#' || hasMark (c :: rest)
  | _ :: rest => hasMark rest
  | [] => false

/-- Whether a text contains template marks. -/
def hasTemplate (s : String) : Bool := hasMark s.toList

def containsPair (c : Char) : List Char → Bool
  | x :: y :: rest => (x == c && y == c) || containsPair c (y :: rest)
  | _ => false

/-- The expression of a text that is one expression block. -/
def soleExpression? (s : String) : Option String :=
  match Text.trimChars s.toList with
  | '{' :: '{' :: rest =>
    match rest.reverse with
    | '}' :: '}' :: inner =>
      if containsPair '{' inner || containsPair '}' inner then none
      else some (Text.trim (String.ofList inner.reverse))
    | _ => none
  | _ => none

end Templater

namespace Tag

open Template (Value Fault)

/-- The tag of a value. Truth values and numbers that are no integers of 64 bits are texts. -/
def ofTemplateValue : Value → Except Fault Tag
  | .undefined _ => .error .undefinedValue
  | .str s _ => .ok (.str s)
  | .int n => .ok (if Json.isInt64 n then .int n else .str (Decimal.intText n))
  | .float x =>
    .ok (match Value.integerOf? x with
      | some n => .int n
      | none => .str (Value.float x).display)
  | .bool b => .ok (.str (if b then "true" else "false"))
  | v => .error (.unsupported v.display)

/-- The entry of a value: none for none, a list for a list, else one tag. -/
def entryOfTemplateValue : Value → Except Fault TagEntry
  | .none => .ok (.list [])
  | .list _ items => .list <$> items.mapM ofTemplateValue
  | v => .single <$> ofTemplateValue v

def resolveText (vars : Bindings) (s : String) : Except Fault TagEntry :=
  match Templater.soleExpression? s with
  | some e => do entryOfTemplateValue (← Template.evaluate e vars)
  | none => do return .single (.str (← Template.render s vars))

/-- The entry that a tag stands for: itself, unless it contains a template. -/
def resolve (vars : Bindings) (tag : Tag) : Except Error TagEntry :=
  match tag with
  | .int n => .ok (.single (.int n))
  | .str s =>
    if Templater.hasTemplate s then (resolveText vars s).mapError (Error.template s)
    else .ok (.single (.str s))

end Tag

/-- The entry that an entry stands for. In a list, tags that stand for lists are replaced by their
items. -/
def TagEntry.resolve (vars : Bindings) : TagEntry → Except Error TagEntry
  | .single tag => tag.resolve vars
  | .list tags => do
    return .list ((← tags.mapM (Tag.resolve vars)).flatMap TagEntry.tags)

namespace Templater

/-- Templates are texts like others. -/
def off : Templater := fun _ entries => .ok entries

def on : Templater := fun vars entries => entries.mapM (TagEntry.resolve vars)

end Templater
end TaskTags
