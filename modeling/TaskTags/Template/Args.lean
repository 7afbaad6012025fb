import TaskTags.Template.Operator

/-!
The arguments of filters, tests and functions, taken one after the other.
-/

namespace TaskTags.Template

/-- Taking of arguments. Named ones are the last of them. -/
abbrev Args := StateT (List Value) (Except Fault)

namespace Args

def value? : Args (Option Value) := do
  match ← get with
  | v :: rest =>
    set rest
    return some v
  | [] => return none

def value : Args Value := do
  match ← value? with
  | some v => return v
  | none => throw .missingArgument

def converted {α : Type} (convert : Value → Option α) (v : Value) : Args α := do
  if v.isUndefined then throw .undefinedValue
  match convert v with
  | some a => return a
  | none => throw .invalidOperation

/-- The next argument, if it is there and neither undefined nor none. -/
def optional {α : Type} (convert : Value → Option α) : Args (Option α) := do
  match ← value? with
  | none => return none
  | some (.undefined _) | some .none => return none
  | some v => return some (← converted convert v)

def required {α : Type} (convert : Value → Option α) : Args α := do
  converted convert (← value)

/-- The text of any value but named arguments. -/
def anyText : Value → Option String
  | .named _ => none
  | v => some v.display

def bool? : Value → Option Bool
  | .bool b => some b
  | _ => none

def text : Args String := required anyText
def text? : Args (Option String) := optional anyText

def string : Args String := required Value.asStr?

def nat : Args Nat := required Value.asNat?

/-- A number of 32 bits without sign. -/
def nat32 (v : Value) : Option Nat := v.asNat?.filter (· < Decimal.pow2 32)

def int? : Args (Option Int) := optional Value.asInt?
def flag? : Args (Option Bool) := optional bool?
def any? : Args (Option Value) := optional some

/-- The named arguments, taken from the end. -/
def named : Args (List (Value × Value)) := do
  match (← get).getLast? with
  | some (.named entries) =>
    modify List.dropLast
    return entries
  | _ => return []

def rest : Args (List Value) := do
  let vs ← get
  set ([] : List Value)
  return vs

def done : Args Unit := do
  if !(← get).isEmpty then throw .tooManyArguments

def run {α : Type} (take : Args α) (args : List Value) : Except Fault α := do
  let (a, rest) ← StateT.run take args
  if !rest.isEmpty then throw .tooManyArguments
  return a

end Args

/-- Named arguments of a call, of which all have to be known. -/
structure Options where
  entries : List (Value × Value)

namespace Options

def any? (o : Options) (name : String) : Option Value :=
  Value.lookup? o.entries (.text name)

def get? {α : Type} (o : Options) (name : String) (convert : Value → Option α) :
    Except Fault (Option α) :=
  match o.any? name with
  | none | some (.undefined _) | some .none => .ok none
  | some v =>
    match convert v with
    | some a => .ok (some a)
    | none => .error .invalidOperation

def flag (o : Options) (name : String) : Except Fault Bool := do
  return (← o.get? name Args.bool?).getD false

def allIn (o : Options) (names : List String) : Except Fault Unit :=
  if o.entries.all fun (k, _) => k.asStr?.all names.contains then .ok () else .error .tooManyArguments

end Options
end TaskTags.Template
