/-!
The flags of a command line, and the reading of one argument as flags.
-/

namespace TaskTags.CommandLine

inductive Flag where
  | tags
  | skipTags
  | extraVars
  | verbose
  | diff
  | noInherit
  | output
  | config
  | noColor
  | showSkipped
  | help
  | version
deriving DecidableEq, Inhabited

namespace Flag

def long : Flag → String
  | .tags => "tags"
  | .skipTags => "skip-tags"
  | .extraVars => "extra-vars"
  | .verbose => "verbose"
  | .diff => "diff"
  | .noInherit => "no-inherit"
  | .output => "output"
  | .config => "config"
  | .noColor => "no-color"
  | .showSkipped => "show-skipped"
  | .help => "help"
  | .version => "version"

def short? : Flag → Option Char
  | .tags => some 't'
  | .extraVars => some 'e'
  | .verbose => some 'v'
  | .config => some 'c'
  | .help => some 'h'
  | .version => some 'V'
  | _ => none

def takesValue : Flag → Bool
  | .tags | .skipTags | .extraVars | .output | .config => true
  | _ => false

def repeats : Flag → Bool
  | .tags | .skipTags | .extraVars | .verbose => true
  | _ => false

def shared : List Flag :=
  [.tags, .skipTags, .extraVars, .verbose, .diff, .noInherit, .output, .config, .noColor, .help,
    .version]

def accepts : Flag → String → Bool
  | .output, value => value = "human" || value = "json"
  | .config, value => value ≠ ""
  | _, _ => true

end Flag

/-- Why a command line leads to no command. -/
inductive Stop where
  | misuse
  | help
  /-- The name of the command whose version is asked for. -/
  | version (command : Option String)
deriving DecidableEq, Inhabited

/-- Flags with their values, in order; a flag without value has an empty one. -/
abbrev Given := List (Flag × String)

namespace Given

def values (given : Given) (flag : Flag) : List String :=
  (given.filter (·.1 = flag)).map (·.2)

def has (given : Given) (flag : Flag) : Bool :=
  given.any (·.1 = flag)

/-- Adds a flag. Help and version end the reading where they stand. -/
def add (given : Given) (command : Option String) (flag : Flag) (value : String) :
    Except Stop Given :=
  match flag with
  | .help => .error .help
  | .version => .error (.version command)
  | _ =>
    if (given.has flag && !flag.repeats) || !flag.accepts value then .error .misuse
    else .ok (given ++ [(flag, value)])

/-- The values of an inner command line, or without any those of the outer one. -/
def innermost (outer inner : Given) (flag : Flag) : List String :=
  if inner.has flag then inner.values flag else outer.values flag

end Given

/-- The flags that a command line may have, and the name of the command that it is for. -/
structure Grammar where
  flags : List Flag
  command : Option String

namespace Grammar

/-- Reads the characters of a group of short flags. A flag that takes a value takes the rest of the
group; if there is none, the value is still to come. -/
def short (g : Grammar) (given : Given) : List Char → Except Stop (Given × Option Flag)
  | [] => .ok (given, none)
  | c :: rest =>
    match g.flags.find? (·.short? = some c) with
    | none => .error .misuse
    | some flag =>
      if flag.takesValue then
        match rest with
        | [] => .ok (given, some flag)
        | '=' :: value => (given.add g.command flag (String.ofList value)).map (·, none)
        | value => (given.add g.command flag (String.ofList value)).map (·, none)
      else do
        let given ← given.add g.command flag ""
        g.short given rest

/-- Reads a long flag, with its value behind `=` or still to come. -/
def long (g : Grammar) (given : Given) (cs : List Char) : Except Stop (Given × Option Flag) :=
  match g.flags.find? (·.long.toList = cs.takeWhile (· ≠ '=')), cs.dropWhile (· ≠ '=') with
  | none, _ => .error .misuse
  | some flag, [] =>
    if flag.takesValue then .ok (given, some flag)
    else (given.add g.command flag "").map (·, none)
  | some flag, _ :: value =>
    if flag.takesValue then (given.add g.command flag (String.ofList value)).map (·, none)
    else .error .misuse

end Grammar

/-- What an argument is by its first characters. -/
inductive Shape where
  /-- The end of all flags. -/
  | endOfFlags
  | long (text : List Char)
  | short (text : List Char)
  | plain
deriving DecidableEq, Inhabited

def Shape.of (arg : String) : Shape :=
  match arg.toList with
  | ['-', '-'] => .endOfFlags
  | '-' :: '-' :: text => .long text
  | '-' :: c :: text => .short (c :: text)
  | _ => .plain

end TaskTags.CommandLine
