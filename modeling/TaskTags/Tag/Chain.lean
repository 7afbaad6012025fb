import TaskTags.Tag.Filter
import TaskTags.Tag.Templater

/-!
The scopes around a unit of work: its play, its blocks and the unit itself. Resolving replaces the
declared tags of every scope by what they stand for, from the innermost scope outwards; the first
failure stops it, and what is resolved by then stays so.
-/

namespace TaskTags

inductive ScopeKind where
  | play
  | block
  | task
deriving DecidableEq, Inhabited

namespace ScopeKind

def name : ScopeKind → String
  | play => "play"
  | block => "block"
  | task => "task"

def ofName? : String → Option ScopeKind
  | "play" => some play
  | "block" => some block
  | "task" => some task
  | _ => none

end ScopeKind

structure TagScope where
  kind : ScopeKind
  name : String
  tags : List TagEntry
deriving DecidableEq, Inhabited

namespace TagScope

def hasTags (s : TagScope) : Bool := !s.tags.isEmpty

def tagSet (s : TagScope) : TagSet := TagEntry.flatten s.tags

end TagScope

/-- Scopes, the innermost one first. -/
abbrev TagChain := List TagScope

namespace TagChain

def ownTags : TagChain → TagSet
  | [] => ∅
  | s :: _ => s.tagSet

def allTags (chain : TagChain) : TagSet :=
  TagEntry.flatten (chain.flatMap TagScope.tags)

/-- Resolves the tags of all scopes that have some. -/
def resolve (template : List TagEntry → Except Error (List TagEntry)) :
    TagChain → TagChain × Except Error Unit
  | [] => ([], .ok ())
  | s :: rest =>
    if s.hasTags then
      match template s.tags with
      | .error e => (s :: rest, .error e)
      | .ok entries =>
        let (rest, result) := resolve template rest
        ({ s with tags := TagEntry.ofSet (TagEntry.flatten entries) } :: rest, result)
    else
      let (rest, result) := resolve template rest
      (s :: rest, result)

/-- Whether the innermost unit runs by its own tags. All scopes are resolved if it has some. -/
def decideOwn (template : List TagEntry → Except Error (List TagEntry)) (filter : TagFilter)
    (chain : TagChain) : TagChain × Except Error Bool :=
  let (chain, result) :=
    if chain.head?.any TagScope.hasTags then resolve template chain else (chain, .ok ())
  (chain, result.map fun _ => filter.runs (ownTags chain))

/-- Whether the innermost unit runs by the tags of all scopes. -/
def decideAll (template : List TagEntry → Except Error (List TagEntry)) (filter : TagFilter)
    (chain : TagChain) : TagChain × Except Error Bool :=
  let (chain, result) := resolve template chain
  (chain, result.map fun _ => filter.runs (allTags chain))

end TagChain
end TaskTags
