import TaskTags.Playbook.Basic
import TaskTags.Tag.Chain

/-!
The tasks of a playbook that run under a filter. Every play is walked through in order with the
chain of scopes around each task; handlers are resolved but always selected.
-/

namespace TaskTags

structure TaskSelection where
  name : String
  action : Option String
  «section» : Section
  /-- The names of the blocks around the task, the outermost one first. -/
  blocks : List String
  /-- The tags that the decision rests on. -/
  tags : TagSet
  selected : Bool
deriving Inhabited

structure PlaySelection where
  name : String
  tags : TagSet
  tasks : List TaskSelection
deriving Inhabited

namespace PlaySelection

def selected (p : PlaySelection) : List TaskSelection := p.tasks.filter (·.selected)

def skipped (p : PlaySelection) : List TaskSelection := p.tasks.filter (!·.selected)

end PlaySelection

/-- What a selection depends on besides the playbook. -/
structure SelectionRules where
  filter : TagFilter
  templater : Templater
  extraVars : Bindings
  /-- Whether the tags of plays and blocks belong to their tasks. -/
  inherit : Bool

namespace SelectionRules

def hiddenVars : List String := ["tags", "when"]

/-- The variables of scopes, each over those in front of it, with the hidden ones left out. -/
def layer (scopes : List Bindings) : Bindings :=
  (Bindings.merge [] scopes.flatten).filter fun (n, _) =>
    !hiddenVars.contains n

end SelectionRules

/-- The state of a walk: the chain, the variables of its scopes from the innermost one on, and the
tasks so far. -/
structure Walk where
  chain : TagChain
  vars : List Bindings
  blocks : List String
  tasks : List TaskSelection

namespace Walk

def «open» (w : Walk) (kind : ScopeKind) (d : Declared) : Walk :=
  { w with chain := ⟨kind, d.name, d.tags⟩ :: w.chain, vars := d.vars :: w.vars }

def close (w : Walk) : Walk :=
  { w with chain := w.chain.tail, vars := w.vars.tail }

def templateVars (rules : SelectionRules) (w : Walk) : Bindings :=
  SelectionRules.layer (w.vars.reverse ++ [rules.extraVars])

def task (rules : SelectionRules) (s : Section) (d : Declared) (action : Option String) (w : Walk) :
    Except Error Walk :=
  let w := w.open .task d
  let template := rules.templater (w.templateVars rules)
  let (chain, result) :=
    if s = .handlers then
      let (chain, result) := w.chain.resolve template
      (chain, result.map fun _ => true)
    else if rules.inherit then w.chain.decideAll template rules.filter
    else w.chain.decideOwn template rules.filter
  match result with
  | .error e => .error e
  | .ok selected =>
    let tags := if rules.inherit then chain.allTags else chain.ownTags
    .ok { ({ w with chain }).close with
      tasks := w.tasks ++ [⟨d.name, action, s, w.blocks, tags, selected⟩] }

end Walk

mutual
def TaskNode.walk (rules : SelectionRules) (s : Section) : TaskNode → Walk → Except Error Walk
  | .task d action, w => w.task rules s d action
  | .block d body rescue always, w => do
    let inner := w.open .block d
    let inner := { inner with blocks := inner.blocks ++ [d.name] }
    let inner ← TaskNode.walkAll rules s body inner
    let inner ← TaskNode.walkAll rules s rescue inner
    let inner ← TaskNode.walkAll rules s always inner
    return { inner.close with blocks := w.blocks }

def TaskNode.walkAll (rules : SelectionRules) (s : Section) :
    List TaskNode → Walk → Except Error Walk
  | [], w => .ok w
  | node :: rest, w => do TaskNode.walkAll rules s rest (← node.walk rules s w)
end

/-- The tasks of a play with the decisions on them. The tags of the play are those that its scope
has after the last task. -/
def Play.select (rules : SelectionRules) (play : Play) : Except Error PlaySelection := do
  let d := play.declared
  let start : Walk := ⟨[⟨.play, d.name, d.tags⟩], [d.vars], [], []⟩
  let w ← Section.all.foldlM (fun w s => TaskNode.walkAll rules s (play.nodes s) w) start
  return ⟨d.name, w.chain.ownTags, w.tasks⟩

def Playbook.select (rules : SelectionRules) (playbook : Playbook) :
    Except Error (List PlaySelection) :=
  playbook.mapM (Play.select rules)

end TaskTags
