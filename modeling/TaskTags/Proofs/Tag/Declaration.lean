import TaskTags.Proofs.Except
import TaskTags.Tag.Declaration

/-!
# Declarations that can be loaded

A declaration is a text or a list, and every scalar of a list is a tag. The loading fails with the
first scalar that is none, however the list is grouped.
-/

namespace TaskTags

open Yaml (Value)

namespace Tag

def isTag : Value → Bool
  | .str _ => true
  | .num (.int n) => Json.isInt64 n
  | _ => false

/-- What is wrong with a scalar that is no tag. -/
def faultOf : Value → TagFault
  | .num n => .badNumber (Yaml.Value.numberText n)
  | v => .badValue v.describe

theorem error?_ofValue (owner : String) (v : Value) :
    (ofValue owner v).error? = if isTag v then none else some (.invalidTags owner (faultOf v)) := by
  cases v with
  | num n =>
      cases n with
      | int n =>
          rw [ofValue, isTag]
          split <;> rfl
      | float x => rfl
  | null => rfl
  | bool b => rfl
  | str s => rfl
  | list items => rfl
  | map entries => rfl
  | tagged tag v => rfl

end Tag

namespace TagEntry

/-- The scalars of an item: those of a list in a list are taken one by one. -/
def itemScalars : Value → List Value
  | .list items => items
  | v => [v]

/-- The scalars of a declaration, in the order of the document. -/
def scalars : Value → List Value
  | .list items => items.flatMap itemScalars
  | _ => []

def isDeclaration : Value → Bool
  | .null | .str _ | .list _ => true
  | _ => false

/-- A declaration is nothing, a text, or a list of tags and of lists of tags. -/
inductive Loadable : Value → Prop
  | none : Loadable .null
  | text (s : String) : Loadable (.str s)
  | list {items : List Value} (item : ∀ v ∈ items,
      Tag.isTag v = true ∨ ∃ vs, v = .list vs ∧ ∀ w ∈ vs, Tag.isTag w = true) :
      Loadable (.list items)

theorem item_cases (v : Value) :
    (∃ vs, v = .list vs) ∨
      (itemScalars v = [v] ∧ ∀ owner, ofItem owner v = (Tag.ofValue owner v).map single) := by
  cases v <;> simp [itemScalars, ofItem]

theorem error?_ofItem (owner : String) (v : Value) :
    (ofItem owner v).error?
      = ((itemScalars v).find? (!Tag.isTag ·)).map fun s => .invalidTags owner (Tag.faultOf s) := by
  have hscalar : ∀ s, (Tag.ofValue owner s).error?
      = ([s].find? (!Tag.isTag ·)).map fun s => .invalidTags owner (Tag.faultOf s) := by
    intro s
    rw [Tag.error?_ofValue, List.find?_singleton]
    cases Tag.isTag s <;> rfl
  -- A list in a list stops at its first bad scalar, and any other item is one scalar.
  rcases item_cases v with ⟨vs, rfl⟩ | ⟨hscalars, hitem⟩
  · have hparts := Except.error?_mapM_of_find? fun s (_ : s ∈ vs) => hscalar s
    rw [ofItem, itemScalars, Except.error?_map, hparts, List.flatMap_singleton']
  · rw [hitem, hscalars, Except.error?_map, hscalar]

theorem error?_ofDeclaration (owner : String) (v : Value) :
    (ofDeclaration owner v).error? =
      if isDeclaration v then
        ((scalars v).find? (!Tag.isTag ·)).map fun s => .invalidTags owner (Tag.faultOf s)
      else some (.invalidTags owner .notAList) := by
  cases v with
  | list items => exact Except.error?_mapM_of_find? fun v _ => error?_ofItem owner v
  | null => rfl
  | bool b => rfl
  | num n => rfl
  | str s => rfl
  | map entries => rfl
  | tagged tag v => rfl

theorem loadable_iff (v : Value) :
    Loadable v ↔ isDeclaration v = true ∧ ∀ s ∈ scalars v, Tag.isTag s = true := by
  have hitem : ∀ v, (∀ s ∈ itemScalars v, Tag.isTag s = true) ↔
      (Tag.isTag v = true ∨ ∃ vs, v = .list vs ∧ ∀ w ∈ vs, Tag.isTag w = true) := by
    intro v
    cases v <;> simp [itemScalars, Tag.isTag]
  constructor
  · intro h
    cases h with
    | none => simp [isDeclaration, scalars]
    | text s => simp [isDeclaration, scalars]
    | list item =>
        refine ⟨rfl, fun s hs => ?_⟩
        obtain ⟨v, hv, hsv⟩ := List.mem_flatMap.mp hs
        exact (hitem v).mpr (item v hv) s hsv
  · rintro ⟨hdeclaration, htags⟩
    cases v with
    | null => exact .none
    | str s => exact .text s
    | list items =>
        refine .list fun v hv => (hitem v).mp fun s hs => ?_
        exact htags s (List.mem_flatMap.mpr ⟨v, hv, hs⟩)
    | bool b => simp [isDeclaration] at hdeclaration
    | num n => simp [isDeclaration] at hdeclaration
    | map entries => simp [isDeclaration] at hdeclaration
    | tagged tag v => simp [isDeclaration] at hdeclaration

end TagEntry
end TaskTags
