import TaskTags.Playbook.Load
import TaskTags.Proofs.Tag.Declaration
import TaskTags.Proofs.Yaml.JsonKeys

/-!
# The places of a document

What is checked of a document is a list of places in a fixed order: plays in sequence, in each its
declarations and then its parts, depth first. Reading a playbook fails with the error of the first
place that does not fit.
-/

namespace TaskTags

open Yaml (Value)

/-- A place of a document: what is found there, and the owner that an error names. -/
inductive Place where
  | plays (v : Value)
  | play (number : Nat) (v : Value)
  | tags (owner : String) (v : Value)
  | tag (owner : String) (v : Value)
  | vars (owner : String) (v : Value)
  | tasks (owner : String) (v : Value)
  | task (owner : String) (v : Value)

namespace Place

def isNullOrList : Value → Bool
  | .null | .list _ => true
  | _ => false

def fits : Place → Bool
  | plays v | tasks _ v => isNullOrList v
  | play _ v | task _ v => v.asMap?.isSome
  | tags _ v => TagEntry.isDeclaration v
  | tag _ v => Tag.isTag v
  | vars _ .null => true
  | vars _ (.map entries) => Value.entriesFitJson entries
  | vars _ _ => false

/-- The error of a place that does not fit. -/
def error : Place → Error
  | plays _ => .playbook .notAList
  | play number _ => .playbook (.playNotMapping number)
  | tags owner _ => .invalidTags owner .notAList
  | tag owner v => .invalidTags owner (Tag.faultOf v)
  | vars _ (.map _) => .json
  | vars owner _ => .playbook (.varsNotMapping owner)
  | tasks owner _ => .playbook (.tasksNotList owner)
  | task owner _ => .playbook (.taskNotMapping owner)

def firstError? (places : List Place) : Option Error :=
  (places.find? (!·.fits)).map error

end Place

def Declared.places (owner : String) (entries : List (Value × Value)) : List Place :=
  .tags owner (fieldOf entries "tags") ::
    (TagEntry.scalars (fieldOf entries "tags")).map (.tag owner) ++
    [.vars owner (fieldOf entries "vars")]

namespace TaskNode

/-- The name of a task or block, which its declarations and parts name in errors. -/
def nameOf (entries : List (Value × Value)) : String :=
  let given := (fieldOf entries "name").asStr?
  if hasKey entries "block" then given.getD "block"
  else (given <|> Task.actionOf entries).getD "Unnamed task"

mutual
/-- The places of a task: the task itself, its declarations, and the parts of a block in turn. -/
def places (owner : String) (v : Value) : List Place :=
  .task owner v ::
    match _h : v.asMap? with
    | none => []
    | some entries =>
      Declared.places (nameOf entries) entries ++
        if hasKey entries "block" then
          placesOfList (nameOf entries) (fieldOf entries "block") ++
            placesOfList (nameOf entries) (fieldOf entries "rescue") ++
            placesOfList (nameOf entries) (fieldOf entries "always")
        else []
termination_by sizeOf v
decreasing_by all_goals exact sizeOf_lt_of_asMap?_eq _h _

def placesOfList (owner : String) (v : Value) : List Place :=
  .tasks owner v ::
    match v with
    | .list items => items.attach.flatMap fun ⟨item, _⟩ => places owner item
    | _ => []
termination_by sizeOf v
decreasing_by
  have := List.sizeOf_lt_of_mem ‹item ∈ items›
  simp
  omega
end

end TaskNode

namespace Play

def nameOf (number : Nat) (entries : List (Value × Value)) : String :=
  (fieldOf entries "name").asStr?.getD ("Play #" ++ toString number)

def places (number : Nat) (v : Value) : List Place :=
  .play number v ::
    match v.asMap? with
    | none => []
    | some entries =>
      Declared.places (nameOf number entries) entries ++
        Section.all.flatMap fun s =>
          TaskNode.placesOfList (nameOf number entries) (fieldOf entries s.key)

end Play

/-- All places of a document: plays in sequence, counted from one, and depth first. -/
def Playbook.places (v : Value) : List Place :=
  .plays v ::
    match v with
    | .list items => (items.zipIdx 1).flatMap fun (item, number) => Play.places number item
    | _ => []

namespace Place

theorem firstError?_cons (place : Place) (rest : List Place) :
    firstError? (place :: rest) = if place.fits then firstError? rest else some place.error := by
  rw [firstError?, firstError?, List.find?_cons]
  cases place.fits <;> rfl

theorem firstError?_append (xs ys : List Place) :
    firstError? (xs ++ ys) = (firstError? xs).or (firstError? ys) := by
  rw [firstError?, firstError?, firstError?, List.find?_append]
  cases xs.find? (!·.fits) <;> rfl

theorem firstError?_eq_none_iff {places : List Place} :
    firstError? places = none ↔ ∀ place ∈ places, place.fits = true := by
  rw [firstError?, Option.map_eq_none_iff, List.find?_eq_none]
  simp

theorem firstError?_eq_some_iff {places : List Place} {e : Error} :
    firstError? places = some e ↔ ∃ before place after, places = before ++ place :: after ∧
      place.fits = false ∧ place.error = e ∧ ∀ earlier ∈ before, earlier.fits = true :=
  Except.map_find?_eq_some_iff

end Place

/-! ## The first error of a document -/

/-- A step checks places if it fails with the error of the first of them that does not fit. -/
def Place.Checks {α : Type} (step : Except Error α) (places : List Place) : Prop :=
  step.error? = firstError? places

namespace Place.Checks

variable {α β : Type} {step : Except Error α} {next : α → Except Error β} {xs ys : List Place}

theorem bind (hstep : Checks step xs) (hnext : ∀ a, Checks (next a) ys) :
    Checks (step >>= next) (xs ++ ys) := by
  rw [Checks, Except.error?_bind hnext, hstep, firstError?_append]

theorem bind_pure (hstep : Checks step xs) (f : α → β) :
    Checks (step >>= fun a => pure (f a)) xs := by
  rw [Checks, Except.error?_bind_pure, hstep]

theorem mapM {f : α → Except Error β} {places : α → List Place} {items : List α}
    (h : ∀ item ∈ items, Checks (f item) (places item)) :
    Checks (items.mapM f) (items.flatMap places) :=
  Except.error?_mapM_of_find? h

/-- A place that fits leaves the error to the places behind it. -/
theorem cons {place : Place} (hplace : place.fits = true) (hstep : Checks step xs) :
    Checks step (place :: xs) := by
  rw [Checks, firstError?_cons, if_pos hplace, hstep]

theorem of_not_fits {place : Place} (hplace : place.fits = false)
    (hstep : step = .error place.error) : Checks step (place :: xs) := by
  rw [Checks, firstError?_cons, hplace, hstep]
  rfl

theorem succeeds_iff (h : Checks step xs) :
    (∃ a, step = .ok a) ↔ ∀ place ∈ xs, place.fits = true := by
  rw [← Except.error?_eq_none_iff, h, firstError?_eq_none_iff]

theorem fails_iff (h : Checks step xs) {e : Error} :
    step = .error e ↔ ∃ before place after, xs = before ++ place :: after ∧
      place.fits = false ∧ place.error = e ∧ ∀ earlier ∈ before, earlier.fits = true := by
  rw [← Except.error?_eq_some_iff, h, firstError?_eq_some_iff]

end Place.Checks

open Place (Checks)

theorem TagEntry.checks_ofDeclaration (owner : String) (v : Value) :
    Checks (ofDeclaration owner v) (.tags owner v :: (scalars v).map (.tag owner)) := by
  have htags : Place.firstError? ((scalars v).map (.tag owner))
      = ((scalars v).find? (!Tag.isTag ·)).map fun s => .invalidTags owner (Tag.faultOf s) := by
    rw [Place.firstError?, List.find?_map, Option.map_map]
    rfl
  rw [Checks, error?_ofDeclaration, Place.firstError?_cons, htags]
  rfl

theorem checks_bindingsOf (owner : String) (v : Value) :
    Checks (bindingsOf owner v) [.vars owner v] := by
  cases v with
  | map entries =>
      have hfits := Value.toJsonFields_error?_eq_none_iff entries
      cases hfields : Value.toJsonFields entries with
      | ok fields =>
          have hkeys : (Place.vars owner (.map entries)).fits = true :=
            hfits.mp (by rw [hfields]; rfl)
          apply Checks.cons hkeys
          rw [bindingsOf, hfields]
          rfl
      | error fault =>
          have hkeys : (Place.vars owner (.map entries)).fits = false := by
            rw [Bool.eq_false_iff]
            intro hkeys
            have hnone := hfits.mpr hkeys
            rw [hfields] at hnone
            cases hnone
          apply Checks.of_not_fits hkeys
          rw [bindingsOf, hfields]
          rfl
  | null => rfl
  | bool b => rfl
  | num n => rfl
  | str s => rfl
  | list items => rfl
  | tagged tag v => rfl

theorem Declared.checks_ofFields (owner : String) (entries : List (Value × Value)) :
    Checks (Declared.ofFields owner entries) (Declared.places owner entries) := by
  apply (TagEntry.checks_ofDeclaration owner _).bind
  intro tags
  exact (checks_bindingsOf owner _).bind_pure _

namespace TaskNode

/-- Induction on what a task list may hold: the parts of a task are the values of its keys, those of
a list its items. -/
theorem valueInduction (task list : Value → Prop)
    (ofParts : ∀ v, (∀ entries, v.asMap? = some entries → ∀ key, list (fieldOf entries key)) → task v)
    (ofItems : ∀ v, (∀ items, v = .list items → ∀ item ∈ items, task item) → list v) (v : Value) :
    task v ∧ list v := by
  -- A part may be the value of any key, so it is the size that goes down.
  induction h : sizeOf v using Nat.strongRecOn generalizing v with
  | _ n ih =>
      subst h
      constructor
      · apply ofParts
        intro entries hmap key
        exact (ih _ (sizeOf_lt_of_asMap?_eq hmap key) _ rfl).2
      · apply ofItems
        rintro items rfl item hitem
        have hlt : sizeOf item < sizeOf (Value.list items) := by
          have := List.sizeOf_lt_of_mem hitem
          simp
          omega
        exact (ih _ hlt _ rfl).1

variable {v : Value} {entries : List (Value × Value)}

theorem ofValue_of_block (owner : String) (hmap : v.asMap? = some entries)
    (hkind : hasKey entries "block" = true) :
    ofValue owner v = do
      let declared ← Declared.ofFields (nameOf entries) entries
      let body ← listOfValue (nameOf entries) (fieldOf entries "block")
      let rescue ← listOfValue (nameOf entries) (fieldOf entries "rescue")
      let always ← listOfValue (nameOf entries) (fieldOf entries "always")
      return .block declared body rescue always := by
  rw [ofValue]
  split
  · next hnone => simp [hmap] at hnone
  · next entries' hsome =>
      obtain rfl : entries = entries' := Option.some.inj (hmap.symm.trans hsome)
      simp only [hkind, if_true, nameOf]

theorem ofValue_of_task (owner : String) (hmap : v.asMap? = some entries)
    (hkind : hasKey entries "block" = false) :
    ofValue owner v = do
      let declared ← Declared.ofFields (nameOf entries) entries
      return .task declared (Task.actionOf entries) := by
  rw [ofValue]
  split
  · next hnone => simp [hmap] at hnone
  · next entries' hsome =>
      obtain rfl : entries = entries' := Option.some.inj (hmap.symm.trans hsome)
      simp only [hkind, nameOf]
      rfl

theorem listOfValue_list (owner : String) (items : List Value) :
    listOfValue owner (.list items) = items.mapM (ofValue owner) := by
  rw [listOfValue]
  simp

theorem placesOfList_list (owner : String) (items : List Value) :
    placesOfList owner (.list items)
      = .tasks owner (.list items) :: items.flatMap (places owner) := by
  rw [placesOfList]
  simp

theorem placesOfList_of_not_list (owner : String) (h : ∀ items, v ≠ .list items) :
    placesOfList owner v = [.tasks owner v] := by
  rw [placesOfList]
  exact h

theorem list_cases (v : Value) :
    v = .null ∨ (∃ items, v = .list items) ∨
      (Place.isNullOrList v = false ∧ (∀ items, v ≠ .list items) ∧
        ∀ owner, listOfValue owner v = .error (.playbook (.tasksNotList owner))) := by
  cases v <;> simp [listOfValue, Place.isNullOrList]

theorem places_of_block (owner : String) (hmap : v.asMap? = some entries)
    (hkind : hasKey entries "block" = true) :
    places owner v = .task owner v :: (Declared.places (nameOf entries) entries ++
      (placesOfList (nameOf entries) (fieldOf entries "block") ++
        (placesOfList (nameOf entries) (fieldOf entries "rescue") ++
          placesOfList (nameOf entries) (fieldOf entries "always")))) := by
  rw [places]
  split
  · next hnone => simp [hmap] at hnone
  · next entries' hsome =>
      obtain rfl : entries = entries' := Option.some.inj (hmap.symm.trans hsome)
      rw [if_pos hkind, List.append_assoc]

theorem places_of_task (owner : String) (hmap : v.asMap? = some entries)
    (hkind : hasKey entries "block" = false) :
    places owner v = .task owner v :: Declared.places (nameOf entries) entries := by
  rw [places]
  split
  · next hnone => simp [hmap] at hnone
  · next entries' hsome =>
      obtain rfl : entries = entries' := Option.some.inj (hmap.symm.trans hsome)
      rw [if_neg (by simp [hkind]), List.append_nil]

/-- Reading a task checks its places, and reading a list those of the list. -/
theorem checks (v : Value) :
    (∀ owner, Checks (ofValue owner v) (places owner v)) ∧
      ∀ owner, Checks (listOfValue owner v) (placesOfList owner v) := by
  apply valueInduction (fun v => ∀ owner, Checks (ofValue owner v) (places owner v))
    (fun v => ∀ owner, Checks (listOfValue owner v) (placesOfList owner v))
  · intro v ih owner
    cases hmap : v.asMap? with
    | none =>
        have hfits : (Place.task owner v).fits = false := by simp [Place.fits, hmap]
        rw [places]
        apply Checks.of_not_fits hfits
        rw [ofValue]
        split
        · rfl
        · next hsome => simp [hmap] at hsome
    | some entries =>
        have hfits : (Place.task owner v).fits = true := by simp [Place.fits, hmap]
        have hdeclared := Declared.checks_ofFields (nameOf entries) entries
        have hpart := fun key => ih entries hmap key (nameOf entries)
        cases hkind : hasKey entries "block" with
        | false =>
            rw [ofValue_of_task owner hmap hkind, places_of_task owner hmap hkind]
            apply Checks.cons hfits
            exact hdeclared.bind_pure _
        | true =>
            rw [ofValue_of_block owner hmap hkind, places_of_block owner hmap hkind]
            apply Checks.cons hfits
            -- The steps of a block stand in the order of its places.
            apply hdeclared.bind
            intro declared
            apply (hpart "block").bind
            intro body
            apply (hpart "rescue").bind
            intro rescue
            exact (hpart "always").bind_pure _
  · intro v ih owner
    rcases list_cases v with rfl | ⟨items, rfl⟩ | ⟨hfits, hlist, herror⟩
    · rw [listOfValue, placesOfList_of_not_list owner (by simp)]
      rfl
    · rw [listOfValue_list, placesOfList_list]
      apply Checks.cons rfl
      apply Checks.mapM
      intro item hitem
      exact ih items rfl item hitem owner
    · rw [placesOfList_of_not_list owner hlist]
      have htasks : (Place.tasks owner v).fits = false := hfits
      exact Checks.of_not_fits htasks (herror owner)

end TaskNode

namespace Play

theorem checks (number : Nat) (v : Value) : Checks (ofValue number v) (places number v) := by
  rw [ofValue, places]
  cases hmap : v.asMap? with
  | none =>
      have hfits : (Place.play number v).fits = false := by simp [Place.fits, hmap]
      exact Checks.of_not_fits hfits rfl
  | some entries =>
      have hfits : (Place.play number v).fits = true := by simp [Place.fits, hmap]
      have hsection := fun s : Section =>
        (TaskNode.checks (fieldOf entries s.key)).2 (nameOf number entries)
      simp only [Section.all, List.flatMap_cons, List.flatMap_nil, List.append_nil]
      apply Checks.cons hfits
      apply (Declared.checks_ofFields _ entries).bind
      intro declared
      apply (hsection .preTasks).bind
      intro preTasks
      apply (hsection .tasks).bind
      intro tasks
      apply (hsection .postTasks).bind
      intro postTasks
      exact (hsection .handlers).bind_pure _

end Play

namespace Playbook

theorem checks_ofPlays (number : Nat) (items : List Value) :
    Checks (ofPlays number items)
      ((items.zipIdx number).flatMap fun (item, n) => Play.places n item) := by
  induction items generalizing number with
  | nil => rfl
  | cons v rest ih =>
      rw [List.zipIdx_cons, List.flatMap_cons]
      apply (Play.checks number v).bind
      intro play
      exact (ih (number + 1)).bind_pure _

theorem checks (v : Value) : Checks (ofValue v) (places v) := by
  cases v with
  | list items => exact (checks_ofPlays 1 items).cons rfl
  | null => rfl
  | bool b => rfl
  | num n => rfl
  | str s => rfl
  | map entries => rfl
  | tagged tag v => rfl

end Playbook
end TaskTags
