import TaskTags.Proofs.Tag.Declaration
import TaskTags.Proofs.Text.Cut

/-!
# The entries of declarations

Which entries a declaration comes to, as a relation between documents and entries. What is loaded
is what is so related, and where nothing is, the error is that of the first scalar that is no tag,
or says that the declaration is no list.
-/

namespace TaskTags

open Yaml (Value)

theorem Json.isInt64_iff {n : Int} :
    isInt64 n = true ↔ -9223372036854775808 ≤ n ∧ n ≤ 9223372036854775807 := by
  have hpow : Decimal.pow2 (64 - 1) = 9223372036854775808 := rfl
  rw [isInt64, Decimal.fitsSigned, hpow]
  by_cases hsign : 0 ≤ n
  · rw [if_pos hsign, decide_eq_true_iff]
    omega
  · rw [if_neg hsign, decide_eq_true_iff]
    omega

namespace Tag

/-- A text is a tag as it stands, and an integer of 64 bits is one. -/
inductive IsReadFrom : Value → Tag → Prop
  | text (s : String) : IsReadFrom (.str s) (.str s)
  | integer {n : Int} (low : -9223372036854775808 ≤ n) (high : n ≤ 9223372036854775807) :
      IsReadFrom (.num (.int n)) (.int n)

theorem ofValue_eq_ok_iff {owner : String} {v : Value} {tag : Tag} :
    ofValue owner v = .ok tag ↔ IsReadFrom v tag := by
  constructor
  · intro h
    cases v with
    | str s =>
        obtain rfl := Except.ok.inj h
        exact .text s
    | num n =>
        cases n with
        | int n =>
            rw [ofValue] at h
            split at h
            · next hrange =>
              obtain ⟨low, high⟩ := Json.isInt64_iff.mp hrange
              obtain rfl := Except.ok.inj h
              exact .integer low high
            · cases h
        | float x => cases h
    | null => cases h
    | bool b => cases h
    | list items => cases h
    | map entries => cases h
    | tagged tag v => cases h
  · intro h
    cases h with
    | text s => rfl
    | integer low high => rw [ofValue, if_pos (Json.isInt64_iff.mpr ⟨low, high⟩)]

end Tag

namespace TagEntry

inductive IsReadFrom : Value → TagEntry → Prop
  | single {v : Value} {tag : Tag} (h : Tag.IsReadFrom v tag) : IsReadFrom v (.single tag)
  | list {items : List Value} {tags : List Tag} (h : List.Forall₂ Tag.IsReadFrom items tags) :
      IsReadFrom (.list items) (.list tags)

/-- A text gives its pieces, and a list an entry for each of its items. -/
inductive AreReadFrom : Value → List TagEntry → Prop
  | none : AreReadFrom .null []
  | text {s : String} {pieces : List String} (h : Text.HasPieces s pieces) :
      AreReadFrom (.str s) (pieces.map fun piece => .single (.str piece))
  | list {items : List Value} {entries : List TagEntry} (h : List.Forall₂ IsReadFrom items entries) :
      AreReadFrom (.list items) entries

variable {owner : String} {v : Value}

theorem ofItem_list_eq_ok_iff {items : List Value} {entry : TagEntry} :
    ofItem owner (.list items) = .ok entry ↔ IsReadFrom (.list items) entry := by
  rw [ofItem, Except.map_eq_ok_iff]
  simp only [Except.mapM_eq_ok_iff, Tag.ofValue_eq_ok_iff]
  constructor
  · rintro ⟨tags, htags, rfl⟩
    exact .list htags
  · intro h
    cases h with
    | single h => cases h
    | list htags => exact ⟨_, htags, rfl⟩

theorem ofItem_eq_ok_iff {entry : TagEntry} :
    ofItem owner v = .ok entry ↔ IsReadFrom v entry := by
  rcases item_cases v with ⟨items, rfl⟩ | ⟨-, hitem⟩
  · exact ofItem_list_eq_ok_iff
  · rw [hitem, Except.map_eq_ok_iff]
    simp only [Tag.ofValue_eq_ok_iff]
    constructor
    · rintro ⟨tag, htag, rfl⟩
      exact .single htag
    · intro h
      cases h with
      | single htag => exact ⟨_, htag, rfl⟩
      | list htags =>
          have hlist : ofItem owner (.list _) = .ok (.list _) :=
            ofItem_list_eq_ok_iff.mpr (.list htags)
          rw [hitem owner] at hlist
          cases hlist

theorem ofDeclaration_eq_ok_iff {entries : List TagEntry} :
    ofDeclaration owner v = .ok entries ↔ AreReadFrom v entries := by
  constructor
  · intro h
    cases v with
    | null =>
        obtain rfl := Except.ok.inj h
        exact .none
    | str s =>
        obtain rfl := Except.ok.inj h
        exact .text (Text.commaPieces_eq_iff.mp rfl)
    | list items =>
        have hitems := Except.mapM_eq_ok_iff.mp h
        simp only [ofItem_eq_ok_iff] at hitems
        exact .list hitems
    | bool b => cases h
    | num n => cases h
    | map entries => cases h
    | tagged tag v => cases h
  · intro h
    cases h with
    | none => rfl
    | text hpieces =>
        obtain rfl := Text.commaPieces_eq_iff.mpr hpieces
        rfl
    | list hitems =>
        apply Except.mapM_eq_ok_iff.mpr
        simpa only [ofItem_eq_ok_iff] using hitems

/-- The tags of a text are those that it stands for on a command line. -/
theorem flatten_ofDeclaration_str {s : String} {entries : List TagEntry}
    (h : ofDeclaration owner (.str s) = .ok entries) : flatten entries = TagSet.ofValues [s] := by
  obtain rfl := Except.ok.inj h
  rw [flatten, allTags, List.flatMap_map, TagSet.ofValues, List.flatMap_singleton]
  exact congrArg TagSet.ofList List.map_eq_flatMap.symm

theorem ofDeclaration_eq_error_iff {e : Error} :
    ofDeclaration owner v = .error e ↔
      (isDeclaration v = true ∧ ∃ before s after, scalars v = before ++ s :: after ∧
        (∀ earlier ∈ before, Tag.isTag earlier = true) ∧ Tag.isTag s = false ∧
        e = .invalidTags owner (Tag.faultOf s)) ∨
      (isDeclaration v = false ∧ e = .invalidTags owner .notAList) := by
  rw [← Except.error?_eq_some_iff, error?_ofDeclaration]
  cases isDeclaration v with
  | false =>
      rw [if_neg Bool.false_ne_true, Option.some.injEq]
      constructor
      · rintro rfl
        exact .inr ⟨rfl, rfl⟩
      · rintro (⟨h, -⟩ | ⟨-, rfl⟩)
        · cases h
        · rfl
  | true =>
      rw [if_pos rfl, Except.map_find?_eq_some_iff]
      constructor
      · rintro ⟨before, s, after, hscalars, hs, rfl, hbefore⟩
        exact .inl ⟨rfl, before, s, after, hscalars, hbefore, hs, rfl⟩
      · rintro (⟨-, before, s, after, hscalars, hbefore, hs, rfl⟩ | ⟨h, -⟩)
        · exact ⟨before, s, after, hscalars, hs, rfl, hbefore⟩
        · cases h

theorem ofDeclaration_succeeds_iff :
    (∃ entries, ofDeclaration owner v = .ok entries) ↔ Loadable v := by
  rw [← Except.error?_eq_none_iff, error?_ofDeclaration, loadable_iff]
  cases isDeclaration v with
  | false => simp
  | true => simp [List.find?_eq_none]

/-- Which declarations are loaded, what they come to, and how the others fail. -/
theorem ofDeclaration_follows_grammar (owner : String) (v : Value) :
    ((∃ entries, ofDeclaration owner v = .ok entries) ↔ Loadable v) ∧
    (∀ entries, ofDeclaration owner v = .ok entries ↔ AreReadFrom v entries) ∧
    (∀ s entries, v = .str s → ofDeclaration owner v = .ok entries →
      flatten entries = TagSet.ofValues [s]) ∧
    ∀ e, ofDeclaration owner v = .error e ↔
      (isDeclaration v = true ∧ ∃ before s after, scalars v = before ++ s :: after ∧
        (∀ earlier ∈ before, Tag.isTag earlier = true) ∧ Tag.isTag s = false ∧
        e = .invalidTags owner (Tag.faultOf s)) ∨
      (isDeclaration v = false ∧ e = .invalidTags owner .notAList) := by
  refine ⟨ofDeclaration_succeeds_iff, ?_, ?_, ?_⟩
  · intro entries
    exact ofDeclaration_eq_ok_iff
  · rintro s entries rfl hentries
    exact flatten_ofDeclaration_str hentries
  · intro e
    exact ofDeclaration_eq_error_iff

/-- The bad scalar of a list is the first one, in a list in it or not. -/
example :
    ofDeclaration "task" (.list [.str "web", .list [.num (.int 7), .null], .bool true])
      = .error (.invalidTags "task" (.badValue "Null")) := by
  rfl

/-- Where a scalar stands in the place of the list, the error describes no scalar at all. -/
theorem scalar_declaration_undescribed :
    ofDeclaration "task" (.bool true) = .error (.invalidTags "task" .notAList) ∧
      ∀ s, (Error.invalidTags "task" .notAList).message
        ≠ (Error.invalidTags "task" (Tag.faultOf s)).message := by
  refine ⟨rfl, fun s hmessage => ?_⟩
  have hfault : ∀ fault, (Error.invalidTags "task" fault).message
      = "Invalid tags for '" ++ "task" ++ "': " ++ fault.message := fun _ => rfl
  obtain ⟨rest, hrest⟩ : ∃ rest, (Tag.faultOf s).message = "tag " ++ rest := by
    cases s with
    | num n => exact ⟨"'" ++ Yaml.Value.numberText n ++ "' is not a string or integer", by
        simp [Tag.faultOf, TagFault.message, ← String.append_assoc]⟩
    | _ => exact ⟨_, String.append_assoc⟩
  rw [hfault, hfault, String.append_right_inj, hrest] at hmessage
  -- The word `tags` goes on where `tag` is followed by a blank.
  have hchars := congrArg String.toList hmessage
  rw [String.toList_append] at hchars
  simp [TagFault.message] at hchars

end TagEntry
end TaskTags
