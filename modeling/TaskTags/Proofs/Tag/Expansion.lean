import TaskTags.Proofs.Tag.Plain
import TaskTags.Proofs.Text.Pieces

/-!
# What tags stand for

A templated tag that is one expression stands for the scalars of its value: none for none, one each
for the items of a list. Any other kind of value or item fails the declaration, so that only none
and empty lists ever leave a templated tag without tags.
-/

namespace TaskTags

/-! ## Values as tags -/

namespace Template.Value

/-- The values in the place of a value that each stand for one tag. -/
def elements : Value → List Value
  | .none => []
  | .list _ items => items
  | v => [v]

theorem elements_eq_nil_iff {v : Value} :
    v.elements = [] ↔ v = .none ∨ ∃ isLazy, v = .list isLazy [] := by
  cases v <;> simp [elements]

/-- The tag of a scalar. Numbers that equal an integer of 64 bits are integers, all else is text. -/
inductive Denotes : Value → Tag → Prop
  | str (s : String) (isSafe : Bool) : Denotes (.str s isSafe) (.str s)
  | int {n : Int} (h : Json.isInt64 n = true) : Denotes (.int n) (.int n)
  | wide {n : Int} (h : Json.isInt64 n = false) : Denotes (.int n) (.str (Decimal.intText n))
  | integral {x : Binary64} {n : Int} (h : integerOf? x = some n) : Denotes (.float x) (.int n)
  | float {x : Binary64} (h : integerOf? x = Option.none) :
      Denotes (.float x) (.str (floatStyle.write x))
  | bool (b : Bool) : Denotes (.bool b) (.str (if b then "true" else "false"))

variable {v : Value} {tag : Tag}

theorem denotes_iff : v.Denotes tag ↔ Tag.ofTemplateValue v = .ok tag := by
  constructor
  · intro h
    cases h with
    | str | bool => rfl
    | int h | wide h | integral h | float h => simp [Tag.ofTemplateValue, h, display, describe]
  · intro h
    cases v with
    | str s isSafe =>
        cases h
        exact .str s isSafe
    | bool b =>
        cases h
        exact .bool b
    | int n =>
        cases h
        cases hn : Json.isInt64 n with
        | true => exact .int hn
        | false => exact .wide hn
    | float x =>
        cases h
        cases hx : integerOf? x with
        | some n => exact .integral hx
        | none => exact .float hx
    | _ => cases h

/-- Values of the other kinds are no tags. -/
theorem exists_error_of_kind
    (h : v.kind ∈ [Kind.undefined, .none, .seq, .map, .iterable, .plain]) :
    ∃ fault, Tag.ofTemplateValue v = .error fault := by
  cases v with
  | bool | int | float | str => simp [kind] at h
  | _ => exact ⟨_, rfl⟩

/-- The value of an expression is no tags if it is undefined or has an item that is no scalar. -/
theorem exists_error_of_elements
    (h : v.kind = .undefined ∨ ∃ isLazy items, v = .list isLazy items ∧
      ∃ item ∈ items, item.kind ∈ [.undefined, .none, .map, .seq, .iterable]) :
    ∃ fault, v.elements.mapM Tag.ofTemplateValue = .error fault := by
  obtain ⟨item, hmem, hkind⟩ : ∃ item ∈ v.elements,
      item.kind ∈ [Kind.undefined, .none, .seq, .map, .iterable, .plain] := by
    rcases h with hundefined | ⟨isLazy, items, rfl, item, hmem, hkind⟩
    · refine ⟨v, ?_, by simp [hundefined]⟩
      cases v with
      | undefined => exact List.mem_singleton_self _
      | list isLazy => cases isLazy <;> cases hundefined
      | _ => cases hundefined
    · refine ⟨item, hmem, ?_⟩
      simp only [List.mem_cons, List.not_mem_nil, or_false] at hkind ⊢
      tauto
  cases hparts : v.elements.mapM Tag.ofTemplateValue with
  | error fault => exact ⟨fault, rfl⟩
  | ok parts =>
      obtain ⟨tag, htag⟩ := Except.exists_ok_of_mapM hparts hmem
      obtain ⟨fault, hfault⟩ := exists_error_of_kind hkind
      rw [hfault] at htag
      cases htag

theorem map_tags_entry (v : Value) :
    (Tag.entryOfTemplateValue v).map TagEntry.tags = v.elements.mapM Tag.ofTemplateValue := by
  have hscalar : ∀ w : Value, (TagEntry.single <$> Tag.ofTemplateValue w).map TagEntry.tags
      = [w].mapM Tag.ofTemplateValue := by
    intro w
    rw [List.mapM_cons]
    cases Tag.ofTemplateValue w <;> rfl
  cases v with
  | none => rfl
  | list isLazy items =>
      rw [Tag.entryOfTemplateValue, elements]
      cases items.mapM Tag.ofTemplateValue <;> rfl
  | _ => exact hscalar _

end Template.Value

/-! ## Templated tags -/

namespace Templater

/-- A text that is one expression is, but for blanks, its inside between the marks of one. -/
theorem exists_inside_of_soleExpression? {s e : String} (h : soleExpression? s = some e) :
    ∃ inside, Text.trimChars s.toList = ['{', '{'] ++ inside ++ ['}', '}'] ∧
      containsPair '}' inside.reverse = false ∧ e = Text.trim (String.ofList inside) := by
  unfold soleExpression? at h
  split at h
  · next rest hrest =>
      split at h
      · next inner hinner =>
          split at h
          · cases h
          · next hpairs =>
              simp only [Bool.or_eq_true, not_or, Bool.not_eq_true] at hpairs
              refine ⟨inner.reverse, ?_, by simpa using hpairs.2, (Option.some.inj h).symm⟩
              rw [hrest, List.reverse_eq_iff.mp hinner]
              simp
      · cases h
  · cases h

theorem hasTemplate_of_soleExpression? {s e : String} (h : soleExpression? s = some e) :
    hasTemplate s = true := by
  obtain ⟨inside, hinside, -⟩ := exists_inside_of_soleExpression? h
  have hmark : ['{', '{'] <:+: Text.trimChars s.toList := by
    rw [hinside, List.append_assoc]
    exact (List.prefix_append _ _).isInfix
  exact hasMark_iff.mpr ⟨'{', by simp, hmark.trans (Text.infix_trimChars _)⟩

end Templater

namespace Tag

variable {vars : Bindings} {s e : String} {v : Template.Value} {tag : Tag} {part : List Tag}

def expand (vars : Bindings) (tag : Tag) : Except Error (List Tag) :=
  (tag.resolve vars).map TagEntry.tags

theorem expand_expression (hsole : Templater.soleExpression? s = some e)
    (hv : Template.evaluate e vars = .ok v) :
    expand vars (.str s) = (v.elements.mapM ofTemplateValue).mapError (Error.template s) := by
  rw [expand, resolve, if_pos (Templater.hasTemplate_of_soleExpression? hsole), resolveText, hsole]
  simp only [hv, Except.ok_bind]
  rw [← Template.Value.map_tags_entry]
  cases entryOfTemplateValue v <;> rfl

/-- A tag without a template mark stands for itself, one that is one expression for the elements of
its value, and any other one for the text that its template is rendered to. -/
inductive ExpandsTo (vars : Bindings) : Tag → List Tag → Prop
  | plain {tag : Tag} (h : tag.Plain) : ExpandsTo vars tag [tag]
  | expression {s e : String} {v : Template.Value} {part : List Tag}
      (hsole : Templater.soleExpression? s = some e) (hv : Template.evaluate e vars = .ok v)
      (h : List.Forall₂ Template.Value.Denotes v.elements part) : ExpandsTo vars (.str s) part
  | rendered {s text : String} (hmark : ¬ (Tag.str s).Plain)
      (hsole : Templater.soleExpression? s = none) (h : Template.render s vars = .ok text) :
      ExpandsTo vars (.str s) [.str text]

theorem plain_str_iff : (Tag.str s).Plain ↔ Templater.hasTemplate s = false := by
  rw [Templater.hasTemplate, Bool.eq_false_iff, Ne, Templater.hasMark_iff]
  simp only [Plain, not_exists, not_and]

theorem expandsTo_of_expand (h : expand vars tag = .ok part) : tag.ExpandsTo vars part := by
  by_cases hplain : tag.Plain
  · rw [expand, resolve_of_plain hplain] at h
    cases h
    exact .plain hplain
  · cases tag with
    | int n => exact absurd trivial hplain
    | str s =>
        cases hsole : Templater.soleExpression? s with
        | none =>
            have hmark : Templater.hasTemplate s = true := by
              rwa [plain_str_iff, Bool.not_eq_false] at hplain
            rw [expand, resolve, if_pos hmark, resolveText, hsole] at h
            cases htext : Template.render s vars with
            | error fault => simp [htext, Except.mapError] at h
            | ok text =>
                simp only [htext, Except.ok_bind] at h
                cases h
                exact .rendered hplain hsole htext
        | some e =>
            have hmark := Templater.hasTemplate_of_soleExpression? hsole
            cases hv : Template.evaluate e vars with
            | error fault =>
                simp [expand, resolve, hmark, resolveText, hsole, hv, Except.mapError] at h
            | ok v =>
                rw [expand_expression hsole hv] at h
                cases hparts : v.elements.mapM ofTemplateValue with
                | error fault => simp [hparts, Except.mapError] at h
                | ok parts =>
                    simp only [hparts, Except.mapError, Except.ok.injEq] at h
                    subst h
                    refine .expression hsole hv ?_
                    rw [Except.mapM_eq_ok_iff] at hparts
                    exact hparts.imp fun _ _ => Template.Value.denotes_iff.mpr

/-- Only none and lists without items leave a tag without tags. -/
theorem ExpandsTo.eq_nil_iff (h : tag.ExpandsTo vars part) :
    part = [] ↔ ∃ s e v, tag = .str s ∧ Templater.soleExpression? s = some e ∧
      Template.evaluate e vars = .ok v ∧ (v = .none ∨ ∃ isLazy, v = .list isLazy []) := by
  constructor
  · rintro rfl
    cases h with
    | expression hsole hv h =>
        refine ⟨_, _, _, rfl, hsole, hv, ?_⟩
        rw [List.forall₂_nil_right_iff] at h
        exact Template.Value.elements_eq_nil_iff.mp h
  · rintro ⟨s, e, v, rfl, hsole, hv, hnone⟩
    cases h with
    | plain hplain =>
        rw [plain_str_iff, Templater.hasTemplate_of_soleExpression? hsole] at hplain
        cases hplain
    | rendered _ hsole' => simp [hsole] at hsole'
    | expression hsole' hv' h =>
        obtain rfl := Option.some.inj (hsole.symm.trans hsole')
        obtain rfl := Except.ok.inj (hv.symm.trans hv')
        rwa [Template.Value.elements_eq_nil_iff.mpr hnone, List.forall₂_nil_left_iff] at h

end Tag

namespace TagEntry

theorem map_tags_resolve (vars : Bindings) (entry : TagEntry) :
    (entry.resolve vars).map tags = (entry.tags.mapM (Tag.expand vars)).map List.flatten := by
  cases entry with
  | single tag =>
      rw [resolve, tags, List.mapM_cons, Tag.expand]
      cases tag.resolve vars <;> simp [pure, Except.pure]
  | list ts =>
      have hexpand : ts.mapM (Tag.expand vars)
          = (ts.mapM (Tag.resolve vars)).map (List.map tags) := Except.mapM_map _ _ _
      rw [resolve, tags, hexpand]
      cases ts.mapM (Tag.resolve vars) <;> simp [pure, Except.pure, tags, List.flatMap]

/-- The tags of templated entries are what the tags of the entries stand for in turn. -/
theorem map_allTags_on (vars : Bindings) (entries : List TagEntry) :
    (Templater.on vars entries).map allTags
      = ((allTags entries).mapM (Tag.expand vars)).map List.flatten :=
  Except.map_flatMap_mapM (map_tags_resolve vars) entries

end TagEntry

namespace Templater

/-- An expression that comes to an undefined value, or to a list with an item that is undefined,
none, a mapping or a list, fails the declaration if no tag in front of it does. Where templating
succeeds, each tag stands for the tags that its value says, and for none only if that is none or a
list without items. -/
theorem on_expressions (vars : Bindings) (entries : List TagEntry) :
    (∀ before s after e v, TagEntry.allTags entries = before ++ .str s :: after →
      (∀ tag ∈ before, ∃ entry, tag.resolve vars = .ok entry) →
      soleExpression? s = some e → Template.evaluate e vars = .ok v →
      (v.kind = .undefined ∨ ∃ isLazy items, v = .list isLazy items ∧
        ∃ item ∈ items, item.kind ∈ [.undefined, .none, .map, .seq, .iterable]) →
      ∃ fault, on vars entries = .error (.template s fault)) ∧
    ∀ resolved, on vars entries = .ok resolved →
      ∃ parts, TagEntry.allTags resolved = parts.flatten ∧
        List.Forall₂ (fun tag part => tag.ExpandsTo vars part ∧
          (part = [] ↔ ∃ s e v, tag = .str s ∧ soleExpression? s = some e ∧
            Template.evaluate e vars = .ok v ∧ (v = .none ∨ ∃ isLazy, v = .list isLazy [])))
          (TagEntry.allTags entries) parts := by
  have hon := TagEntry.map_allTags_on vars entries
  constructor
  · intro before s after e v htags hbefore hsole hv hbad
    obtain ⟨fault, hfault⟩ := Template.Value.exists_error_of_elements hbad
    refine ⟨fault, ?_⟩
    rw [← Except.map_eq_error_iff (f := TagEntry.allTags), hon, Except.map_eq_error_iff,
      Except.mapM_eq_error_iff]
    refine ⟨before, .str s, after, htags, ?_, ?_⟩
    · rw [Tag.expand_expression hsole hv, hfault]
      rfl
    · intro tag htag
      obtain ⟨entry, hentry⟩ := hbefore tag htag
      exact ⟨entry.tags, by rw [Tag.expand, hentry, Except.ok_map]⟩
  · intro resolved hresolved
    rw [hresolved, Except.ok_map] at hon
    obtain ⟨parts, hparts, hflatten⟩ := Except.map_eq_ok_iff.mp hon.symm
    refine ⟨parts, hflatten.symm, ?_⟩
    rw [Except.mapM_eq_ok_iff] at hparts
    refine hparts.imp fun tag part hpart => ?_
    have hexpands := Tag.expandsTo_of_expand hpart
    exact ⟨hexpands, hexpands.eq_nil_iff⟩

/-- A list with an item that is not defined fails behind a tag that can be templated. -/
theorem on_expressions_missing :
    let entries : List TagEntry :=
      [.single (.str "{{ role }}"), .list [.int 7, .str "{{ [role, missing] }}"]]
    ∃ fault, on [("role", .str "web")] entries
      = .error (.template "{{ [role, missing] }}" fault) := by
  intro entries
  have hvalue : (Template.evaluate "[role, missing]" [("role", .str "web")]).toOption.any
      (fun v => v.kind == .seq && v.elements.any (·.kind == .undefined)) = true := by
    decide +kernel
  obtain ⟨v, hv, hkind⟩ := (Option.any_eq_true _ _).mp hvalue
  simp only [Bool.and_eq_true, beq_iff_eq, List.any_eq_true] at hkind
  obtain ⟨hseq, item, hitem, hundefined⟩ := hkind
  have hbefore : ∀ tag ∈ [Tag.str "{{ role }}", .int 7],
      ∃ entry, tag.resolve [("role", .str "web")] = .ok entry := by
    have hall : ∀ tag ∈ [Tag.str "{{ role }}", .int 7],
        (tag.resolve [("role", .str "web")]).error? = none := by
      decide +kernel
    exact fun tag htag => Except.error?_eq_none_iff.mp (hall tag htag)
  refine (on_expressions _ entries).1 [.str "{{ role }}", .int 7] _ [] "[role, missing]" v rfl
    hbefore (by decide +kernel) (Except.toOption_eq_some_iff.mp hv) (.inr ?_)
  cases v with
  | list isLazy items => exact ⟨isLazy, items, rfl, item, hitem, by simp [hundefined]⟩
  | _ => cases hseq

end Templater
end TaskTags
