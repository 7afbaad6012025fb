import TaskTags.Proofs.Tag.Expansion
import TaskTags.Proofs.Template.SoleBlock

/-!
# Tags that are one expression block

Such a tag stands for the value of what is left without the marks of the block, and its text is the
one that the block is rendered to. The signs of the marks are not taken off with them: they count as
operators of the expression.
-/

namespace TaskTags.Templater

open Decimal (IsSign)
open Template (EndsInSign)

theorem containsPair_iff {c : Char} {cs : List Char} :
    containsPair c cs = true ↔ [c, c] <:+: cs := by
  fun_induction containsPair c cs with
  | case1 x y rest ih =>
      rw [pair_infix_cons_iff, ← ih, Bool.or_eq_true, Bool.and_eq_true, beq_iff_eq, beq_iff_eq,
        List.head?_cons, Option.some.injEq, eq_comm (a := c)]
  | case2 cs hne =>
      have hshort : ¬ [c, c] <:+: cs := by
        intro h
        rcases cs with _ | ⟨x, _ | ⟨y, rest⟩⟩
        · exact absurd h.length_le (by simp)
        · exact absurd h.length_le (by simp)
        · exact hne x y rest rfl
      simp [hshort]

/-! ## Blocks -/

/-- The text between the marks of a block, with the signs of the marks. -/
def insideOf (s : String) : List Char := ((Text.trimChars s.toList).drop 2).dropLast.dropLast

/-- The marks of a block have no signs, and nothing stands behind it. -/
structure Bare (s : String) : Prop where
  front : ∀ c ∈ (insideOf s).head?, ¬ IsSign c
  back : ¬ EndsInSign (insideOf s)
  alone : ∃ e, Template.parse (Text.trim s) = .ok [.emit e]

/-- The block of an expression, with blanks between it and the marks. -/
def blockOf (e : String) : String := "\x7b\x7b " ++ e ++ " \x7d\x7d"

def isTextOrInt64 : Template.Value → Bool
  | .str .. => true
  | .int n => Json.isInt64 n
  | _ => false

/-- A template is rendered to a text, and its block has a string or an integer of 64 bits as its
value. -/
structure Shows (source : String) (vars : Bindings) (text : String) : Prop where
  render : Template.render source vars = .ok text
  value : ∃ v, Template.blockValue source vars = .ok v ∧ isTextOrInt64 v = true

instance Shows.decidable (source : String) (vars : Bindings) (text : String) :
    Decidable (Shows source vars text) :=
  decidable_of_iff
    ((Template.render source vars).toOption = some text ∧
      (Template.blockValue source vars).toOption.any isTextOrInt64 = true)
    (by
      simp only [Option.any_eq_true, Except.toOption_eq_some_iff]
      exact ⟨fun h => ⟨h.1, h.2⟩, fun h => ⟨h.render, h.value⟩⟩)

/-- A tag stands for one tag, which is displayed as a text. -/
def ResolvesAs (s : String) (vars : Bindings) (text : String) : Prop :=
  ∃ tag, (Tag.str s).resolve vars = .ok (.single tag) ∧ tag.display = text

variable {s e text : String} {vars : Bindings}

theorem resolve_expression (hsole : soleExpression? s = some e) (vars : Bindings) :
    (Tag.str s).resolve vars =
      (Template.evaluate e vars >>= Tag.entryOfTemplateValue).mapError (Error.template s) := by
  rw [Tag.resolve, if_pos (hasTemplate_of_soleExpression? hsole), Tag.resolveText, hsole]

theorem resolve_of_parse_error (hsole : soleExpression? s = some e)
    (h : Template.Expr.parse e = .error .syntaxError) (vars : Bindings) :
    (Tag.str s).resolve vars = .error (.template s .syntaxError) := by
  rw [resolve_expression hsole, Template.evaluate, h]
  rfl

theorem exists_tag_of_write {v : Template.Value} (hv : isTextOrInt64 v = true)
    (hwrite : Template.Escape.none.write v = .ok text) :
    ∃ tag, Tag.entryOfTemplateValue v = .ok (.single tag) ∧ tag.display = text := by
  cases v with
  | str s isSafe =>
      have htext : s = text := by cases isSafe <;> exact Except.ok.inj hwrite
      exact ⟨.str s, rfl, htext⟩
  | int n =>
      have hn : Json.isInt64 n = true := hv
      refine ⟨.int n, ?_, Except.ok.inj hwrite⟩
      simp [Tag.entryOfTemplateValue, Tag.ofTemplateValue, hn]
  | _ => cases hv

/-- A tag whose expression is that of a template of one block is displayed as this is rendered. -/
theorem ResolvesAs.of_shows {source : String} {expr : Template.Expr}
    (hsole : soleExpression? s = some e) (hexpr : Template.Expr.parse e = .ok expr)
    (hparse : Template.parse source = .ok [.emit expr]) (h : Shows source vars text) :
    ResolvesAs s vars text := by
  obtain ⟨v, hvalue, hv⟩ := h.value
  obtain ⟨tag, htag, hdisplay⟩ :=
    exists_tag_of_write hv (Template.write_of_render hparse hvalue h.render)
  have hevaluate : Template.evaluate e vars = .ok v := by
    rw [Template.evaluate, hexpr, ← hvalue, Template.blockValue, hparse]
    rfl
  refine ⟨tag, ?_, hdisplay⟩
  rw [resolve_expression hsole, hevaluate, Except.ok_bind, htag]
  rfl

/-! ## The expression of a block -/

theorem soleExpression?_insideOf (h : soleExpression? s = some e) :
    Text.trim s = String.ofList (['{', '{'] ++ insideOf s ++ ['}', '}']) ∧
      ¬ ['}', '}'] <:+: insideOf s ∧ e = Text.trim (String.ofList (insideOf s)) := by
  obtain ⟨inside, hinside, hpairs, rfl⟩ := exists_inside_of_soleExpression? h
  have heq : insideOf s = inside := by
    rw [insideOf, hinside]
    simp
  rw [heq, Text.trim, hinside]
  refine ⟨rfl, fun hpair => ?_, rfl⟩
  have hreverse : ['}', '}'] <:+: inside.reverse := List.reverse_infix.mpr hpair
  rw [containsPair_iff.mpr hreverse] at hpairs
  cases hpairs

/-- Without a sign in front, the expression of a block is read on its own as in the template if the
marks of the block are bare, and cannot be read if they are not. -/
theorem parse_unsigned (hsole : soleExpression? s = some e)
    (hfront : ∀ c ∈ (insideOf s).head?, ¬ IsSign c) {body : List Template.Stmt}
    (hparse : Template.parse (Text.trim s) = .ok body) :
    (Bare s → ∃ expr, body = [.emit expr] ∧ Template.Expr.parse e = .ok expr) ∧
      (¬ Bare s → Template.Expr.parse e = .error .syntaxError) := by
  obtain ⟨hsource, hpair, rfl⟩ := soleExpression?_insideOf hsole
  obtain ⟨expr, rest, rfl, -, hbare, hmarked⟩ :=
    Template.parse_block hfront hpair (hsource ▸ hparse)
  have hiff : Bare s ↔ rest = [] ∧ ¬ EndsInSign (insideOf s) := by
    constructor
    · rintro ⟨-, hback, expr', halone⟩
      rw [hparse] at halone
      cases halone
      exact ⟨rfl, hback⟩
    · rintro ⟨rfl, hback⟩
      exact ⟨hfront, hback, expr, hparse⟩
  constructor
  · intro h
    obtain ⟨rfl, hback⟩ := hiff.mp h
    exact ⟨expr, rfl, hbare ⟨rfl, hback⟩⟩
  · exact fun h => hmarked (hiff.not.mp h)

theorem parse_marked (hsole : soleExpression? s = some e) (hbare : ¬ Bare s)
    (hminus : (insideOf s).head? ≠ some '-') {body : List Template.Stmt}
    (hparse : Template.parse (Text.trim s) = .ok body) :
    Template.Expr.parse e = .error .syntaxError := by
  by_cases hfront : ∀ c ∈ (insideOf s).head?, ¬ IsSign c
  · exact (parse_unsigned hsole hfront hparse).2 hbare
  · obtain ⟨-, hpair, rfl⟩ := soleExpression?_insideOf hsole
    simp only [not_forall, not_not] at hfront
    obtain ⟨c, hc, rfl | rfl⟩ := hfront
    · exact absurd hc hminus
    · exact Template.parse_plus hc hpair

/-- With blanks beside its marks, a block has no signs of its own. -/
theorem parse_blockOf (hsole : soleExpression? s = some e) {body : List Template.Stmt}
    (hparse : Template.parse (blockOf e) = .ok body) :
    ∃ expr, body = [.emit expr] ∧ Template.Expr.parse e = .ok expr := by
  obtain ⟨-, hpair, rfl⟩ := soleExpression?_insideOf hsole
  generalize insideOf s = inside at hpair hparse ⊢
  have hsource : blockOf (Text.trim (String.ofList inside)) = String.ofList
      (['{', '{'] ++ (' ' :: (Text.trimChars inside ++ [' '])) ++ ['}', '}']) := by
    rw [← String.toList_inj]
    simp [blockOf, Text.trim]
  have htrim : Text.trim (String.ofList (' ' :: (Text.trimChars inside ++ [' '])))
      = Text.trim (String.ofList inside) := by
    have hblank : ∀ c ∈ [' '], Text.isBlank c = true := by simp [Text.isBlank]
    have hbetween := Text.trimChars_between hblank hblank (Text.trimChars inside)
    rw [Text.trimChars_trimChars] at hbetween
    rw [Text.trim, String.toList_ofList, Text.trim, String.toList_ofList]
    exact congrArg String.ofList hbetween
  have hpair' : ¬ ['}', '}'] <:+: ' ' :: (Text.trimChars inside ++ [' ']) := by
    rw [pair_infix_cons_iff, List.infix_concat_iff]
    rintro (⟨hbrace, -⟩ | ⟨lead, heq⟩ | hinner)
    · exact absurd hbrace (by decide)
    · exact absurd (congrArg List.getLast? heq) (by simp)
    · exact hpair (hinner.trans (Text.infix_trimChars inside))
  have hlast : (' ' :: (Text.trimChars inside ++ [' '])).getLast? = some ' ' := by
    simp [List.getLast?_cons]
  rw [hsource] at hparse
  obtain ⟨expr, rest, rfl, hrest, hbare, -⟩ :=
    Template.parse_block (by simp [IsSign]) hpair' hparse
  obtain rfl : rest = [] := hrest.resolve_right (by simp [hlast])
  refine ⟨expr, rfl, htrim ▸ hbare ⟨rfl, ?_⟩⟩
  simp [EndsInSign, hlast, IsSign]

/-- A tag that is one block is displayed as its template is rendered if the marks of the block are
bare. Else their signs, and a brace behind the block, are read as part of the expression, where a
minus in front is an operator and nothing else can be read. So in any case the tag is displayed as
the block of that expression, with blanks around it, is rendered. -/
theorem resolve_as_rendered (hsole : soleExpression? s = some e) (vars : Bindings) :
    (∀ text, Shows (Text.trim s) vars text →
      (Bare s → ResolvesAs s vars text) ∧
      (¬ Bare s → (insideOf s).head? ≠ some '-' →
        (Tag.str s).resolve vars = .error (.template s .syntaxError))) ∧
    ∀ text, Shows (blockOf e) vars text → ResolvesAs s vars text := by
  refine ⟨fun text h => ?_, fun text h => ?_⟩
  · obtain ⟨body, hparse, -⟩ := Except.bind_eq_ok_iff.mp h.render
    constructor
    · intro hbare
      obtain ⟨expr, rfl, hexpr⟩ := (parse_unsigned hsole hbare.front hparse).1 hbare
      exact .of_shows hsole hexpr hparse h
    · exact fun hbare hminus =>
        resolve_of_parse_error hsole (parse_marked hsole hbare hminus hparse) vars
  · obtain ⟨body, hparse, -⟩ := Except.bind_eq_ok_iff.mp h.render
    obtain ⟨expr, rfl, hexpr⟩ := parse_blockOf hsole hparse
    exact .of_shows hsole hexpr hparse h

theorem resolve_as_rendered_role :
    ∃ tag, (Tag.str " {{ role }}").resolve [("role", .str "web")] = .ok (.single tag) ∧
      tag.display = "web" := by
  have hsole : soleExpression? " {{ role }}" = some "role" := by decide +kernel
  have hshows : Shows (Text.trim " {{ role }}") [("role", .str "web")] "web" := by decide +kernel
  have hinside : insideOf " {{ role }}" = [' ', 'r', 'o', 'l', 'e', ' '] := by decide +kernel
  have hblock :
      (Template.parse (Text.trim " {{ role }}")).toOption.any Template.isBlock = true := by
    decide +kernel
  obtain ⟨body, hbody, hisBlock⟩ := (Option.any_eq_true _ _).mp hblock
  obtain ⟨expr, rfl⟩ := Template.isBlock_iff.mp hisBlock
  have hbare : Bare " {{ role }}" :=
    ⟨by simp [hinside, IsSign], by simp [hinside, EndsInSign, IsSign],
      expr, Except.toOption_eq_some_iff.mp hbody⟩
  exact ((resolve_as_rendered hsole _).1 _ hshows).1 hbare

/-- A minus that takes the blanks beside a mark negates a number, or makes the expression one that
cannot be read. -/
theorem not_resolve_as_rendered_signed :
    (soleExpression? "{{-1}}" = some "-1" ∧ Shows (Text.trim "{{-1}}") [] "1" ∧
      (Tag.str "{{-1}}").resolve [] = .ok (.single (.int (-1))) ∧ ¬ ResolvesAs "{{-1}}" [] "1") ∧
    (soleExpression? "{{- role -}}" = some "- role -" ∧
      Shows (Text.trim "{{- role -}}") [("role", .str "web")] "web" ∧
      (Tag.str "{{- role -}}").resolve [("role", .str "web")]
        = .error (.template "{{- role -}}" .syntaxError)) := by
  have hminus : (Tag.str "{{-1}}").resolve [] = .ok (.single (.int (-1))) :=
    Except.toOption_eq_some_iff.mp (by decide +kernel)
  refine ⟨⟨by decide +kernel, by decide +kernel, hminus, ?_⟩, by decide +kernel,
    by decide +kernel, Except.error?_eq_some_iff.mp (by decide +kernel)⟩
  rintro ⟨tag, htag, hdisplay⟩
  rw [hminus] at htag
  cases htag
  exact absurd hdisplay (by decide +kernel)

end TaskTags.Templater
