import TaskTags.Decimal.Digits
import TaskTags.Text.Order

/-!
Tags. A tag is an integer or a text, and the integer 1 is another tag than the text `1`. Integers
come before texts, texts in the order of their characters.
-/

namespace TaskTags

inductive Tag where
  | int (value : Int)
  | str (value : String)
deriving DecidableEq, Inhabited

namespace Tag

def lt : Tag → Tag → Bool
  | .int a, .int b => a < b
  | .int _, .str _ => true
  | .str _, .int _ => false
  | .str a, .str b => Text.precedes a b

instance : LT Tag := ⟨fun a b => a.lt b = true⟩

instance (a b : Tag) : Decidable (a < b) :=
  inferInstanceAs (Decidable (a.lt b = true))

@[simp]
theorem int_lt_int {a b : Int} : Tag.int a < Tag.int b ↔ a < b := by
  show Tag.lt _ _ = true ↔ _
  simp [lt]

@[simp]
theorem str_lt_str {a b : String} : Tag.str a < Tag.str b ↔ Text.precedes a b = true := Iff.rfl

@[simp]
theorem int_lt_str {a : Int} {b : String} : Tag.int a < Tag.str b := rfl

@[simp]
theorem not_str_lt_int {a : String} {b : Int} : ¬ Tag.str a < Tag.int b := by
  show ¬ Tag.lt _ _ = true
  simp [lt]

theorem lt_irrefl (a : Tag) : ¬ a < a := by
  cases a with
  | int n => simp
  | str s => simp [Text.precedes_irrefl]

theorem lt_trans {a b c : Tag} (hab : a < b) (hbc : b < c) : a < c := by
  cases a <;> cases b <;> cases c <;> simp_all
  · omega
  · exact Text.precedes_trans hab hbc

theorem lt_trichotomy (a b : Tag) : a < b ∨ a = b ∨ b < a := by
  cases a <;> cases b <;> simp
  · omega
  · exact Text.precedes_trichotomy _ _

/-- The text that stands for a tag; the integer and the text of equal spelling share it. -/
def display : Tag → String
  | .int n => Decimal.intText n
  | .str s => s

def always : Tag := .str "always"
def never : Tag := .str "never"
def tagged : Tag := .str "tagged"
def untagged : Tag := .str "untagged"
def all : Tag := .str "all"

def special : List Tag := [always, never, tagged, untagged, all]

def isSpecial (tag : Tag) : Bool :=
  special.contains tag

end Tag
end TaskTags
