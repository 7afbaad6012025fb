import Mathlib.Data.List.Basic
import TaskTags.Decimal.Digits
import TaskTags.Diff.Hunk

/-!
# Unified diffs

A unified diff as its reader sees it: a text with two header lines and hunks, each under a line with
its ranges in both texts. What such a diff says, and how it is applied to a text, does not depend on
how it was made.
-/

namespace TaskTags.Diff

/-- The two texts of a diff. -/
inductive Side where
  | old
  | new
deriving DecidableEq

def Side.pick {α : Type} (old new : α) : Side → α
  | .old => old
  | .new => new

@[simp]
theorem Side.pick_old {α : Type} (old new : α) : Side.pick old new .old = old := rfl

@[simp]
theorem Side.pick_new {α : Type} (old new : α) : Side.pick old new .new = new := rfl

def Mark.isOf : Side → Mark → Bool
  | _, .same => true
  | .old, .deleted => true
  | .new, .inserted => true
  | .old, .inserted => false
  | .new, .deleted => false

namespace Unified

/-- A number of lines, behind a number of others. -/
structure Range where
  start : Nat
  count : Nat

def Range.stop (range : Range) : Nat := range.start + range.count

/-- A hunk with the ranges that its header states, and its marked lines. -/
structure Hunk where
  ranges : Side → Range
  lines : List (Mark × String)

namespace Hunk

def textOf (side : Side) (h : Hunk) : List String :=
  (h.lines.filter fun l => l.1.isOf side).map Prod.snd

def IsChanged (h : Hunk) : Prop :=
  ∃ l ∈ h.lines, l.1 ≠ .same

end Hunk

/-- How many equal lines there are in front of each changed line, behind the one before it, and
behind the last changed line. -/
def contextRuns (lines : List (Mark × String)) : List Nat :=
  (lines.splitOnP fun l => l.1 != .same).map List.length

/-- The lines of a text that are outside of the hunks: those in front of each hunk, and those behind
the last one. -/
def outside (side : Side) (text : List String) : Nat → List Hunk → List (List String)
  | start, [] => [text.drop start]
  | start, h :: hunks =>
    (text.take (h.ranges side).start).drop start ::
      outside side text (h.ranges side).stop hunks

/-- A hunk has changed lines, at most `radius` equal lines at each of its ends, and at most twice as
many between two changes. At an end it has fewer than `radius` only where the texts start or end. -/
def InContext (radius : Nat) (texts : Side → List String) (h : Hunk) : Prop :=
  ∃ lead inner trail, contextRuns h.lines = lead :: (inner ++ [trail]) ∧
    (∀ n ∈ inner, n ≤ 2 * radius) ∧
    lead ≤ radius ∧ (lead = radius ∨ ∀ side, (h.ranges side).start = 0) ∧
    trail ≤ radius ∧ (trail = radius ∨ ∀ side, (h.ranges side).stop = (texts side).length)

/-- Hunks tell two texts apart: each shows the lines of both texts at the ranges that it states, the
ranges follow each other, and the texts have the same lines outside of them. -/
structure Describes (radius : Nat) (hunks : List Hunk) (texts : Side → List String) : Prop where
  stop_le : ∀ h ∈ hunks, ∀ side, (h.ranges side).stop ≤ (texts side).length
  count : ∀ h ∈ hunks, ∀ side, (h.textOf side).length = (h.ranges side).count
  shown : ∀ h ∈ hunks, ∀ side,
    ((texts side).drop (h.ranges side).start).take (h.ranges side).count = h.textOf side
  ordered : ∀ side, hunks.Pairwise fun h h' => (h.ranges side).stop < (h'.ranges side).start
  outside : outside .old (texts .old) 0 hunks = outside .new (texts .new) 0 hunks
  context : ∀ h ∈ hunks, InContext radius texts h

/-! ## Reading a diff -/

/-- The lines of a text that ends each of them. -/
def lines? (text : String) : Option (List String) :=
  let pieces := text.toList.splitOn '\n'
  if pieces.getLast? = some [] then some (pieces.dropLast.map String.ofList) else none

def number? (cs : List Char) : Option Nat :=
  if !cs.isEmpty && cs.all Decimal.isDigit then some (Decimal.natOf cs) else none

/-- The range of some lines, the first of them counted from one; a range without lines states the
line in front of it. -/
def Range.ofLines? (first count : Nat) : Option Range :=
  match first, count with
  | first, 0 => some ⟨first, 0⟩
  | first + 1, count => some ⟨first, count⟩
  | 0, _ => none

/-- A range without number of lines has one. -/
def Range.ofChars? (cs : List Char) : Option Range :=
  match cs.splitOn ',' with
  | [first] => do Range.ofLines? (← number? first) 1
  | [first, count] => do Range.ofLines? (← number? first) (← number? count)
  | _ => none

def header? (line : String) : Option (Side → Range) :=
  match line.toList.splitOn ' ' with
  | [['@', '@'], '-' :: old, '+' :: new, ['@', '@']] => do
    Side.pick (← Range.ofChars? old) (← Range.ofChars? new)
  | _ => none

def markedLine? (line : String) : Option (Mark × String) :=
  match line.toList with
  | ' ' :: cs => some (.same, String.ofList cs)
  | '-' :: cs => some (.deleted, String.ofList cs)
  | '+' :: cs => some (.inserted, String.ofList cs)
  | _ => none

def body? : List String → Option (List (Mark × String) × List Hunk)
  | [] => some ([], [])
  | line :: rest => do
    let (lines, hunks) ← body? rest
    match markedLine? line with
    | some marked => some (marked :: lines, hunks)
    | none =>
      let ranges ← header? line
      some ([], ⟨ranges, lines⟩ :: hunks)

/-- The hunks of a diff under its two header lines. -/
def hunks? (diff : String) : Option (List Hunk) :=
  match lines? diff with
  | some ("--- before" :: "+++ after" :: rest) =>
    match body? rest with
    | some ([], hunks) => some hunks
    | _ => none
  | _ => none

/-! ## Applying a diff -/

/-- Replaces the old lines of each hunk with its new ones. `start` lines of the text are done. -/
def patch? (start : Nat) : List Hunk → List String → Option (List String)
  | [], text => some text
  | h :: hunks, text =>
    let range := h.ranges .old
    let front := text.take (range.start - start)
    let rest := text.drop (range.start - start)
    if start ≤ range.start && (h.textOf .old).isPrefixOf rest then
      (patch? range.stop hunks (rest.drop range.count)).map (front ++ h.textOf .new ++ ·)
    else none

def patchText? (diff text : String) : Option String := do
  let hunks ← hunks? diff
  let lines ← patch? 0 hunks (← lines? text)
  String.join (lines.map (· ++ "\n"))

end Unified
end TaskTags.Diff
