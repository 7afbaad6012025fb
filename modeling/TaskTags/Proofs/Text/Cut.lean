import Mathlib.Data.List.Forall2
import TaskTags.Proofs.Text.Pieces

/-!
# Texts cut at their commas

What is left of a text when it is trimmed, and which pieces it has, said without the functions that
compute them.
-/

namespace TaskTags.Text

/-- A text without a blank at either of its ends. -/
def Trimmed (s : String) : Prop :=
  (∀ c, s.toList.head? = some c → isBlank c = false) ∧
    ∀ c, s.toList.getLast? = some c → isBlank c = false

def TrimsTo (s t : String) : Prop :=
  Trimmed t ∧ ∃ front back, s.toList = front ++ (t.toList ++ back) ∧
    (∀ c ∈ front, isBlank c = true) ∧ ∀ c ∈ back, isBlank c = true

/-- The pieces of a text: it is cut at all its commas, the parts are trimmed, and those of which
nothing is left are dropped. -/
def HasPieces (s : String) (pieces : List String) : Prop :=
  ∃ parts trimmed : List String, parts ≠ [] ∧ s = String.intercalate "," parts ∧
    (∀ part ∈ parts, ',' ∉ part.toList) ∧ List.Forall₂ TrimsTo parts trimmed ∧
    pieces = trimmed.filter (· ≠ "")

theorem trimmed_trim (s : String) : Trimmed (trim s) := by
  rw [Trimmed, trim, String.toList_ofList]
  refine ⟨fun c hc => ?_, fun c hc => not_isBlank_of_getLast?_trimChars hc⟩
  -- Trimming the end keeps the first character of what is left.
  obtain ⟨back, hback⟩ : trimChars s.toList <+: trimStart s.toList :=
    List.rdropWhile_prefix isBlank (trimStart s.toList)
  have hhead : (s.toList.dropWhile isBlank).head? = some c := by
    rw [← trimStart, ← hback, List.head?_append, hc, Option.some_or]
  have hstops := List.head?_dropWhile_not isBlank s.toList
  rwa [hhead] at hstops

theorem trim_eq_self_iff {s : String} : trim s = s ↔ Trimmed s := by
  refine ⟨fun h => h ▸ trimmed_trim s, ?_⟩
  rintro ⟨hhead, hlast⟩
  have hstart : trimStart s.toList = s.toList := by
    rw [trimStart]
    cases hs : s.toList with
    | nil => rfl
    | cons c cs =>
        rw [hs] at hhead
        exact List.dropWhile_cons_of_neg (by simp [hhead c rfl])
  have hend : trimEnd s.toList = s.toList := by
    apply List.rdropWhile_eq_self_iff.mpr
    intro hne
    simp [hlast _ (List.getLast?_eq_some_getLast hne)]
  rw [trim, trimChars, hstart, hend, String.ofList_toList]

theorem trim_eq_iff {s t : String} : trim s = t ↔ TrimsTo s t := by
  constructor
  · rintro rfl
    refine ⟨trimmed_trim s, ?_⟩
    rw [trim, String.toList_ofList]
    exact exists_append_trimChars s.toList
  · rintro ⟨htrimmed, front, back, hs, hfront, hback⟩
    rw [trim, hs, trimChars_between hfront hback, ← trim, trim_eq_self_iff.mpr htrimmed]

theorem forall₂_trimsTo_iff {parts trimmed : List String} :
    List.Forall₂ TrimsTo parts trimmed ↔ parts.map trim = trimmed := by
  have heq : List.Forall₂ (fun s t => trim s = t) parts trimmed ↔ parts.map trim = trimmed := by
    rw [← List.forall₂_map_left_iff, List.forall₂_eq_eq_eq]
  simpa only [trim_eq_iff] using heq

theorem commaPieces_join {parts : List String} (hne : parts ≠ [])
    (hcomma : ∀ part ∈ parts, ',' ∉ part.toList) :
    commaPieces (String.intercalate "," parts) = (parts.map trim).filter (· ≠ "") := by
  have hsplit : (String.intercalate "," parts).toList.splitOn ',' = parts.map String.toList := by
    rw [String.toList_intercalate]
    apply List.splitOn_intercalate
    · intro chars hchars
      obtain ⟨part, hpart, rfl⟩ := List.mem_map.mp hchars
      exact hcomma part hpart
    · simpa using hne
  have hkept : ∀ chunks : List (List Char), (chunks.filter (· ≠ [])).map String.ofList
      = (chunks.map String.ofList).filter (· ≠ "") := by
    intro chunks
    rw [List.filter_map]
    simp only [Function.comp_def, ne_eq, String.ofList_eq_empty_iff]
  calc commaPieces (String.intercalate "," parts)
      = (((parts.map String.toList).map trimChars).filter (· ≠ [])).map String.ofList := by
        rw [commaPieces, hsplit]
    _ = (((parts.map String.toList).map trimChars).map String.ofList).filter (· ≠ "") := hkept _
    _ = (parts.map trim).filter (· ≠ "") := by
        rw [List.map_map, List.map_map]
        rfl

theorem exists_parts (s : String) :
    ∃ parts : List String, parts ≠ [] ∧ s = String.intercalate "," parts ∧
      ∀ part ∈ parts, ',' ∉ part.toList := by
  refine ⟨(s.toList.splitOn ',').map String.ofList, ?_, ?_, ?_⟩
  · simp [List.splitOn_eq_splitOnP, List.splitOnP_ne_nil]
  · apply String.toList_inj.mp
    rw [String.toList_intercalate, List.map_map]
    simp [Function.comp_def, List.intercalate_splitOn]
  · intro part hpart
    obtain ⟨chars, hchars, rfl⟩ := List.mem_map.mp hpart
    rw [String.toList_ofList]
    exact not_mem_of_mem_splitOn hchars

theorem commaPieces_eq_iff {s : String} {pieces : List String} :
    commaPieces s = pieces ↔ HasPieces s pieces := by
  constructor
  · rintro rfl
    obtain ⟨parts, hne, rfl, hcomma⟩ := exists_parts s
    exact ⟨parts, parts.map trim, hne, rfl, hcomma, forall₂_trimsTo_iff.mpr rfl,
      commaPieces_join hne hcomma⟩
  · rintro ⟨parts, trimmed, hne, rfl, hcomma, htrimmed, rfl⟩
    rw [commaPieces_join hne hcomma, forall₂_trimsTo_iff.mp htrimmed]

end TaskTags.Text
