import TaskTags.Proofs.Text.Pieces

/-!
# Displayed tags

The tags of a set, displayed, are read again as far as each of them is read from its own text. This
holds of all sets that are read from texts, so that different ones are displayed differently.
-/

namespace TaskTags

namespace Text

theorem commaPieces_comma (s t : String) :
    commaPieces (s ++ "," ++ t) = commaPieces s ++ commaPieces t := by
  have hchars : (s ++ "," ++ t).toList = s.toList ++ ',' :: t.toList := by
    simp
  rw [commaPieces, hchars, List.splitOn_append_cons_self, List.map_append, List.filter_append,
    List.map_append]
  rfl

theorem commaPieces_append (s t : String) :
    commaPieces (s ++ ", " ++ t) = commaPieces s ++ commaPieces t := by
  have hcomma : s ++ ", " ++ t = s ++ "," ++ (" " ++ t) := by
    apply String.toList_inj.mp
    simp
  -- The blank behind the comma is at the start of the first piece, where it is trimmed.
  have hblank : ((' ' :: t.toList).splitOn ',').map trimChars
      = (t.toList.splitOn ',').map trimChars := by
    rw [List.splitOn_eq_splitOnP, List.splitOn_eq_splitOnP, List.splitOnP_cons_eq_if_modifyHead,
      if_neg (by decide)]
    obtain ⟨first, rest, hsplit⟩ :=
      List.exists_cons_of_ne_nil (List.splitOnP_ne_nil (· == ',') t.toList)
    rw [hsplit]
    rfl
  have hpieces : commaPieces (" " ++ t) = commaPieces t := by
    rw [commaPieces, String.toList_append]
    exact congrArg (fun chunks => (chunks.filter (· ≠ [])).map String.ofList) hblank
  rw [hcomma, commaPieces_comma, hpieces]

/-- Texts joined by comma and blank have the pieces of each. -/
theorem commaPieces_intercalate (texts : List String) :
    commaPieces (String.intercalate ", " texts) = texts.flatMap commaPieces := by
  induction texts with
  | nil => decide
  | cons s rest ih =>
      cases rest with
      | nil =>
          rw [List.flatMap_singleton]
          rfl
      | cons t rest =>
          have hjoined : String.intercalate ", " (s :: t :: rest)
              = s ++ ", " ++ String.intercalate ", " (t :: rest) := by
            apply String.toList_inj.mp
            simp only [String.toList_append, String.toList_intercalate, List.map_cons,
              List.intercalate_cons_cons]
          rw [hjoined, commaPieces_append, ih]
          rfl

/-- A text is a piece of itself exactly if there is nothing in it to split or to trim. -/
theorem mem_commaPieces_self_iff {s : String} :
    s ∈ commaPieces s ↔ s ≠ "" ∧ ',' ∉ s.toList ∧ trim s = s := by
  constructor
  · intro h
    obtain ⟨cs, hcs, rfl⟩ := List.mem_map.mp h
    obtain ⟨htrimmed, hne⟩ := List.mem_filter.mp hcs
    obtain ⟨chunk, hchunk, rfl⟩ := List.mem_map.mp htrimmed
    refine ⟨?_, ?_, ?_⟩
    · intro hempty
      have hnil := congrArg String.toList hempty
      rw [String.toList_ofList] at hnil
      simp [hnil] at hne
    · rw [String.toList_ofList]
      intro hmem
      exact not_mem_of_mem_splitOn hchunk ((trimChars_sublist chunk).subset hmem)
    · rw [trim, String.toList_ofList, trimChars_trimChars]
  · rintro ⟨hne, hcomma, htrim⟩
    have hchars : trimChars s.toList = s.toList := by
      have hlist := congrArg String.toList htrim
      rwa [trim, String.toList_ofList] at hlist
    have hnil : s.toList ≠ [] := by
      intro hnil
      exact hne (String.toList_inj.mp hnil)
    rw [commaPieces, List.splitOn_eq_singleton hcomma, List.map_singleton, hchars]
    simp [hnil]

end Text

/-- A tag that its own text is read as: a text that is not empty, has no comma in it and no blank at
its ends. -/
def Tag.Readable : Tag → Prop
  | .int _ => False
  | .str s => s ≠ "" ∧ ',' ∉ s.toList ∧ Text.trim s = s

instance Tag.decidableReadable : (tag : Tag) → Decidable tag.Readable
  | .int _ => .isFalse id
  | .str s => inferInstanceAs (Decidable (s ≠ "" ∧ ',' ∉ s.toList ∧ Text.trim s = s))

namespace TagSet

theorem mem_ofValues {tag : Tag} {values : List String} :
    tag ∈ ofValues values ↔ ∃ value ∈ values, ∃ piece ∈ Text.commaPieces value, .str piece = tag := by
  rw [ofValues, mem_ofList, List.mem_map]
  simp only [List.mem_flatMap]
  constructor
  · rintro ⟨piece, ⟨value, hvalue, hpiece⟩, rfl⟩
    exact ⟨value, hvalue, piece, hpiece, rfl⟩
  · rintro ⟨value, hvalue, piece, hpiece, rfl⟩
    exact ⟨piece, ⟨value, hvalue, hpiece⟩, rfl⟩

theorem readable_of_mem_ofValues {tag : Tag} {values : List String} (h : tag ∈ ofValues values) :
    tag.Readable := by
  obtain ⟨value, -, piece, hpiece, rfl⟩ := mem_ofValues.mp h
  refine Text.mem_commaPieces_self_iff.mp ?_
  rw [Text.commaPieces_of_mem hpiece]
  exact List.mem_singleton_self piece

theorem mem_ofValues_display_iff {tag : Tag} : tag ∈ ofValues [tag.display] ↔ tag.Readable := by
  refine ⟨readable_of_mem_ofValues, fun h => ?_⟩
  cases tag with
  | int n => exact h.elim
  | str s =>
      refine mem_ofValues.mpr ⟨s, List.mem_singleton_self s, s, ?_, rfl⟩
      exact Text.mem_commaPieces_self_iff.mpr h

theorem ofValues_comma (s t : String) :
    ofValues [s ++ "," ++ t] = (ofValues [s]).union (ofValues [t]) := by
  apply ext
  intro tag
  simp only [mem_union, mem_ofValues, List.mem_singleton, exists_eq_left, Text.commaPieces_comma,
    List.mem_append, or_and_right, exists_or]

/-- The tags that a displayed set is read as are those that its tags are read as one by one. -/
theorem ofValues_display (s : TagSet) :
    ofValues [s.display] = ofValues (s.toList.map Tag.display) := by
  rw [ofValues, ofValues, List.flatMap_singleton, display, Text.commaPieces_intercalate]

theorem commaPieces_display {tag : Tag} (h : tag.Readable) :
    (Text.commaPieces tag.display).map Tag.str = [tag] := by
  cases tag with
  | int n => exact h.elim
  | str s =>
      have hmem : s ∈ Text.commaPieces s := Text.mem_commaPieces_self_iff.mpr h
      show (Text.commaPieces s).map Tag.str = [.str s]
      rw [Text.commaPieces_of_mem hmem, List.map_singleton]

theorem ofValues_display_of_readable {s : TagSet} (h : ∀ tag ∈ s, tag.Readable) :
    ofValues [s.display] = s := by
  have hpieces : (s.toList.flatMap fun tag => (Text.commaPieces tag.display).map Tag.str)
      = s.toList := by
    rw [List.flatMap_congr fun tag htag => commaPieces_display (h tag htag),
      List.flatMap_singleton']
  apply ext
  intro tag
  rw [ofValues_display, ofValues, mem_ofList, List.flatMap_map, List.map_flatMap, hpieces, mem_def]

/-- What is read from texts is read again from its display. -/
theorem ofValues_display_ofValues (values : List String) :
    ofValues [(ofValues values).display] = ofValues values := by
  apply ofValues_display_of_readable
  intro tag htag
  exact readable_of_mem_ofValues htag

/-- Sets that are read from texts are equal if they are displayed alike. -/
theorem display_ofValues_inj {values others : List String} :
    (ofValues values).display = (ofValues others).display ↔ ofValues values = ofValues others := by
  refine ⟨fun h => ?_, congrArg display⟩
  calc ofValues values = ofValues [(ofValues values).display] :=
        (ofValues_display_ofValues values).symm
    _ = ofValues [(ofValues others).display] := by rw [h]
    _ = ofValues others := ofValues_display_ofValues others

end TagSet
end TaskTags
