import TaskTags.Json.Printer
import TaskTags.Json.Reader
import TaskTags.Proofs.Json.Token

/-!
# Reading printed values

A value printed on one line or on many has the same tokens, and from these it is read again.
-/

namespace TaskTags.Json

mutual
def tokens : Json → List Token
  | .null => [.scalar .null]
  | .bool b => [.scalar (.bool b)]
  | .num n => [.scalar (.num n)]
  | .str s => [.scalar (.str s)]
  | .arr [] => [.beginArray, .endArray]
  | .arr (v :: rest) => .beginArray :: (tokens v ++ (itemTokens rest ++ [.endArray]))
  | .obj [] => [.beginObject, .endObject]
  | .obj ((k, v) :: rest) =>
    .beginObject :: .scalar (.str k) :: .colon :: (tokens v ++ (fieldTokens rest ++ [.endObject]))

def itemTokens : List Json → List Token
  | [] => []
  | v :: rest => .comma :: (tokens v ++ itemTokens rest)

def fieldTokens : List (String × Json) → List Token
  | [] => []
  | (k, v) :: rest => .comma :: .scalar (.str k) :: .colon :: (tokens v ++ fieldTokens rest)
end

/-- Values without parts that are read from their own texts: the integers are those of 64 bits. -/
inductive ReadableScalar : Json → Prop where
  | null : ReadableScalar .null
  | bool (b : Bool) : ReadableScalar (.bool b)
  | int {n : Int} (fits : inIntRange n = true) : ReadableScalar (.num (.int n))
  | float {x : Binary64} (exact : (Number.float x).Exact) : ReadableScalar (.num (.float x))
  | str (s : String) : ReadableScalar (.str s)

/-- Values with no more than a number of arrays and objects in each other. -/
inductive Readable : Nat → Json → Prop where
  | scalar {depth : Nat} {v : Json} (h : ReadableScalar v) : Readable depth v
  | arr {depth : Nat} {items : List Json} (h : ∀ v ∈ items, Readable depth v) :
      Readable (depth + 1) (.arr items)
  | obj {depth : Nat} {fields : List (String × Json)}
      (h : ∀ field ∈ fields, Readable depth field.2) : Readable (depth + 1) (.obj fields)

theorem Readable.mono {depth larger : Nat} {v : Json} (h : Readable depth v)
    (hle : depth ≤ larger) : Readable larger v := by
  induction h generalizing larger with
  | scalar h => exact .scalar h
  | arr _ ih =>
      obtain ⟨larger, rfl⟩ : ∃ n, larger = n + 1 := ⟨larger - 1, by omega⟩
      exact .arr fun v hv => ih v hv (by omega)
  | obj _ ih =>
      obtain ⟨larger, rfl⟩ : ∃ n, larger = n + 1 := ⟨larger - 1, by omega⟩
      exact .obj fun field hfield => ih field hfield (by omega)

theorem readable_ofStrings (depth : Nat) (texts : List String) :
    Readable (depth + 1) (ofStrings texts) := by
  refine .arr fun v hv => ?_
  obtain ⟨text, -, rfl⟩ := List.mem_map.mp hv
  exact .scalar (.str text)

namespace ReadableScalar

variable {v : Json} (h : ReadableScalar v)

include h

theorem tokens_eq : v.tokens = [.scalar v] := by
  cases h <;> rw [tokens]

theorem prettyChars_eq (width level : Nat) : v.prettyChars width level = v.compactChars := by
  cases h <;> rw [prettyChars, compactChars]

theorem spells : Spells v.compactChars v.tokens := by
  rw [h.tokens_eq]
  cases h with
  | null =>
      rw [compactChars]
      exact .null
  | bool b =>
      rw [compactChars]
      exact .bool b
  | int fits =>
      rw [compactChars]
      exact .number (Number.exact_int fits)
  | float exact =>
      rw [compactChars]
      exact .number exact
  | str s =>
      rw [compactChars]
      exact .quote s

end ReadableScalar

variable {depth : Nat} {v : Json} {items : List Json} {fields : List (String × Json)}

/-! ## The tokens of the text on one line -/

theorem spells_compactItems {v : Json}
    (h : ∀ w ∈ v :: items, Spells w.compactChars w.tokens) :
    Spells (compactItems (v :: items)) (v.tokens ++ itemTokens items) := by
  induction items generalizing v with
  | nil =>
      rw [compactItems, itemTokens, List.append_nil]
      exact h v List.mem_cons_self
  | cons w rest ih =>
      have hrest := ih fun u hu => h u (List.mem_cons_of_mem v hu)
      rw [compactItems, itemTokens]
      exact (h v List.mem_cons_self).append (hrest.cons fun _ => rfl) (stops_cons rfl)

theorem spells_compactFields {k : String}
    (h : ∀ field ∈ (k, v) :: fields, Spells field.2.compactChars field.2.tokens) :
    Spells (compactFields ((k, v) :: fields))
      (.scalar (.str k) :: .colon :: (v.tokens ++ fieldTokens fields)) := by
  have hv : Spells v.compactChars v.tokens := h (k, v) List.mem_cons_self
  induction fields generalizing k v with
  | nil =>
      rw [compactFields, fieldTokens, List.append_nil]
      exact (Spells.quote k).append (hv.cons fun _ => rfl) (stops_cons rfl)
  | cons field rest ih =>
      obtain ⟨l, w⟩ := field
      have hrest := ih (fun u hu => h u (List.mem_cons_of_mem (k, v) hu))
        (h (l, w) (List.mem_cons_of_mem (k, v) List.mem_cons_self))
      rw [compactFields, fieldTokens]
      exact (Spells.quote k).append
        ((hv.append (hrest.cons fun _ => rfl) (stops_cons rfl)).cons fun _ => rfl) (stops_cons rfl)

theorem Readable.spells_compact (h : Readable depth v) : Spells v.compactChars v.tokens := by
  induction h with
  | scalar h => exact h.spells
  | @arr _ items _ ih =>
      have hclose : Spells [']'] [.endArray] := spells_nil.cons fun _ => rfl
      cases items with
      | nil =>
          rw [compactChars, compactItems, tokens]
          exact hclose.cons fun _ => rfl
      | cons v rest =>
          rw [compactChars, tokens, ← List.append_assoc]
          exact ((spells_compactItems ih).append hclose (stops_cons rfl)).cons fun _ => rfl
  | @obj _ fields _ ih =>
      have hclose : Spells ['}'] [.endObject] := spells_nil.cons fun _ => rfl
      cases fields with
      | nil =>
          rw [compactChars, compactFields, tokens]
          exact hclose.cons fun _ => rfl
      | cons field rest =>
          obtain ⟨k, v⟩ := field
          rw [compactChars, tokens]
          have hfields := (spells_compactFields ih).append hclose (stops_cons rfl)
          simp only [List.cons_append, List.append_assoc] at hfields
          exact hfields.cons fun _ => rfl

/-! ## The tokens of the text on many lines -/

variable {width level : Nat}

theorem Spells.newline {text : List Char} {ts : List Token} (h : Spells text ts) :
    Spells (newline width level ++ text) ts := by
  rw [Json.newline, List.cons_append]
  refine cons_space rfl ?_
  induction width * level with
  | zero => exact h
  | succ n ih => exact ih.cons_space rfl

theorem stops_newline {text : List Char} : Stops (newline width level ++ text) :=
  stops_cons rfl

theorem Spells.member {text : List Char} {ts : List Token} (h : Spells text ts) (k : String) :
    Spells (Json.quote k ++ ':' :: ' ' :: text) (.scalar (.str k) :: .colon :: ts) :=
  (Spells.quote k).append ((h.cons_space rfl).cons fun _ => rfl) (stops_cons rfl)

theorem stops_prettyItems : Stops (prettyItems width level items) := by
  cases items with
  | nil =>
      rw [prettyItems]
      exact stops_nil
  | cons v rest =>
      rw [prettyItems]
      exact stops_cons rfl

theorem stops_prettyFields : Stops (prettyFields width level fields) := by
  cases fields with
  | nil =>
      rw [prettyFields]
      exact stops_nil
  | cons field rest =>
      rw [prettyFields]
      exact stops_cons rfl

theorem spells_prettyItems (h : ∀ v ∈ items, Spells (v.prettyChars width level) v.tokens) :
    Spells (prettyItems width level items) (itemTokens items) := by
  induction items with
  | nil =>
      rw [prettyItems, itemTokens]
      exact spells_nil
  | cons v rest ih =>
      have hv := h v List.mem_cons_self
      have hrest := ih fun w hw => h w (List.mem_cons_of_mem v hw)
      rw [prettyItems, itemTokens, List.append_assoc]
      exact (hv.append hrest stops_prettyItems).newline.cons fun _ => rfl

theorem spells_prettyFields
    (h : ∀ field ∈ fields, Spells (field.2.prettyChars width level) field.2.tokens) :
    Spells (prettyFields width level fields) (fieldTokens fields) := by
  induction fields with
  | nil =>
      rw [prettyFields, fieldTokens]
      exact spells_nil
  | cons field rest ih =>
      obtain ⟨k, v⟩ := field
      have hv := h (k, v) List.mem_cons_self
      have hrest := ih fun field hfield => h field (List.mem_cons_of_mem (k, v) hfield)
      rw [prettyFields, fieldTokens, List.append_assoc, List.append_assoc, List.cons_append,
        List.cons_append]
      exact ((hv.append hrest stops_prettyFields).member k).newline.cons fun _ => rfl

theorem Readable.spells_pretty (h : Readable depth v) (width level : Nat) :
    Spells (v.prettyChars width level) v.tokens := by
  induction h generalizing level with
  | scalar h =>
      rw [h.prettyChars_eq]
      exact h.spells
  | @arr _ items _ ih =>
      have hclose : Spells [']'] [.endArray] := spells_nil.cons fun _ => rfl
      cases items with
      | nil =>
          rw [prettyChars, tokens]
          exact hclose.cons fun _ => rfl
      | cons v rest =>
          have hv := ih v List.mem_cons_self (level + 1)
          have hrest := spells_prettyItems fun w hw => ih w (List.mem_cons_of_mem v hw) (level + 1)
          have hitems : Spells (prettyChars width (level + 1) v ++
                (prettyItems width (level + 1) rest ++ (newline width level ++ [']'])))
              (v.tokens ++ (itemTokens rest ++ [.endArray])) :=
            hv.append (hrest.append hclose.newline stops_newline)
              (stops_prettyItems.append stops_newline)
          rw [prettyChars, tokens]
          simp only [List.append_assoc]
          exact hitems.newline.cons fun _ => rfl
  | @obj _ fields _ ih =>
      have hclose : Spells ['}'] [.endObject] := spells_nil.cons fun _ => rfl
      cases fields with
      | nil =>
          rw [prettyChars, tokens]
          exact hclose.cons fun _ => rfl
      | cons field rest =>
          obtain ⟨k, v⟩ := field
          have hv := ih (k, v) List.mem_cons_self (level + 1)
          have hrest := spells_prettyFields fun field hfield =>
            ih field (List.mem_cons_of_mem (k, v) hfield) (level + 1)
          have hfields : Spells (prettyChars width (level + 1) v ++
                (prettyFields width (level + 1) rest ++ (newline width level ++ ['}'])))
              (v.tokens ++ (fieldTokens rest ++ [.endObject])) :=
            hv.append (hrest.append hclose.newline stops_newline)
              (stops_prettyFields.append stops_newline)
          rw [prettyChars, tokens]
          simp only [List.append_assoc, List.cons_append]
          exact (hfields.member k).newline.cons fun _ => rfl

/-! ## Reading the tokens -/

/-- Tokens that a reader takes as a value wherever it waits for one and has room for it. -/
def ReadsAs (depth : Nat) (ts : List Token) (v : Json) : Prop :=
  ∀ frames phase, phase = .value ∨ phase = .item → frames.length + depth < maxDepth →
    ts.foldlM Reader.take ⟨frames, phase⟩ = Reader.complete v frames

variable {frames : List Frame}

theorem readsAs_scalar (depth : Nat) (v : Json) : ReadsAs depth [.scalar v] v := by
  rintro frames _ (rfl | rfl) _
  · exact bind_pure (Reader.complete v frames)
  · exact bind_pure (Reader.complete v frames)

theorem foldlM_itemTokens (h : ∀ v ∈ items, ReadsAs depth v.tokens v)
    (hdepth : frames.length + 1 + depth < maxDepth) (read : List Json) :
    (itemTokens items).foldlM Reader.take ⟨.array read :: frames, .next⟩
      = some ⟨.array (items.reverse ++ read) :: frames, .next⟩ := by
  induction items generalizing read with
  | nil => rw [itemTokens]; rfl
  | cons v rest ih =>
      have hv := h v List.mem_cons_self (.array read :: frames) .value (.inl rfl) hdepth
      have hrest := ih (fun w hw => h w (List.mem_cons_of_mem v hw)) (v :: read)
      calc (itemTokens (v :: rest)).foldlM Reader.take ⟨.array read :: frames, .next⟩
          = (v.tokens ++ itemTokens rest).foldlM Reader.take ⟨.array read :: frames, .value⟩ := by
            rw [itemTokens]
            rfl
        _ = (itemTokens rest).foldlM Reader.take ⟨.array (v :: read) :: frames, .next⟩ := by
            rw [List.foldlM_append, hv]
            rfl
        _ = some ⟨.array ((v :: rest).reverse ++ read) :: frames, .next⟩ := by
            rw [hrest, List.reverse_cons, List.append_assoc, List.singleton_append]

theorem foldlM_fieldTokens (h : ∀ field ∈ fields, ReadsAs depth field.2.tokens field.2)
    (hdepth : frames.length + 1 + depth < maxDepth) (read : List (String × Json)) :
    (fieldTokens fields).foldlM Reader.take ⟨.object read :: frames, .next⟩
      = some ⟨.object (fields.reverse ++ read) :: frames, .next⟩ := by
  induction fields generalizing read with
  | nil => rw [fieldTokens]; rfl
  | cons field rest ih =>
      obtain ⟨k, v⟩ := field
      have hv := h (k, v) List.mem_cons_self (.member read k :: frames) .value (.inl rfl) hdepth
      have hrest := ih (fun w hw => h w (List.mem_cons_of_mem (k, v) hw)) ((k, v) :: read)
      calc (fieldTokens ((k, v) :: rest)).foldlM Reader.take ⟨.object read :: frames, .next⟩
          = (v.tokens ++ fieldTokens rest).foldlM Reader.take
              ⟨.member read k :: frames, .value⟩ := by
            rw [fieldTokens]
            rfl
        _ = (fieldTokens rest).foldlM Reader.take ⟨.object ((k, v) :: read) :: frames, .next⟩ := by
            rw [List.foldlM_append, hv]
            rfl
        _ = some ⟨.object (((k, v) :: rest).reverse ++ read) :: frames, .next⟩ := by
            rw [hrest, List.reverse_cons, List.append_assoc, List.singleton_append]

/-- Where there is room, an array is entered, and an object. -/
theorem foldlM_begin {phase : Phase} (hphase : phase = .value ∨ phase = .item)
    (hroom : frames.length + 1 < maxDepth) (ts : List Token) :
    List.foldlM Reader.take ⟨frames, phase⟩ (.beginArray :: ts)
        = ts.foldlM Reader.take ⟨.array [] :: frames, .item⟩ ∧
      List.foldlM Reader.take ⟨frames, phase⟩ (.beginObject :: ts)
        = ts.foldlM Reader.take ⟨.object [] :: frames, .member⟩ := by
  have henter : ∀ frame inner, Reader.enter ⟨frames, phase⟩ frame inner
      = some ⟨frame :: frames, inner⟩ := fun _ _ => if_pos hroom
  rw [List.foldlM_cons, List.foldlM_cons]
  obtain rfl | rfl := hphase
  · simp only [Reader.take, Reader.takeValue, henter]
    exact ⟨rfl, rfl⟩
  · simp only [Reader.take, Reader.takeValue, henter]
    exact ⟨rfl, rfl⟩

theorem Readable.readsAs (h : Readable depth v) : ReadsAs depth v.tokens v := by
  induction h with
  | @scalar depth v h =>
      rw [h.tokens_eq]
      exact readsAs_scalar depth v
  | @arr depth items _ ih =>
      intro frames phase hphase hdepth
      have hroom : frames.length + 1 + depth < maxDepth := by omega
      cases items with
      | nil =>
          rw [tokens, (foldlM_begin hphase (by omega) _).1]
          exact bind_pure (Reader.complete (.arr []) frames)
      | cons v rest =>
          have hv := ih v List.mem_cons_self (.array [] :: frames) .item (.inr rfl) hroom
          have hrest := foldlM_itemTokens (fun w hw => ih w (List.mem_cons_of_mem v hw)) hroom [v]
          rw [tokens, (foldlM_begin hphase (by omega) _).1]
          calc (v.tokens ++ (itemTokens rest ++ [Token.endArray])).foldlM Reader.take
                ⟨.array [] :: frames, .item⟩
              = (itemTokens rest ++ [Token.endArray]).foldlM Reader.take
                  ⟨.array [v] :: frames, .next⟩ := by
                rw [List.foldlM_append, hv]
                rfl
            _ = [Token.endArray].foldlM Reader.take
                  ⟨.array (rest.reverse ++ [v]) :: frames, .next⟩ := by
                rw [List.foldlM_append, hrest]
                rfl
            _ = Reader.complete (.arr (rest.reverse ++ [v]).reverse) frames :=
                bind_pure (Reader.complete _ frames)
            _ = Reader.complete (.arr (v :: rest)) frames := by
                rw [List.reverse_append, List.reverse_reverse]
                rfl
  | @obj depth fields _ ih =>
      intro frames phase hphase hdepth
      have hroom : frames.length + 1 + depth < maxDepth := by omega
      cases fields with
      | nil =>
          rw [tokens, (foldlM_begin hphase (by omega) _).2]
          exact bind_pure (Reader.complete (.obj []) frames)
      | cons field rest =>
          obtain ⟨k, v⟩ := field
          have hv := ih (k, v) List.mem_cons_self (.member [] k :: frames) .value (.inl rfl) hroom
          have hrest := foldlM_fieldTokens
            (fun field hfield => ih field (List.mem_cons_of_mem (k, v) hfield)) hroom [(k, v)]
          rw [tokens, (foldlM_begin hphase (by omega) _).2]
          calc List.foldlM Reader.take ⟨.object [] :: frames, .member⟩
                (.scalar (.str k) :: .colon ::
                  (v.tokens ++ (fieldTokens rest ++ [Token.endObject])))
              = (v.tokens ++ (fieldTokens rest ++ [Token.endObject])).foldlM Reader.take
                  ⟨.member [] k :: frames, .value⟩ := rfl
            _ = (fieldTokens rest ++ [Token.endObject]).foldlM Reader.take
                  ⟨.object [(k, v)] :: frames, .next⟩ := by
                rw [List.foldlM_append, hv]
                rfl
            _ = [Token.endObject].foldlM Reader.take
                  ⟨.object (rest.reverse ++ [(k, v)]) :: frames, .next⟩ := by
                rw [List.foldlM_append, hrest]
                rfl
            _ = Reader.complete (.obj (rest.reverse ++ [(k, v)]).reverse) frames :=
                bind_pure (Reader.complete _ frames)
            _ = Reader.complete (.obj ((k, v) :: rest)) frames := by
                rw [List.reverse_append, List.reverse_reverse]
                rfl

theorem Readable.parse?_of_spells (h : Readable depth v) (hdepth : depth < maxDepth) {s : String}
    (htext : Spells s.toList v.tokens) : parse? s = some v := by
  have hread := h.readsAs [] .value (.inl rfl) (by simpa using hdepth)
  rw [parse?, htext.all?]
  simp only [Option.bind_eq_bind, Option.bind_some, Reader.start, hread]
  rfl

theorem Readable.parse?_compact (h : Readable depth v) (hdepth : depth < maxDepth) :
    parse? v.compact = some v := by
  refine h.parse?_of_spells hdepth ?_
  rw [compact, String.toList_ofList]
  exact h.spells_compact

theorem Readable.parse?_pretty (h : Readable depth v) (hdepth : depth < maxDepth) :
    parse? v.pretty = some v := by
  refine h.parse?_of_spells hdepth ?_
  rw [pretty, String.toList_ofList]
  exact h.spells_pretty 2 0

/-- The text may end with the line. -/
theorem Readable.parse?_line (h : Readable depth v) (hdepth : depth < maxDepth) :
    parse? (v.pretty ++ "\n") = some v := by
  have hend : Spells ['\n'] [] := spells_nil.cons_space rfl
  have hline := (h.spells_pretty 2 0).append hend (stops_cons rfl)
  apply h.parse?_of_spells hdepth
  rw [List.append_nil] at hline
  rwa [String.toList_append, pretty, String.toList_ofList]

end TaskTags.Json
