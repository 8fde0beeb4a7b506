import ScriptAtlas.Proofs.Refinement

/-!
The text of a script in its chunks. Splitting a text at line ends and joining the lines are inverse to
each other, so the lines of the chunks are the lines of the script.
-/

namespace ScriptAtlas

namespace Text

/-! ### Lines of a text -/

variable {sep : UInt8}

theorem splitAt_ne_nil (t : Text) : splitAt sep t ≠ [] := by
  fun_cases splitAt sep t <;> simp

theorem splitAt_append (t rest : Text) :
    splitAt sep (t ++ sep :: rest) = splitAt sep t ++ splitAt sep rest := by
  fun_induction splitAt sep t with
  | case1 => simp [splitAt]
  | case2 b t isSep ih => rw [List.cons_append, splitAt, if_pos isSep, ih, List.cons_append]
  | case3 b t notSep none ih => exact absurd none (splitAt_ne_nil t)
  | case4 b t notSep piece pieces split ih =>
      rw [List.cons_append, splitAt, if_neg notSep, ih, split]
      rfl

theorem splitAt_of_not_mem (line : Text) (clean : sep ∉ line) : splitAt sep line = [line] := by
  induction line with
  | nil => rfl
  | cons b line ih =>
      rw [List.mem_cons, not_or] at clean
      rw [splitAt, if_neg (by simpa using Ne.symm clean.1), ih clean.2]

theorem not_mem_of_mem_splitAt (t : Text) : ∀ line ∈ splitAt sep t, sep ∉ line := by
  fun_induction splitAt sep t with
  | case1 => simp
  | case2 b rest isSep ih =>
      rw [List.forall_mem_cons]
      exact ⟨List.not_mem_nil, ih⟩
  | case3 b rest notSep none ih => exact absurd none (splitAt_ne_nil rest)
  | case4 b rest notSep piece pieces split ih =>
      rw [split, List.forall_mem_cons] at ih
      rw [List.forall_mem_cons, List.mem_cons, not_or]
      exact ⟨⟨fun same => notSep (by simp [same]), ih.1⟩, ih.2⟩

theorem join_splitAt (t : Text) : join [sep] (splitAt sep t) = t := by
  fun_induction splitAt sep t with
  | case1 => rfl
  | case2 b rest isSep ih =>
      have some : splitAt sep rest ≠ [] := splitAt_ne_nil rest
      obtain ⟨piece, pieces, split⟩ := List.exists_cons_of_ne_nil some
      rw [split] at ih ⊢
      rw [join, ih, eq_of_beq isSep]
      · rfl
      · simp
  | case3 b rest notSep none ih => exact absurd none (splitAt_ne_nil rest)
  | case4 b rest notSep piece pieces split ih =>
      rw [split] at ih
      rw [← ih]
      cases pieces <;> rfl

theorem splitAt_join (lines : List Text) (nonempty : lines ≠ []) (clean : ∀ line ∈ lines, sep ∉ line) :
    splitAt sep (join [sep] lines) = lines := by
  fun_induction join [sep] lines with
  | case1 => exact absurd rfl nonempty
  | case2 line => exact splitAt_of_not_mem line (clean line List.mem_cons_self)
  | case3 line rest notLast ih =>
      rw [List.forall_mem_cons] at clean
      have more : rest ≠ [] := by
        rintro rfl
        exact notLast rfl
      rw [List.append_assoc, List.singleton_append, splitAt_append, splitAt_of_not_mem line clean.1,
        ih more clean.2, List.singleton_append]

theorem join_inj {xs ys : List Text} (first : ∀ x ∈ xs, x ≠ [] ∧ sep ∉ x)
    (second : ∀ y ∈ ys, y ≠ [] ∧ sep ∉ y) (same : join [sep] xs = join [sep] ys) : xs = ys := by
  have empty : ∀ {zs : List Text}, (∀ z ∈ zs, z ≠ [] ∧ sep ∉ z) → join [sep] zs = [] → zs = [] := by
    intro zs each none
    by_contra some
    have pieces := splitAt_join zs some fun z member => (each z member).2
    rw [none] at pieces
    exact (each [] (pieces ▸ List.mem_singleton_self [])).1 rfl
  by_cases none : xs = []
  · rw [none] at same
    rw [none, empty second same.symm]
  · have some : ys ≠ [] := by
      rintro rfl
      exact none (empty first same)
    rw [← splitAt_join xs none fun x member => (first x member).2, same,
      splitAt_join ys some fun y member => (second y member).2]

theorem join_append {first rest : List Text} (here : first ≠ []) (more : rest ≠ []) :
    join [sep] (first ++ rest) = join [sep] first ++ sep :: join [sep] rest := by
  fun_induction join [sep] first with
  | case1 => exact absurd rfl here
  | case2 piece =>
      rw [List.singleton_append, join, List.append_assoc]
      · rfl
      · exact more
  | case3 piece pieces notLast ih =>
      rw [List.cons_append, join, ih notLast, List.append_assoc, List.append_assoc, List.append_assoc]
      exact fun none => notLast (List.append_eq_nil_iff.mp none).1

end Text

/-! ### Lines of chunks -/

namespace Script

theorem splitLines_clean (content : Text) : ∀ line ∈ splitLines content, (0x0A : UInt8) ∉ line := by
  rw [splitLines]
  split
  · simp
  · exact Text.not_mem_of_mem_splitAt _

theorem join_splitLines (content : Text) :
    Text.join "\n" (splitLines content) = (content.replace "\r\n" "\n").withoutBack "\n" := by
  rw [splitLines]
  split
  · rename_i empty
    rw [List.isEmpty_iff.mp empty]
    decide +kernel
  · exact Text.join_splitAt _

theorem chunks_tile (s : Script) (z : Sizing) : LineRange.Tile 1 s.size (Chunk.ranges (s.chunks z)) := by
  have ranges : Chunk.ranges (s.chunks z) = (s.spans z).map fun span => ⟨span.1 + 1, span.2⟩ := by
    have bare := congrArg Chunk.ranges (chunks_bare s z)
    rwa [Chunk.ranges, Chunk.ranges, List.map_map, List.map_map] at bare
  exact ranges ▸ (spans_tiles s z).tile

end Script

def Chunk.lines (c : Chunk) : List Text :=
  Text.splitAt 0x0A c.content

theorem chunkLines_lines (lines : List Text) (z : Sizing) (clean : ∀ line ∈ lines, (0x0A : UInt8) ∉ line) :
    (chunkLines lines z).flatMap Chunk.lines = lines := by
  have tiles := Script.spans_tiles (Script.ofLines lines) z
  have raws : ∀ lo hi, ((Script.ofLines lines).slice lo hi).map Line.raw =
      (lines.drop lo).take (hi - lo) := by
    intro lo hi
    have shown := Script.readFrom_raw 0 lines
    rw [Script.ofLines_slice_map lines lo hi Line.raw (fun raw => raw) (by rw [shown, List.map_id']),
      List.map_id']
  -- what each span holds comes back from the chunk's content
  have each : ∀ span ∈ (Script.ofLines lines).spans z,
      (Chunk.ofLines (Script.ofLines lines) span.1 span.2).lines =
        ((Script.ofLines lines).slice span.1 span.2).map Line.raw := by
    intro span member
    obtain ⟨-, nonempty, below⟩ := tiles.mem_bounds span member
    rw [Script.ofLines_size] at below
    have some : (lines.drop span.1).take (span.2 - span.1) ≠ [] := by
      rw [ne_eq, ← List.length_eq_zero_iff, List.length_take, List.length_drop]
      omega
    refine Text.splitAt_join _ (by rwa [raws]) ?_
    rw [raws]
    exact fun line inside => clean line (List.mem_of_mem_drop (List.mem_of_mem_take inside))
  have spans : (chunkLines lines z).flatMap Chunk.lines =
      ((Script.ofLines lines).spans z).flatMap fun span =>
        (Chunk.ofLines (Script.ofLines lines) span.1 span.2).lines := by
    have bare := congrArg (List.flatMap Chunk.lines) (Script.chunks_bare (Script.ofLines lines) z)
    rwa [List.flatMap_map, List.flatMap_map] at bare
  have whole := congrArg (List.map Line.raw) (tiles.slice_eq (Script.ofLines lines))
  rw [List.map_flatMap] at whole
  rw [spans, List.flatMap_congr each, ← whole, raws, Script.ofLines_size, List.drop_zero, Nat.sub_zero,
    List.take_length]

end ScriptAtlas
