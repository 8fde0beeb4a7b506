import ScriptAtlas.Proofs.Dependencies

/-!
The flow of variables between chunks. Declarations are gathered from left to right, so each chunk is linked
against what the chunks before it declare: it depends exactly on those of them that declare a variable it
uses, and on the chunk it continues.
-/

namespace ScriptAtlas.Chunk

/-- A chunk declares a variable that another one uses, up to case. -/
def Feeds (source c : Chunk) : Prop :=
  ∃ v ∈ source.declared, ∃ u ∈ c.used, v.upper = u.upper

def declarations (chunks : List Chunk) : Declarations :=
  chunks.flatMap fun c => c.declared.map fun v => (v.upper, c.id)

theorem exists_declaration_iff (chunks : List Chunk) (c : Chunk) (d : Int) :
    (∃ v ∈ c.used, (v.upper, d) ∈ declarations chunks) ↔ ∃ source ∈ chunks, source.id = d ∧ source.Feeds c := by
  simp only [declarations, List.mem_flatMap, List.mem_map, Prod.mk.injEq]
  constructor
  · rintro ⟨u, used, source, member, v, declared, same, id⟩
    exact ⟨source, member, id, v, declared, u, used, same⟩
  · rintro ⟨source, member, id, v, declared, u, used, same⟩
    exact ⟨u, used, source, member, v, declared, same, id⟩

/-- A chunk is linked against the declarations that were known and those of the chunks before it. -/
theorem linkDependenciesFrom_getElem? (declared : Declarations) (chunks : List Chunk) (k : Nat) :
    (linkDependenciesFrom declared chunks)[k]? = chunks[k]?.map fun c =>
      { c with dependencies := c.dependenciesOn (declared ++ declarations (chunks.take k)) } := by
  -- What the first chunk declares is known to all chunks of the rest, so the known declarations vary.
  induction chunks generalizing declared k with
  | nil => rfl
  | cons first rest ih =>
      rw [linkDependenciesFrom]
      cases k with
      | zero => simp [declarations]
      | succ k =>
          rw [List.getElem?_cons_succ, List.getElem?_cons_succ, ih, List.take_succ_cons]
          simp only [declarations, List.flatMap_cons, List.append_assoc]

theorem mem_dependenciesOn_before (chunks : List Chunk) (k : Nat) (c : Chunk) (d : Int) :
    d ∈ c.dependenciesOn (declarations (chunks.take k)) ↔
      (∃ (j : Nat) (source : Chunk), j < k ∧ chunks[j]? = some source ∧ source.id = d ∧ source.Feeds c) ∨
        (d = c.continuesFrom ∧ 0 < c.continuesFrom ∧ c.continuesFrom < c.id) := by
  rw [mem_dependenciesOn, exists_declaration_iff]
  refine or_congr_left ?_
  constructor
  · rintro ⟨source, member, feeds⟩
    obtain ⟨j, here⟩ := List.mem_iff_getElem?.mp member
    rw [List.getElem?_take] at here
    split at here
    · rename_i before
      exact ⟨j, source, before, here, feeds⟩
    · cases here
  · rintro ⟨j, source, before, here, feeds⟩
    refine ⟨source, List.mem_iff_getElem?.mpr ⟨j, ?_⟩, feeds⟩
    rw [List.getElem?_take_of_lt before, here]

theorem ids_ascend {chunks : List Chunk} (ascend : chunks.Pairwise fun a b => a.id < b.id) {i j : Nat}
    {a b : Chunk} (before : i < j) (first : chunks[i]? = some a) (second : chunks[j]? = some b) : a.id < b.id := by
  obtain ⟨low, rfl⟩ := List.getElem?_eq_some_iff.mp first
  obtain ⟨high, rfl⟩ := List.getElem?_eq_some_iff.mp second
  exact List.pairwise_iff_getElem.mp ascend i j low high before

/-- Linking changes the dependencies alone. A chunk then depends on a number exactly when it is that of an
earlier chunk which declares a variable that the chunk uses, up to case, or that of the chunk it continues.
Dependencies are positive, ascend strictly and come before the chunk, so neither the chunk itself nor a later
declaration is among them. -/
theorem linkDependencies_flow (chunks : List Chunk) (ascend : chunks.Pairwise fun a b => a.id < b.id)
    (positive : ∀ c ∈ chunks, 0 < c.id) :
    (linkDependencies chunks).length = chunks.length ∧
    ∀ (k : Nat) (c : Chunk), chunks[k]? = some c → ∃ dependencies : List Int,
      (linkDependencies chunks)[k]? = some { c with dependencies := dependencies } ∧
      dependencies.Pairwise (· < ·) ∧
      (∀ d, d ∈ dependencies ↔
        (∃ (j : Nat) (source : Chunk), j < k ∧ chunks[j]? = some source ∧ source.id = d ∧ source.Feeds c) ∨
        (d = c.continuesFrom ∧ 0 < d ∧ d < c.id)) ∧
      (∀ d ∈ dependencies, 0 < d ∧ d < c.id) ∧
      ∀ (j : Nat) (later : Chunk), k ≤ j → chunks[j]? = some later → later.id ∉ dependencies := by
  constructor
  · have ids := congrArg List.length (linkDependenciesFrom_ids [] chunks)
    rwa [List.length_map, List.length_map] at ids
  · intro k c here
    have linked := linkDependenciesFrom_getElem? [] chunks k
    have members := mem_dependenciesOn_before chunks k c
    have bounds : ∀ d ∈ c.dependenciesOn (declarations (chunks.take k)), 0 < d ∧ d < c.id := by
      intro d needed
      rcases (members d).mp needed with ⟨j, source, before, there, rfl, -⟩ | ⟨rfl, continued⟩
      · exact ⟨positive source (List.mem_of_getElem? there), ids_ascend ascend before there here⟩
      · exact continued
    rw [here, List.nil_append] at linked
    refine ⟨_, linked, dependenciesOn_ascends _ c, ?_, bounds, ?_⟩
    · intro d
      rw [members d]
      refine or_congr_right (and_congr_right ?_)
      rintro rfl
      exact Iff.rfl
    · intro j later behind there needed
      have below := (bounds later.id needed).2
      rcases Nat.eq_or_lt_of_le behind with rfl | after
      · cases here.symm.trans there
        exact Int.lt_irrefl _ below
      · exact Int.lt_asymm below (ids_ascend ascend after here there)

/-- Uses and declarations of two variables in several spellings; the fourth chunk continues the third. -/
def mixedSpellings : List Chunk :=
  [{ id := 1, declared := ["@a"] }, { id := 2, used := ["@A"], declared := ["@b"] },
    { id := 4, used := ["@b"], declared := ["@B"] }, { id := 7, used := ["@a", "@B"], continuesFrom := 4 }]

theorem linkDependencies_flow_mixed :
    mixedSpellings.Pairwise (fun a b => a.id < b.id) ∧ (∀ c ∈ mixedSpellings, 0 < c.id) ∧
      ∃ c ∈ linkDependencies mixedSpellings, c.id = 7 ∧ c.continuesFrom = 4 ∧ 2 ∈ c.dependencies := by
  have ascend : mixedSpellings.Pairwise fun a b => a.id < b.id := by decide
  have positive : ∀ c ∈ mixedSpellings, 0 < c.id := by decide
  obtain ⟨-, flow⟩ := linkDependencies_flow mixedSpellings ascend positive
  obtain ⟨dependencies, linked, -, members, -⟩ := flow 3 _ rfl
  have second : 2 ∈ dependencies :=
    (members 2).mpr (.inl ⟨1, _, by decide, rfl, rfl, "@b", by decide, "@B", by decide, by decide⟩)
  exact ⟨ascend, positive, _, List.mem_of_getElem? linked, rfl, rfl, second⟩

end ScriptAtlas.Chunk
