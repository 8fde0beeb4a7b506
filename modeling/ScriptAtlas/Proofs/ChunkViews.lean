import ScriptAtlas.Chunk.Sequence

/-!
What the passes over the chunks of a script overlook. Numbering, linking and describing read few fields
of a chunk, so a change of the others can be made before these passes or after them.
-/

namespace ScriptAtlas

namespace Chunk

/-- A change of chunks that numbers, links and descriptions do not depend on, but for what the change
makes of a description itself. -/
structure Overlooked (change : Chunk → Chunk) : Prop where
  id : ∀ c, (change c).id = c.id
  numbered : ∀ (c : Chunk) (id : Int), change { c with id := id } = { change c with id := id }
  placed : ∀ previous c next,
    withNeighbours (previous.map change) (change c) (next.map change) =
      change (withNeighbours previous c next)
  declared : ∀ c, (change c).declared.map Text.upper = c.declared.map Text.upper
  needed : ∀ c declarations, (change c).dependenciesOn declarations = c.dependenciesOn declarations
  linked : ∀ (c : Chunk) (ids : List Int),
    change { c with dependencies := ids } = { change c with dependencies := ids }
  described : ∀ c, change (change c).described = change c.described

section Overlooked

variable {change : Chunk → Chunk} (overlooked : Overlooked change)
include overlooked

theorem Overlooked.numberFrom (id : Int) (chunks : List Chunk) :
    numberFrom id (chunks.map change) = (numberFrom id chunks).map change := by
  induction chunks generalizing id with
  | nil => rfl
  | cons c rest ih =>
      rw [List.map_cons, Chunk.numberFrom, Chunk.numberFrom, List.map_cons, ih]
      exact congrArg (· :: _) (overlooked.numbered c id).symm

theorem Overlooked.linkContinuationsAfter (previous : Option Chunk) (chunks : List Chunk) :
    linkContinuationsAfter (previous.map change) (chunks.map change) =
      (linkContinuationsAfter previous chunks).map change := by
  induction chunks generalizing previous with
  | nil => rfl
  | cons c rest ih =>
      rw [List.map_cons, Chunk.linkContinuationsAfter, Chunk.linkContinuationsAfter, List.head?_map,
        overlooked.placed, ← Option.map_some, ih, List.map_cons]

theorem Overlooked.linkDependenciesFrom (declarations : Declarations) (chunks : List Chunk) :
    linkDependenciesFrom declarations (chunks.map change) =
      (linkDependenciesFrom declarations chunks).map change := by
  induction chunks generalizing declarations with
  | nil => rfl
  | cons c rest ih =>
      have names : ((change c).declared.map fun v => (v.upper, (change c).id)) =
          c.declared.map fun v => (v.upper, c.id) := by
        have keyed := congrArg (List.map fun key : Text => (key, c.id)) (overlooked.declared c)
        rw [List.map_map, List.map_map] at keyed
        rw [overlooked.id]
        exact keyed
      rw [List.map_cons, Chunk.linkDependenciesFrom, Chunk.linkDependenciesFrom, overlooked.needed, names,
        ih, List.map_cons]
      exact congrArg (· :: _) (overlooked.linked c (c.dependenciesOn declarations)).symm

/-- Divisions that agree up to an overlooked change give chunks that agree up to it. -/
theorem Overlooked.chunks_eq {s s' : Script} {z z' : Sizing}
    (divided : (s.plan.flatMap (Divider.mk z.normalized s).chunksOf).map change =
      (s'.plan.flatMap (Divider.mk z'.normalized s').chunksOf).map change) :
    (s.chunks z).map change = (s'.chunks z').map change := by
  have later : ∀ chunks : List Chunk,
      ((linkDependencies (linkContinuations (Chunk.numberFrom 1 chunks))).map Chunk.described).map change =
        ((linkDependencies (linkContinuations (Chunk.numberFrom 1 (chunks.map change)))).map
          Chunk.described).map change := by
    intro chunks
    have linked := overlooked.linkContinuationsAfter none (Chunk.numberFrom 1 chunks)
    rw [Option.map_none] at linked
    rw [overlooked.numberFrom, linkContinuations, linkContinuations, linked, linkDependencies,
      linkDependencies, overlooked.linkDependenciesFrom, List.map_map, List.map_map, List.map_map]
    exact List.map_congr_left fun c _ => (overlooked.described c).symm
  rw [Script.chunks, Script.chunks, later, divided, ← later]

end Overlooked

end Chunk

end ScriptAtlas
