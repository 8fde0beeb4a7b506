import Mathlib.Data.List.Nodup
import Mathlib.Data.List.Perm.Subperm
import Mathlib.Logic.Relation
import ScriptAtlas.Chunk.Graph

/-!
Searches through the dependency graph. The search for cycles takes one number off its list at a time, and only a
number that is visited for the first time puts new ones on it. So the edges that leave numbers not yet visited
pay for all steps to come, and the steps that a graph grants are enough to find everything that a path leads to.
The breadth-first search puts each vertex in its queue once, so one step for each vertex is enough.
-/

namespace ScriptAtlas

namespace DependencyGraph

open Relation

/-! ### Searches with enough steps -/

theorem visit_closed (next : Int → List Int) (closed : Int → Prop)
    (step : ∀ id, closed id → ∀ other ∈ next id, closed other) (steps : Nat) (todo visited : List Int)
    (ahead : ∀ id ∈ todo, closed id) (behind : ∀ id ∈ visited, closed id) :
    ∀ id ∈ visit next steps todo visited, closed id := by
  induction steps generalizing todo visited with
  | zero => exact behind
  | succ steps ih =>
      cases todo with
      | nil => exact behind
      | cons first rest =>
          have here := ahead first List.mem_cons_self
          have later := fun id member => ahead id (List.mem_cons_of_mem first member)
          rw [visit]
          split
          · exact ih rest visited later behind
          · apply ih
            · intro id member
              rcases List.mem_append.mp member with new | old
              · exact step first here id new
              · exact later id old
            · intro id member
              rcases List.mem_cons.mp member with rfl | old
              · exact here
              · exact behind id old

section Visit

variable {next : Int → List Int} {cost : List Int → Nat}

/-- What a set of visited numbers leaves to pay for: a first visit is paid for by the edges it follows. -/
def Pays (next : Int → List Int) (cost : List Int → Nat) : Prop :=
  ∀ (visited : List Int) (id : Int), id ∉ visited → (next id).length + cost (id :: visited) ≤ cost visited

/-- A search that is paid for keeps what it was given and leaves no number with an edge not followed. -/
theorem visit_complete (pays : Pays next cost) (steps : Nat) (todo visited : List Int)
    (enough : todo.length + cost visited ≤ steps)
    (followed : ∀ id ∈ visited, ∀ other ∈ next id, other ∈ visited ∨ other ∈ todo) :
    (∀ id, id ∈ visited ∨ id ∈ todo → id ∈ visit next steps todo visited) ∧
      ∀ id ∈ visit next steps todo visited, ∀ other ∈ next id, other ∈ visit next steps todo visited := by
  induction steps generalizing todo visited with
  | zero =>
      obtain rfl : todo = [] := List.length_eq_zero_iff.mp (by omega)
      simpa [visit] using followed
  | succ steps ih =>
      cases todo with
      | nil => simpa [visit] using followed
      | cons first rest =>
          rw [List.length_cons] at enough
          rw [visit]
          split
          · rename_i known
            have known : first ∈ visited := List.elem_iff.mp known
            -- the first number is among the visited ones already
            have same : ∀ id, id ∈ visited ∨ id ∈ first :: rest ↔ id ∈ visited ∨ id ∈ rest := by
              intro id
              rw [List.mem_cons, or_left_comm]
              exact or_iff_right_of_imp fun here => .inl (here ▸ known)
            simp only [same] at followed ⊢
            exact ih rest visited (by omega) followed
          · rename_i new
            have new : first ∉ visited := fun old => new (List.elem_iff.mpr old)
            have paid := pays visited first new
            obtain ⟨kept, closed⟩ := ih (next first ++ rest) (first :: visited)
              (by rw [List.length_append]; omega) (by
                intro id member other leads
                rcases List.mem_cons.mp member with rfl | old
                · exact .inr (List.mem_append_left rest leads)
                · rcases followed id old other leads with before | ahead
                  · exact .inl (List.mem_cons_of_mem first before)
                  · rcases List.mem_cons.mp ahead with rfl | later
                    · exact .inl List.mem_cons_self
                    · exact .inr (List.mem_append_right _ later))
            refine ⟨?_, closed⟩
            rintro id (old | ahead)
            · exact kept id (.inl (List.mem_cons_of_mem first old))
            · rcases List.mem_cons.mp ahead with rfl | later
              · exact kept id (.inl List.mem_cons_self)
              · exact kept id (.inr (List.mem_append_right _ later))

theorem mem_visit_iff (pays : Pays next cost) (steps : Nat) (id other : Int) (enough : 1 + cost [] ≤ steps) :
    other ∈ visit next steps [id] [] ↔ ReflTransGen (fun a b => b ∈ next a) id other := by
  constructor
  · intro found
    refine visit_closed next (ReflTransGen (fun a b => b ∈ next a) id) ?_ steps [id] [] ?_ ?_ other found
    · exact fun v path w leads => path.tail leads
    · intro v start
      rw [List.mem_singleton.mp start]
    · intro v none
      cases none
  · obtain ⟨kept, closed⟩ := visit_complete pays steps [id] [] enough (fun v none => by cases none)
    intro path
    induction path with
    | refl => exact kept id (.inr List.mem_cons_self)
    | tail _ leads ih => exact closed _ ih _ leads

end Visit

/-! ### What the edges of a graph pay for -/

def openNeeds (nodes : List GraphNode) (visited : List Int) : Nat :=
  nodes.foldr (fun n sum => (if n.id ∈ visited then 0 else n.next.length) + sum) 0

theorem openNeeds_cons (n : GraphNode) (rest : List GraphNode) (visited : List Int) :
    openNeeds (n :: rest) visited = (if n.id ∈ visited then 0 else n.next.length) + openNeeds rest visited :=
  rfl

theorem openNeeds_anti (nodes : List GraphNode) (visited : List Int) (id : Int) :
    openNeeds nodes (id :: visited) ≤ openNeeds nodes visited := by
  induction nodes with
  | nil => exact Nat.le_refl 0
  | cons n rest ih =>
      rw [openNeeds_cons, openNeeds_cons]
      by_cases old : n.id ∈ visited
      · simpa [old] using ih
      · rw [if_neg old]
        split <;> omega

theorem needs_cons (n : GraphNode) (rest : List GraphNode) (id : Int) :
    needs ⟨n :: rest⟩ id = if n.id = id then n.next else needs ⟨rest⟩ id := by
  rw [needs, needs, GraphNode.nextTo, GraphNode.nextTo, List.find?_cons]
  split
  · rename_i same
    rw [if_pos (eq_of_beq same)]
    rfl
  · rename_i other
    rw [if_neg (by simpa using other)]

theorem needs_of_mem {g : DependencyGraph} (distinct : g.ids.Nodup) {n : GraphNode} (member : n ∈ g.nodes) :
    g.needs n.id = n.next := by
  obtain ⟨nodes⟩ := g
  induction nodes with
  | nil => cases member
  | cons first rest ih =>
      obtain ⟨apart, distinct⟩ := List.nodup_cons.mp distinct
      rw [needs_cons]
      rcases List.mem_cons.mp member with rfl | later
      · exact if_pos rfl
      · have other : first.id ≠ n.id := fun same => apart (same ▸ List.mem_map_of_mem later)
        rw [if_neg other]
        exact ih distinct later

theorem needs_pay (g : DependencyGraph) : Pays g.needs (openNeeds g.nodes) := by
  intro visited id new
  obtain ⟨nodes⟩ := g
  induction nodes with
  | nil => simp [needs, GraphNode.nextTo, openNeeds]
  | cons n rest ih =>
      rw [openNeeds_cons, openNeeds_cons, needs_cons]
      by_cases same : n.id = id
      · have later := openNeeds_anti rest visited id
        simp only [same, if_true, List.mem_cons_self, new, if_false]
        omega
      · simp only [same, if_false, List.mem_cons, false_or]
        simp only at ih
        omega

theorem openNeeds_nil (g : DependencyGraph) : openNeeds g.nodes [] = g.edgeCount := by
  simp [openNeeds, edgeCount]

/-- The edge from a dependency to the chunk that needs it. -/
def Edge (g : DependencyGraph) (dependency id : Int) : Prop :=
  dependency ∈ g.needs id

theorem dependsOn_eq_true_iff (g : DependencyGraph) (id other : Int) :
    g.dependsOn id other = true ↔ ReflTransGen g.Edge other id := by
  rw [dependsOn, List.elem_iff, mem_visit_iff g.needs_pay _ id other (by rw [openNeeds_nil]; omega)]
  exact reflTransGen_swap (r := g.Edge)

end DependencyGraph

/-! ### Breadth-first searches -/

namespace GraphNode

open Relation

variable {next : Int → List Int}

theorem mem_new {next : Int → List Int} {id other : Int} {seen : List Int} :
    other ∈ (next id).filter (fun other => !seen.elem other) ↔ other ∈ next id ∧ other ∉ seen := by
  simp

theorem breadthFirst_sound (closed : Int → Prop) (step : ∀ id, closed id → ∀ other ∈ next id, closed other)
    (steps : Nat) (queue seen : List Int) (ahead : ∀ id ∈ queue, closed id) :
    ∀ id ∈ breadthFirst next steps queue seen, closed id ∧ (id ∈ queue ∨ id ∉ seen) := by
  induction steps generalizing queue seen with
  | zero => exact fun _ none => by cases none
  | succ steps ih =>
      cases queue with
      | nil => exact fun _ none => by cases none
      | cons first rest =>
          intro id member
          rcases List.mem_cons.mp member with rfl | later
          · exact ⟨ahead id List.mem_cons_self, .inl List.mem_cons_self⟩
          · obtain ⟨inside, where_⟩ := ih _ _ (fun v waits => by
              rcases List.mem_append.mp waits with old | new
              · exact ahead v (List.mem_cons_of_mem first old)
              · exact step first (ahead first List.mem_cons_self) v (mem_new.mp new).1) id later
            refine ⟨inside, ?_⟩
            rcases where_ with waits | unseen
            · rcases List.mem_append.mp waits with old | new
              · exact .inl (List.mem_cons_of_mem first old)
              · exact .inr (mem_new.mp new).2
            · exact .inr fun old => unseen (List.mem_append_left _ old)

/-- The numbers of a search between two steps: those seen are different vertices, and those in the queue are
among them. -/
structure Searching (vertices queue seen : List Int) : Prop where
  distinct : seen.Nodup
  known : ∀ id ∈ seen, id ∈ vertices
  waiting : queue.Nodup
  inside : ∀ id ∈ queue, id ∈ seen

section Steps

variable {vertices queue seen : List Int} {first : Int}

theorem Searching.room (searching : Searching vertices queue seen) : seen.length ≤ vertices.length :=
  (List.subperm_of_subset searching.distinct searching.known).length_le

theorem Searching.step (different : ∀ id, (next id).Nodup) (leads : ∀ id, ∀ other ∈ next id, other ∈ vertices)
    (searching : Searching vertices (first :: queue) seen) :
    Searching vertices (queue ++ (next first).filter fun other => !seen.elem other)
      (seen ++ (next first).filter fun other => !seen.elem other) := by
  have fresh := (different first).filter fun other => !seen.elem other
  obtain ⟨_, rest⟩ := List.nodup_cons.mp searching.waiting
  refine ⟨?_, ?_, ?_, ?_⟩
  · refine List.nodup_append.mpr ⟨searching.distinct, fresh, ?_⟩
    rintro old here _ new rfl
    exact (mem_new.mp new).2 here
  · intro id member
    rcases List.mem_append.mp member with old | new
    · exact searching.known id old
    · exact leads first id (mem_new.mp new).1
  · refine List.nodup_append.mpr ⟨rest, fresh, ?_⟩
    rintro old here _ new rfl
    exact (mem_new.mp new).2 (searching.inside old (List.mem_cons_of_mem first here))
  · intro id member
    rcases List.mem_append.mp member with old | new
    · exact List.mem_append_left _ (searching.inside id (List.mem_cons_of_mem first old))
    · exact List.mem_append_right _ new

theorem breadthFirst_nodup (different : ∀ id, (next id).Nodup)
    (leads : ∀ id, ∀ other ∈ next id, other ∈ vertices) (steps : Nat)
    (searching : Searching vertices queue seen) : (breadthFirst next steps queue seen).Nodup := by
  induction steps generalizing queue seen with
  | zero => exact .nil
  | succ steps ih =>
      cases queue with
      | nil => exact .nil
      | cons first rest =>
          refine List.nodup_cons.mpr ⟨?_, ih (searching.step different leads)⟩
          intro again
          -- it has left the queue and was seen
          obtain ⟨_, waits | unseen⟩ := breadthFirst_sound (fun _ => True) (fun _ _ _ _ => trivial) steps _ _
            (fun _ _ => trivial) first again
          · rcases List.mem_append.mp waits with old | new
            · exact (List.nodup_cons.mp searching.waiting).1 old
            · exact (mem_new.mp new).2 (searching.inside first List.mem_cons_self)
          · exact unseen (List.mem_append_left _ (searching.inside first List.mem_cons_self))

/-- With a step for each number in the queue and each vertex not seen, a search takes its whole queue and follows
every edge. -/
theorem breadthFirst_complete (different : ∀ id, (next id).Nodup)
    (leads : ∀ id, ∀ other ∈ next id, other ∈ vertices) (steps : Nat)
    (searching : Searching vertices queue seen)
    (enough : queue.length + vertices.length ≤ steps + seen.length) :
    (∀ id ∈ queue, id ∈ breadthFirst next steps queue seen) ∧
      ∀ id ∈ breadthFirst next steps queue seen, ∀ other ∈ next id,
        other ∈ seen ∨ other ∈ breadthFirst next steps queue seen := by
  induction steps generalizing queue seen with
  | zero =>
      have room := searching.room
      obtain rfl : queue = [] := List.length_eq_zero_iff.mp (by omega)
      simp [breadthFirst]
  | succ steps ih =>
      cases queue with
      | nil => simp [breadthFirst]
      | cons first rest =>
          obtain ⟨taken, followed⟩ := ih (searching.step different leads)
            (by simp only [List.length_append, List.length_cons] at enough ⊢; omega)
          constructor
          · intro id member
            rcases List.mem_cons.mp member with rfl | old
            · exact List.mem_cons_self
            · exact List.mem_cons_of_mem first (taken id (List.mem_append_left _ old))
          · intro id member other edge
            rcases List.mem_cons.mp member with rfl | behind
            · by_cases old : other ∈ seen
              · exact .inl old
              · exact .inr (List.mem_cons_of_mem id
                  (taken other (List.mem_append_right _ (mem_new.mpr ⟨edge, old⟩))))
            · rcases followed id behind other edge with known | found
              · rcases List.mem_append.mp known with old | new
                · exact .inl old
                · exact .inr (List.mem_cons_of_mem first (taken other (List.mem_append_right _ new)))
              · exact .inr (List.mem_cons_of_mem first found)

end Steps

theorem Searching.start {vertices : List Int} {id : Int} (known : id ∈ vertices) :
    Searching vertices [id] [id] :=
  ⟨List.nodup_singleton id, by simpa using known, List.nodup_singleton id, fun _ same => same⟩

theorem mem_breadthFirst_iff {vertices : List Int} (different : ∀ id, (next id).Nodup)
    (leads : ∀ id, ∀ other ∈ next id, other ∈ vertices) (id other : Int) (known : id ∈ vertices) :
    other ∈ breadthFirst next vertices.length [id] [id] ↔ ReflTransGen (fun a b => b ∈ next a) id other := by
  constructor
  · intro found
    refine (breadthFirst_sound (ReflTransGen (fun a b => b ∈ next a) id) ?_ _ [id] [id] ?_ other found).1
    · exact fun v path w leads => path.tail leads
    · intro v here
      rw [List.mem_singleton.mp here]
  · obtain ⟨taken, followed⟩ := breadthFirst_complete different leads vertices.length (.start known) (by simp; omega)
    have itself := taken id List.mem_cons_self
    intro path
    induction path with
    | refl => exact itself
    | tail _ edge ih =>
        rcases followed _ ih _ edge with same | found
        · exact List.mem_singleton.mp same ▸ itself
        · exact found

end GraphNode

end ScriptAtlas
