import Mathlib.Data.List.MinMax
import Mathlib.Data.List.Permutation
import ScriptAtlas.Proofs.Dependencies

/-!
The reading order of chunks. Chunks leave a queue one by one, and a chunk joins its end as soon as the
last chunk that it relies on has left. So every chunk is read once and after what it relies on; the
order is that of the script exactly when the last dependencies of the chunks never go back.
-/

namespace ScriptAtlas

theorem GraphNode.sortIds_perm (ids : List Int) : (sortIds ids).Perm ids :=
  List.mergeSort_perm ids _

namespace DependencyGraph

open GraphNode (sortIds sortIds_perm splitReady orderFrom)

/-! ### What the queue holds -/

/-- The state between two steps: numbers in the queue rely on nothing that is still to come, and the
other nodes name exactly what they rely on among that. -/
structure Pending (rank : Int → Int) (needs : Int → List Int) (queue : List Int)
    (nodes : List GraphNode) : Prop where
  distinct : (queue ++ nodes.map GraphNode.id).Nodup
  settled : ∀ id ∈ queue, ∀ d ∈ needs id, d ∉ queue ++ nodes.map GraphNode.id
  held : ∀ n ∈ nodes, ∀ d, d ∈ n.next ↔ d ∈ needs n.id ∧ d ∈ queue ++ nodes.map GraphNode.id
  lower : ∀ n ∈ nodes, ∀ d ∈ n.next, rank d < rank n.id

section Steps

variable {rank : Int → Int} {needs : Int → List Int} {queue : List Int} {nodes : List GraphNode}

theorem splitReady_perm (nodes : List GraphNode) :
    ((splitReady nodes).1 ++ (splitReady nodes).2.map GraphNode.id).Perm (nodes.map GraphNode.id) := by
  refine ((sortIds_perm _).append_right _).trans ?_
  rw [← List.map_append]
  exact (List.filter_append_perm _ nodes).map GraphNode.id

theorem Pending.join (pending : Pending rank needs queue nodes) :
    Pending rank needs (queue ++ (splitReady nodes).1) (splitReady nodes).2 ∧
      ∀ n ∈ (splitReady nodes).2, n.next ≠ [] := by
  have perm : (queue ++ (splitReady nodes).1 ++ (splitReady nodes).2.map GraphNode.id).Perm
      (queue ++ nodes.map GraphNode.id) := by
    rw [List.append_assoc]
    exact (splitReady_perm nodes).append_left queue
  refine ⟨⟨perm.nodup_iff.mpr pending.distinct, ?_, ?_, ?_⟩, ?_⟩
  · intro id member d needed
    rw [perm.mem_iff]
    rcases List.mem_append.mp member with old | ready
    · exact pending.settled id old d needed
    · obtain ⟨n, free, rfl⟩ := List.mem_map.mp ((sortIds_perm _).mem_iff.mp ready)
      obtain ⟨inside, nothing⟩ := List.mem_filter.mp free
      intro ahead
      have waits := (pending.held n inside d).mpr ⟨needed, ahead⟩
      rw [List.isEmpty_iff.mp nothing] at waits
      cases waits
  · intro n waiting d
    rw [perm.mem_iff]
    exact pending.held n (List.mem_of_mem_filter waiting) d
  · intro n waiting
    exact pending.lower n (List.mem_of_mem_filter waiting)
  · intro n waiting
    simpa using (List.mem_filter.mp waiting).2

def without (id : Int) (n : GraphNode) : GraphNode :=
  { n with next := n.next.filter (· != id) }

theorem map_without_ids (id : Int) (nodes : List GraphNode) :
    (nodes.map (without id)).map GraphNode.id = nodes.map GraphNode.id := by
  rw [List.map_map]
  rfl

theorem Pending.leave {id : Int} (pending : Pending rank needs (id :: queue) nodes) :
    Pending rank needs queue (nodes.map (without id)) := by
  obtain ⟨fresh, distinct⟩ := List.nodup_cons.mp pending.distinct
  refine ⟨?_, ?_, ?_, ?_⟩
  · rwa [map_without_ids]
  · rw [map_without_ids]
    intro other member d needed ahead
    exact pending.settled other (List.mem_cons_of_mem id member) d needed
      (List.mem_cons_of_mem id ahead)
  · rw [map_without_ids]
    intro n member d
    obtain ⟨before, inside, rfl⟩ := List.mem_map.mp member
    have held := pending.held before inside d
    rw [List.cons_append, List.mem_cons] at held
    rw [without, List.mem_filter, held]
    constructor
    · rintro ⟨⟨needed, same | ahead⟩, other⟩
      · simp [same] at other
      · exact ⟨needed, ahead⟩
    · rintro ⟨needed, ahead⟩
      refine ⟨⟨needed, .inr ahead⟩, ?_⟩
      simpa using fun same : d = id => fresh (same ▸ ahead)
  · intro n member d waits
    obtain ⟨before, inside, rfl⟩ := List.mem_map.mp member
    exact pending.lower before inside d (List.mem_of_mem_filter waits)

/-- Something can be read as long as anything waits. -/
theorem Pending.nodes_eq_nil (pending : Pending rank needs [] nodes)
    (wait : ∀ n ∈ nodes, n.next ≠ []) : nodes = [] := by
  -- a node of least rank waits for a node of smaller rank
  cases least : nodes.argmin fun n => rank n.id with
  | none => exact List.argmin_eq_none.mp least
  | some n =>
      have inside := List.argmin_mem least
      obtain ⟨d, waits⟩ := List.exists_mem_of_ne_nil _ (wait n inside)
      obtain ⟨_, ahead⟩ := (pending.held n inside d).mp waits
      obtain ⟨other, member, rfl⟩ := List.mem_map.mp ahead
      exact absurd (pending.lower n inside _ waits)
        (List.not_lt_of_mem_argmin (f := fun n => rank n.id) member least)

end Steps

theorem orderFrom_cons (steps : Nat) (id : Int) (queue : List Int) (waiting : List GraphNode) :
    orderFrom (steps + 1) (id :: queue) waiting =
      id :: orderFrom steps (queue ++ (splitReady (waiting.map (without id))).1)
        (splitReady (waiting.map (without id))).2 :=
  rfl

/-- With enough steps everything is read once, and nothing before what it relies on. -/
theorem orderFrom_follows {rank : Int → Int} {needs : Int → List Int} (steps : Nat) (queue : List Int)
    (waiting : List GraphNode) (enough : queue.length + waiting.length ≤ steps)
    (pending : Pending rank needs queue waiting) (wait : ∀ n ∈ waiting, n.next ≠ []) :
    (orderFrom steps queue waiting).Perm (queue ++ waiting.map GraphNode.id) ∧
      (orderFrom steps queue waiting).Pairwise fun a b => b ∉ needs a := by
  induction steps generalizing queue waiting with
  | zero =>
      obtain ⟨rfl, rfl⟩ : queue = [] ∧ waiting = [] := by
        simpa using enough
      exact ⟨.nil, .nil⟩
  | succ steps ih =>
      cases queue with
      | nil =>
          obtain rfl := pending.nodes_eq_nil wait
          exact ⟨.nil, .nil⟩
      | cons id queue =>
          obtain ⟨next, waitNext⟩ := pending.leave.join
          have perm := splitReady_perm (waiting.map (without id))
          rw [map_without_ids] at perm
          have count := perm.length_eq
          simp only [List.length_append, List.length_map] at count
          rw [List.length_cons] at enough
          obtain ⟨permRest, pairsRest⟩ := ih _ _ (by rw [List.length_append]; omega) next waitNext
          have permAhead : (orderFrom (steps + 1) (id :: queue) waiting).Perm
              (id :: (queue ++ waiting.map GraphNode.id)) := by
            rw [orderFrom_cons]
            refine (permRest.trans ?_).cons id
            rw [List.append_assoc]
            exact perm.append_left queue
          refine ⟨permAhead, ?_⟩
          rw [orderFrom_cons] at permAhead ⊢
          refine List.pairwise_cons.mpr ⟨?_, pairsRest⟩
          intro later member needed
          -- What is read after `id` is still open when `id` is taken, and `id` needs nothing open.
          have ahead := (permAhead.cons_inv).mem_iff.mp member
          exact pending.settled id List.mem_cons_self later needed (List.mem_cons_of_mem id ahead)

theorem ofChunk_ids (chunks : List Chunk) :
    (chunks.map GraphNode.ofChunk).map GraphNode.id = chunks.map Chunk.id := by
  rw [List.map_map]
  rfl

theorem needs_ofChunk (chunks : List Chunk) (distinct : (chunks.map Chunk.id).Nodup) (c : Chunk)
    (member : c ∈ chunks) : needs ⟨chunks.map GraphNode.ofChunk⟩ c.id = c.dependencies :=
  needs_of_mem (g := ⟨chunks.map GraphNode.ofChunk⟩) (n := .ofChunk c) (by rwa [ids, ofChunk_ids])
    (List.mem_map_of_mem member)

theorem order_eq (nodes : List GraphNode) : order ⟨nodes⟩ = GraphNode.order nodes :=
  rfl

theorem order_eq_ok (nodes : List GraphNode)
    (all : (orderFrom nodes.length (splitReady nodes).1 (splitReady nodes).2).length = nodes.length) :
    order ⟨nodes⟩ = .ok (orderFrom nodes.length (splitReady nodes).1 (splitReady nodes).2) := by
  rw [order_eq, GraphNode.order]
  dsimp only
  rw [if_pos]
  simpa using all

theorem pending_start {rank : Int → Int} {chunks : List Chunk} (orderly : Chunk.Orderly rank chunks) :
    Pending rank (needs ⟨chunks.map GraphNode.ofChunk⟩) [] (chunks.map GraphNode.ofChunk) := by
  refine ⟨?_, by simp, ?_, ?_⟩
  · rw [List.nil_append, ofChunk_ids]
    exact orderly.distinct
  · intro n member d
    obtain ⟨c, inside, rfl⟩ := List.mem_map.mp member
    rw [List.nil_append, ofChunk_ids, GraphNode.ofChunk, needs_ofChunk chunks orderly.distinct c inside,
      iff_self_and]
    exact orderly.known c inside d
  · intro n member
    obtain ⟨c, inside, rfl⟩ := List.mem_map.mp member
    exact orderly.ranked c inside

theorem order_follows (rank : Int → Int) (chunks : List Chunk) (orderly : Chunk.Orderly rank chunks) :
    ∃ ids, order ⟨chunks.map GraphNode.ofChunk⟩ = .ok ids ∧ ids.Perm (chunks.map Chunk.id) ∧
      ∀ c ∈ chunks, ∀ d ∈ c.dependencies, [d, c.id].Sublist ids := by
  obtain ⟨pending, wait⟩ := (pending_start orderly).join
  rw [List.nil_append] at pending
  have perm := splitReady_perm (chunks.map GraphNode.ofChunk)
  have count := perm.length_eq
  simp only [List.length_append, List.length_map] at count
  obtain ⟨read, follows⟩ := orderFrom_follows (chunks.map GraphNode.ofChunk).length _ _
    (by rw [List.length_map]; omega) pending wait
  have all := read.trans perm
  rw [ofChunk_ids] at all
  refine ⟨_, order_eq_ok _ (by rw [all.length_eq, List.length_map, List.length_map]), all, ?_⟩
  intro c member d needed
  obtain ⟨before, after, split⟩ := List.append_of_mem
    (all.mem_iff.mpr (orderly.known c member d needed))
  have here := all.mem_iff.mpr (List.mem_map_of_mem member)
  rw [split] at follows here ⊢
  rcases List.mem_append.mp here with early | late
  · -- the chunk would be read before something it relies on
    have apart := (List.pairwise_append.mp follows).2.2 c.id early d List.mem_cons_self
    rw [needs_ofChunk chunks orderly.distinct c member] at apart
    exact absurd needed apart
  · rcases List.mem_cons.mp late with same | late
    · have lower := orderly.ranked c member d needed
      rw [same] at lower
      exact absurd lower (Int.lt_irrefl _)
    · exact List.sublist_append_of_sublist_right
        (List.Sublist.cons_cons d (List.singleton_sublist.mpr late))

end DependencyGraph

/-! ### When the order is that of the script -/

namespace Chunk

/-- The last chunk that a chunk relies on; zero if it relies on none. -/
def latest (c : Chunk) : Int :=
  c.dependencies.foldr max 0

theorem latest_le_iff (c : Chunk) (k : Int) (nonneg : 0 ≤ k) :
    c.latest ≤ k ↔ ∀ d ∈ c.dependencies, d ≤ k := by
  rw [latest]
  induction c.dependencies with
  | nil => simp [nonneg]
  | cons d rest ih => rw [List.foldr_cons, Int.max_le, ih, List.forall_mem_cons]

theorem latest_nonneg (c : Chunk) : 0 ≤ c.latest := by
  rw [latest]
  induction c.dependencies with
  | nil => exact Int.le_refl 0
  | cons d rest ih => exact Int.le_trans ih (Int.le_max_right d _)

def waitingFor (chunks : List Chunk) (k : Int) : List Int :=
  (chunks.filter fun c => c.latest == k).map id

def numbers (first count : Nat) : List Int :=
  (List.range' first count).map fun k : Nat => (k : Int)

theorem numbers_succ (first count : Nat) :
    numbers first (count + 1) = (first : Int) :: numbers (first + 1) count :=
  rfl

theorem mem_numbers (first count : Nat) (k : Int) :
    k ∈ numbers first count ↔ (first : Int) ≤ k ∧ k < first + count := by
  simp only [numbers, List.mem_map, List.mem_range'_1]
  constructor
  · rintro ⟨n, bounds, rfl⟩
    omega
  · intro bounds
    exact ⟨k.toNat, by omega, by omega⟩

/-- Chunks numbered from one in order, each of which relies on earlier ones only. -/
structure Sequential (chunks : List Chunk) : Prop where
  numbered : chunks.map id = numbers 1 chunks.length
  backward : ∀ c ∈ chunks, ∀ d ∈ c.dependencies, 1 ≤ d ∧ d < c.id

theorem numbers_ascend (first count : Nat) : (numbers first count).Pairwise (· < ·) := by
  refine List.pairwise_map.mpr ((List.pairwise_lt_range' 1).imp ?_)
  intro a b below
  exact Int.ofNat_lt.mpr below

variable {chunks : List Chunk}

theorem Sequential.ascend (sequential : Sequential chunks) :
    chunks.Pairwise fun a b => a.id < b.id := by
  rw [← List.pairwise_map (f := id), sequential.numbered]
  exact numbers_ascend 1 chunks.length

theorem Sequential.bounds (sequential : Sequential chunks) (c : Chunk) (member : c ∈ chunks) :
    1 ≤ c.id ∧ c.id ≤ chunks.length ∧ c.latest < c.id := by
  have number := List.mem_map_of_mem (f := id) member
  rw [sequential.numbered, mem_numbers] at number
  have below := (latest_le_iff c (c.id - 1) (by omega)).mpr fun d needed => by
    have bounds := sequential.backward c member d needed
    omega
  omega

end Chunk

namespace DependencyGraph

open Chunk
open GraphNode (sortIds splitReady orderFrom)

def nodeAfter (k : Int) (c : Chunk) : GraphNode :=
  ⟨c.id, c.dependencies.filter fun d => k < d⟩

def waitingAfter (chunks : List Chunk) (k : Int) : List GraphNode :=
  (chunks.filter fun c => k < c.latest).map (nodeAfter k)

theorem nodeAfter_isEmpty (k : Int) (nonneg : 0 ≤ k) (c : Chunk) :
    (nodeAfter k c).next.isEmpty = decide (c.latest ≤ k) := by
  rw [Bool.eq_iff_iff, decide_eq_true_iff, latest_le_iff c k nonneg, List.isEmpty_iff, nodeAfter,
    List.filter_eq_nil_iff]
  simp

theorem splitReady_nodeAfter (chunks : List Chunk) (ascend : chunks.Pairwise fun a b => a.id < b.id)
    (k : Int) (nonneg : 0 ≤ k) :
    splitReady (chunks.map (nodeAfter k)) =
      ((chunks.filter fun c => c.latest ≤ k).map Chunk.id, waitingAfter chunks k) := by
  have sorted : ((chunks.filter fun c => c.latest ≤ k).map Chunk.id).Pairwise fun a b =>
      decide (a ≤ b) = true := by
    refine List.pairwise_map.mpr ((ascend.filter _).imp ?_)
    intro a b below
    exact decide_eq_true (Int.le_of_lt below)
  have ready : ((fun n : GraphNode => n.next.isEmpty) ∘ nodeAfter k) = fun c => decide (c.latest ≤ k) :=
    funext (nodeAfter_isEmpty k nonneg)
  have waits : ((fun n : GraphNode => !n.next.isEmpty) ∘ nodeAfter k) = fun c => decide (k < c.latest) := by
    funext c
    rw [Function.comp_apply, nodeAfter_isEmpty k nonneg, Bool.eq_iff_iff]
    simp
  rw [splitReady, List.filter_map, List.filter_map, ready, waits, List.map_map, sortIds, waitingAfter]
  exact Prod.ext (List.mergeSort_of_pairwise sorted) rfl

theorem splitReady_waitingAfter (chunks : List Chunk) (ascend : chunks.Pairwise fun a b => a.id < b.id)
    (k : Int) (nonneg : 0 ≤ k) :
    splitReady ((waitingAfter chunks k).map (without (k + 1))) =
      (waitingFor chunks (k + 1), waitingAfter chunks (k + 1)) := by
  have shrunk : without (k + 1) ∘ nodeAfter k = nodeAfter (k + 1) := by
    funext c
    simp only [Function.comp_apply, without, nodeAfter, List.filter_filter, GraphNode.mk.injEq, true_and]
    congr
    funext d
    rw [Bool.eq_iff_iff]
    simp
    omega
  rw [waitingAfter, List.map_map, shrunk, splitReady_nodeAfter _ (ascend.filter _) (k + 1) (by omega),
    waitingAfter, waitingAfter, waitingFor, List.filter_filter, List.filter_filter]
  congr 3
  · funext c
    rw [Bool.eq_iff_iff]
    simp
    omega
  · funext c
    rw [Bool.eq_iff_iff]
    simp
    omega

/-- What the queue yields after chunk `k` is the rest of the script exactly when the queue is, together
with the chunks that join it in turn. -/
theorem orderFrom_eq_iff (chunks : List Chunk) (sequential : Sequential chunks) (k n : Nat)
    (queue : List Int) (count : queue.length + (waitingAfter chunks k).length = n) :
    orderFrom n queue (waitingAfter chunks k) = numbers (k + 1) n ↔
      queue ++ (numbers (k + 1) n).flatMap (waitingFor chunks) = numbers (k + 1) n := by
  induction n generalizing k queue with
  | zero =>
      obtain ⟨rfl, _⟩ : queue = [] ∧ _ := by simpa using count
      simp [orderFrom, numbers]
  | succ n ih =>
      rw [numbers_succ, List.flatMap_cons]
      cases queue with
      | nil =>
          refine iff_of_false (by simp [orderFrom]) ?_
          intro same
          have first : ((k + 1 : Nat) : Int) ∈ ((k + 1 : Nat) : Int) :: numbers (k + 1 + 1) n :=
            List.mem_cons_self
          rw [← same, List.nil_append, ← List.flatMap_cons, ← numbers_succ, List.mem_flatMap] at first
          obtain ⟨j, later, waits⟩ := first
          obtain ⟨c, member, named⟩ := List.mem_map.mp waits
          obtain ⟨inside, last⟩ := List.mem_filter.mp member
          have last : c.latest = j := by simpa using last
          have below := (sequential.bounds c inside).2.2
          have low := ((mem_numbers _ _ _).mp later).1
          omega
      | cons id queue =>
          rw [orderFrom_cons, List.cons_append, List.cons.injEq, List.cons.injEq, and_congr_right_iff]
          intro same
          have split := splitReady_waitingAfter chunks sequential.ascend k (Int.natCast_nonneg k)
          have perm := (splitReady_perm ((waitingAfter chunks k).map (without (k + 1)))).length_eq
          rw [map_without_ids, split] at perm
          simp only [List.length_append, List.length_map, List.length_cons] at perm count
          rw [same, Int.natCast_succ, split, ← List.append_assoc]
          exact ih (k + 1) (queue ++ waitingFor chunks (k + 1))
            (by rw [List.length_append, Int.natCast_succ]; omega)

end DependencyGraph

namespace Chunk

theorem flatMap_filter_perm {α : Type} (rank : α → Int) (ks : List Int) (distinct : ks.Nodup)
    (items : List α) (inside : ∀ a ∈ items, rank a ∈ ks) :
    (ks.flatMap fun k => items.filter fun a => rank a == k).Perm items := by
  induction ks generalizing items with
  | nil =>
      cases items with
      | nil => exact .nil
      | cons a rest => exact absurd (inside a List.mem_cons_self) (List.not_mem_nil)
  | cons k ks ih =>
      obtain ⟨apart, distinct⟩ := List.nodup_cons.mp distinct
      have others : (ks.flatMap fun j => items.filter fun a => rank a == j) =
          ks.flatMap fun j => (items.filter fun a => !(rank a == k)).filter fun a => rank a == j := by
        refine List.flatMap_congr fun j member => ?_
        rw [List.filter_filter]
        refine List.filter_congr fun a _ => ?_
        have different : j ≠ k := fun same => apart (same ▸ member)
        rw [Bool.eq_iff_iff]
        simp only [beq_iff_eq, Bool.and_eq_true, Bool.not_eq_true', beq_eq_false_iff_ne]
        omega
      rw [List.flatMap_cons, others]
      refine ((ih distinct _ ?_).append_left _).trans (List.filter_append_perm _ items)
      intro a member
      obtain ⟨member, different⟩ := List.mem_filter.mp member
      rcases List.mem_cons.mp (inside a member) with same | later
      · simp [same] at different
      · exact later

theorem flatMap_filter_ascends {α : Type} (rank : α → Int) (ks : List Int)
    (ascends : ks.Pairwise (· < ·)) (items : List α) (before : α → α → Prop)
    (ordered : items.Pairwise before) :
    (ks.flatMap fun k => items.filter fun a => rank a == k).Pairwise fun a b =>
      rank a < rank b ∨ rank a = rank b ∧ before a b := by
  have ranked : ∀ k a, a ∈ items.filter (fun a => rank a == k) → rank a = k := by
    intro k a member
    simpa using (List.mem_filter.mp member).2
  refine List.pairwise_flatMap.mpr ⟨?_, ascends.imp ?_⟩
  · intro k _
    refine (ordered.filter _).imp_of_mem ?_
    intro a b first second earlier
    exact .inr ⟨(ranked k a first).trans (ranked k b second).symm, earlier⟩
  · intro j k below a first b second
    rw [ranked j a first, ranked k b second]
    exact .inl below

/-- Chunks grouped by their last dependency are in the order of the script exactly when the last
dependencies never go back. -/
theorem Sequential.grouped_eq_iff (sequential : Sequential chunks) :
    (numbers 0 (chunks.length + 1)).flatMap (waitingFor chunks) = chunks.map id ↔
      chunks.Pairwise fun a b => a.latest ≤ b.latest := by
  have perm : ((numbers 0 (chunks.length + 1)).flatMap fun k =>
      chunks.filter fun c => c.latest == k).Perm chunks := by
    refine flatMap_filter_perm latest _ ((numbers_ascend _ _).imp Int.ne_of_lt) chunks ?_
    intro c member
    have bounds := sequential.bounds c member
    have low := c.latest_nonneg
    rw [mem_numbers]
    omega
  have grouped := flatMap_filter_ascends latest _ (numbers_ascend 0 (chunks.length + 1)) chunks _
    sequential.ascend
  have named : (numbers 0 (chunks.length + 1)).flatMap (waitingFor chunks) =
      ((numbers 0 (chunks.length + 1)).flatMap fun k => chunks.filter fun c => c.latest == k).map id := by
    rw [List.map_flatMap]
    rfl
  rw [named]
  constructor
  · intro same
    have ordered := sequential.ascend
    rw [← List.pairwise_map (f := id), ← same, List.pairwise_map] at ordered
    have equal := perm.eq_of_pairwise (fun a b _ _ less more => absurd more (Int.lt_asymm less))
      ordered sequential.ascend
    rw [equal] at grouped
    exact grouped.imp fun related => by omega
  · intro never
    have ordered := (never.and sequential.ascend).imp fun {a b} both =>
      show a.latest < b.latest ∨ a.latest = b.latest ∧ a.id < b.id by omega
    exact congrArg (List.map id) (perm.eq_of_pairwise (fun a b _ _ less more => by omega) grouped ordered)

end Chunk

theorem Script.chunks_sequential (s : Script) (z : Sizing) : Chunk.Sequential (s.chunks z) where
  numbered := by
    refine List.ext_getElem (by simp [Chunk.numbers]) ?_
    intro k inside _
    rw [List.length_map] at inside
    have named := chunks_id s z k _ (List.getElem?_eq_getElem inside)
    simp [Chunk.numbers, named]
    omega
  backward := by
    intro c member d needed
    have bounds := (chunks_backward s z c member).2 d needed
    omega

namespace DependencyGraph

open Chunk
open GraphNode (sortIds splitReady orderFrom)

theorem splitReady_start (chunks : List Chunk) (sequential : Sequential chunks) :
    splitReady (chunks.map GraphNode.ofChunk) = (waitingFor chunks 0, waitingAfter chunks 0) := by
  have start : chunks.map GraphNode.ofChunk = chunks.map (nodeAfter 0) := by
    refine List.map_congr_left fun c member => ?_
    rw [GraphNode.ofChunk, nodeAfter, List.filter_eq_self.mpr]
    intro d needed
    have positive := (sequential.backward c member d needed).1
    exact decide_eq_true (by omega)
  rw [start, splitReady_nodeAfter chunks sequential.ascend 0 (Int.le_refl 0), waitingFor]
  congr 3
  funext c
  have low := c.latest_nonneg
  rw [Bool.eq_iff_iff]
  simp
  omega

theorem order_eq_iff (chunks : List Chunk) (sequential : Sequential chunks) (ids : List Int)
    (read : order ⟨chunks.map GraphNode.ofChunk⟩ = .ok ids) :
    ids = numbers 1 chunks.length ↔ chunks.Pairwise fun a b => a.latest ≤ b.latest := by
  have perm := (splitReady_perm (chunks.map GraphNode.ofChunk)).length_eq
  rw [order_eq, GraphNode.order, splitReady_start chunks sequential] at read
  rw [splitReady_start chunks sequential, List.length_append, List.length_map, List.length_map,
    List.length_map] at perm
  dsimp only at read
  split at read
  · cases read
    have exact := orderFrom_eq_iff chunks sequential 0 chunks.length (waitingFor chunks 0) perm
    rw [Nat.zero_add] at exact
    rw [List.length_map, ← sequential.grouped_eq_iff, numbers_succ, List.flatMap_cons,
      sequential.numbered]
    exact exact
  · cases read

end DependencyGraph

/-- The graph of a script's chunks has an order that names each chunk once and after everything that it
relies on. It is the order of the script exactly when the last dependency of a chunk never lies after
that of a later chunk. -/
theorem chunkLines_order (lines : List Text) (z : Sizing) :
    ∃ g ids, DependencyGraph.build (chunkLines lines z) = .ok g ∧ g.order = .ok ids ∧
      ids.Perm ((chunkLines lines z).map Chunk.id) ∧
      (∀ c ∈ chunkLines lines z, ∀ d ∈ c.dependencies, [d, c.id].Sublist ids) ∧
      (ids = Chunk.numbers 1 (chunkLines lines z).length ↔
        (chunkLines lines z).Pairwise fun a b => a.latest ≤ b.latest) := by
  have orderly := Script.chunks_orderly (Script.ofLines lines) z
  have sequential := Script.chunks_sequential (Script.ofLines lines) z
  obtain ⟨ids, read, perm, follows⟩ := DependencyGraph.order_follows _ _ orderly
  exact ⟨_, ids, DependencyGraph.build_eq_ok _ _ orderly, read, perm, follows,
    DependencyGraph.order_eq_iff _ sequential ids read⟩

def freeBranch : List Text :=
  ["DECLARE @a INT", "IF @a = 1 PRINT 1", "IF 1 = 1 PRINT 2"]

/-- The third line is read before the second one. -/
theorem freeBranch_order :
    ∃ g, DependencyGraph.build (chunkLines freeBranch {}) = .ok g ∧ g.order = .ok [1, 3, 2] ∧
      Chunk.numbers 1 (chunkLines freeBranch {}).length = [1, 2, 3] := by
  have orderly := Script.chunks_orderly (Script.ofLines freeBranch) {}
  have nodes : (chunkLines freeBranch {}).map GraphNode.ofChunk = [⟨1, []⟩, ⟨2, [1]⟩, ⟨3, []⟩] := by
    decide +kernel
  have built := DependencyGraph.build_eq_ok _ (chunkLines freeBranch {}) orderly
  have count := congrArg List.length nodes
  rw [List.length_map] at count
  rw [nodes] at built
  exact ⟨_, built, by cbv, by rw [count]; rfl⟩

end ScriptAtlas
