import Mathlib.Data.List.Chain
import Mathlib.Data.List.Forall2
import ScriptAtlas.Proofs.Partition

/-!
Parts of one block form one chain. The chunks of a script fall into one group for each block of its
plan; the parts of a divided block number themselves within their group, and the continuation links
join neighbours of a group and nothing else.
-/

namespace ScriptAtlas

namespace Chunk

def sharesParent (c d : Chunk) : Bool :=
  match c.part, d.part with
  | some p, some q => p.sameParent q
  | _, _ => false

def siblings (chunks : List Chunk) (c : Chunk) : List Chunk :=
  chunks.filter c.sharesParent

theorem sharesParent_eq_true (c d : Chunk) : c.sharesParent d = true ↔
    ∃ p q, c.part = some p ∧ d.part = some q ∧ p.parentStart = q.parentStart ∧
      p.parentEnd = q.parentEnd ∧ p.parentKind = q.parentKind := by
  rw [sharesParent]
  split
  · rename_i p q left right
    simp [left, right, Part.sameParent, and_assoc]
  · rename_i missing
    simp only [Bool.false_eq_true, false_iff]
    rintro ⟨p, q, left, right, _⟩
    exact missing p q left right

theorem sharesParent_comm (c d : Chunk) : c.sharesParent d = d.sharesParent c := by
  rw [Bool.eq_iff_iff, sharesParent_eq_true, sharesParent_eq_true]
  constructor
  · rintro ⟨p, q, left, right, start, stop, kind⟩
    exact ⟨q, p, right, left, start.symm, stop.symm, kind.symm⟩
  · rintro ⟨q, p, right, left, start, stop, kind⟩
    exact ⟨p, q, left, right, start.symm, stop.symm, kind.symm⟩

theorem sharesParent_of_isContinuedBy (c next : Chunk) (continued : c.isContinuedBy next = true) :
    c.sharesParent next = true := by
  cases left : c.part with
  | none =>
      rw [isContinuedBy, left] at continued
      cases continued
  | some p =>
      cases right : next.part with
      | none =>
          rw [isContinuedBy, left, right] at continued
          cases continued
      | some q =>
          rw [isContinuedBy, left, right] at continued
          rw [sharesParent, left, right]
          exact (Bool.and_eq_true_iff.mp continued).1

/-! ### The chunks of one block -/

/-- The chunks of a block beside the chunk `whole` of all its lines: a single one that is no part, or
several parts that name the block and number themselves. -/
inductive PartsOf (whole : Chunk) : List Chunk → Prop
  | undivided (c : Chunk) (plain : c.part = none) : PartsOf whole [c]
  | divided (group : List Chunk) (reason : Text) (several : 2 ≤ group.length)
      (numbered : ∀ (k : Nat) (c : Chunk), group[k]? = some c →
        c.part = some ⟨whole.kind, whole.start, whole.stop, k + 1, group.length, reason⟩) :
      PartsOf whole group

theorem PartsOf.ne_nil {whole : Chunk} {group : List Chunk} (parts : PartsOf whole group) :
    group ≠ [] := by
  cases parts with
  | undivided c _ => exact List.cons_ne_nil c []
  | divided _ _ several _ => exact List.ne_nil_of_length_pos (Nat.lt_of_lt_of_le Nat.two_pos several)

theorem PartsOf.congr {whole : Chunk} {group other : List Chunk} (parts : PartsOf whole group)
    (same : other.map unlinked = group.map unlinked) : PartsOf whole other := by
  have length : other.length = group.length := by simpa using congrArg List.length same
  have part_eq : ∀ (k : Nat) (c : Chunk), other[k]? = some c →
      ∃ d, group[k]? = some d ∧ d.part = c.part := by
    intro k c here
    have view := congrArg (·[k]?) same
    simp only [List.getElem?_map, here, Option.map_some] at view
    obtain ⟨d, found, alike⟩ := Option.map_eq_some_iff.mp view.symm
    exact ⟨d, found, by simpa only [unlinked] using congrArg part alike⟩
  cases parts with
  | undivided c plain =>
      obtain ⟨d, rfl⟩ := List.length_eq_one_iff.mp length
      obtain ⟨e, found, alike⟩ := part_eq 0 d rfl
      cases found
      exact .undivided d (alike.symm.trans plain)
  | divided _ reason several numbered =>
      refine .divided other reason (by omega) ?_
      intro k c here
      obtain ⟨d, found, alike⟩ := part_eq k c here
      rw [← alike, numbered k d found, length]

theorem PartsOf.part_eq {whole : Chunk} {group : List Chunk} (parts : PartsOf whole group) (c : Chunk)
    (member : c ∈ group) (p : Part) (isPart : c.part = some p) :
    p.parentKind = whole.kind ∧ p.parentStart = whole.start ∧ p.parentEnd = whole.stop ∧
      1 ≤ p.ordinal ∧ p.ordinal ≤ p.total := by
  cases parts with
  | undivided d plain =>
      rw [List.mem_singleton.mp member, plain] at isPart
      cases isPart
  | divided _ reason several numbered =>
      obtain ⟨k, here⟩ := List.mem_iff_getElem?.mp member
      have inside := (List.getElem?_eq_some_iff.mp here).1
      rw [numbered k c here] at isPart
      cases isPart
      exact ⟨rfl, rfl, rfl, by dsimp only; omega, by dsimp only; omega⟩

theorem PartsOf.shares {whole : Chunk} {group : List Chunk} (parts : PartsOf whole group)
    (c d : Chunk) (left : c ∈ group) (right : d ∈ group) (isPart : c.part ≠ none) :
    c.sharesParent d = true := by
  cases parts with
  | undivided e plain =>
      rw [List.mem_singleton.mp left] at isPart
      exact absurd plain isPart
  | divided _ reason several numbered =>
      obtain ⟨j, here⟩ := List.mem_iff_getElem?.mp left
      obtain ⟨k, there⟩ := List.mem_iff_getElem?.mp right
      rw [sharesParent_eq_true]
      exact ⟨_, _, numbered j c here, numbered k d there, rfl, rfl, rfl⟩

theorem PartsOf.isContinuedBy {whole : Chunk} {group : List Chunk} (parts : PartsOf whole group)
    (k : Nat) (c next : Chunk) (here : group[k]? = some c) (after : group[k + 1]? = some next) :
    c.isContinuedBy next = true := by
  cases parts with
  | undivided d plain => simp at after
  | divided _ reason several numbered =>
      rw [Chunk.isContinuedBy, numbered k c here, numbered (k + 1) next after]
      simp [Part.sameParent]

end Chunk

namespace Divider

theorem partChunks_getElem? (d : Divider) (part : Part) (ordinal : Int) (parts : List Block)
    (k : Nat) :
    (d.partChunks part ordinal parts)[k]? = parts[k]?.map fun p =>
      { Chunk.ofLines d.script p.start p.stop with
        part := some { part with ordinal := ordinal + k } } := by
  induction parts generalizing ordinal k with
  | nil => rfl
  | cons p rest ih =>
      rw [partChunks]
      cases k with
      | zero => simp
      | succ k =>
          simp only [List.getElem?_cons_succ, ih (ordinal + 1) k, Int.natCast_add, Int.natCast_one]
          rw [show ordinal + 1 + (k : Int) = ordinal + (k + 1) by omega]

theorem partChunks_length (d : Divider) (part : Part) (ordinal : Int) (parts : List Block) :
    (d.partChunks part ordinal parts).length = parts.length := by
  simpa using congrArg List.length (partChunks_lines d part ordinal parts)

theorem chunksOf_partsOf (d : Divider) (b : Block) :
    (Chunk.ofLines d.script b.start b.stop).PartsOf (d.chunksOf b) := by
  rw [chunksOf]
  split
  · exact .undivided _ rfl
  · dsimp only
    split
    · exact .undivided _ rfl
    · rename_i several
      refine .divided _ (d.reason b (d.parts b.start b.stop).2) ?_ ?_
      · rw [partChunks_length]
        omega
      · intro k c here
        rw [partChunks_getElem?] at here
        obtain ⟨p, _, rfl⟩ := Option.map_eq_some_iff.mp here
        rw [partChunks_length]
        simp only [Chunk.ofLines, Int.add_comm]

end Divider

/-! ### One group for each block -/

namespace Chunk

/-- A sequence that looks like the chunks of several items falls into one group for each item. -/
theorem exists_groups {α β γ : Type} (view : α → β) (inner : γ → List β) (items : List γ)
    (chunks : List α) (same : chunks.map view = items.flatMap inner) :
    ∃ groups : List (List α), groups.flatten = chunks ∧
      List.Forall₂ (fun item group => group.map view = inner item) items groups := by
  induction items generalizing chunks with
  | nil =>
      rw [List.flatMap_nil, List.map_eq_nil_iff] at same
      exact ⟨[], same.symm, .nil⟩
  | cons item rest ih =>
      rw [List.flatMap_cons] at same
      obtain ⟨front, back, rfl, here, later⟩ := List.map_eq_append_iff.mp same
      obtain ⟨groups, flat, related⟩ := ih back later
      exact ⟨front :: groups, by rw [List.flatten_cons, flat], .cons here related⟩

def Separate (group other : List Chunk) : Prop :=
  ∀ c ∈ group, ∀ d ∈ other, c.sharesParent d = false

theorem PartsOf.separate {whole other : Chunk} {group groupOther : List Chunk}
    (parts : PartsOf whole group) (partsOther : PartsOf other groupOther)
    (apart : whole.start ≠ other.start) : Separate group groupOther := by
  intro c left d right
  by_contra shared
  rw [Bool.not_eq_false, sharesParent_eq_true] at shared
  obtain ⟨p, q, isPart, isPartOther, start, _⟩ := shared
  have first := parts.part_eq c left p isPart
  have second := partsOther.part_eq d right q isPartOther
  omega

theorem pairwise_of_forall₂ {α β : Type} {related : α → β → Prop} {order : α → α → Prop}
    {target : β → β → Prop} {left : List α} {right : List β} (both : List.Forall₂ related left right)
    (ordered : left.Pairwise order)
    (step : ∀ a a' b b', related a b → related a' b' → order a a' → target b b') :
    right.Pairwise target := by
  rw [List.pairwise_iff_getElem] at ordered ⊢
  intro i j low high before
  have length := both.length_eq
  exact step _ _ _ _ (both.get (length ▸ low) low) (both.get (length ▸ high) high)
    (ordered i j (length ▸ low) (length ▸ high) before)

theorem siblings_eq_group {groups : List (List Chunk)} (separate : groups.Pairwise Separate)
    (group : List Chunk) (member : group ∈ groups) (c : Chunk) (inside : c ∈ group)
    (shares : ∀ d ∈ group, c.sharesParent d = true) : siblings groups.flatten c = group := by
  obtain ⟨before, after, rfl⟩ := List.append_of_mem member
  obtain ⟨_, later, earlier⟩ := List.pairwise_append.mp separate
  obtain ⟨later, _⟩ := List.pairwise_cons.mp later
  have nothingBefore : before.flatten.filter c.sharesParent = [] := by
    rw [List.filter_eq_nil_iff]
    intro d present
    obtain ⟨other, among, there⟩ := List.mem_flatten.mp present
    rw [sharesParent_comm, earlier other among group List.mem_cons_self d there c inside]
    exact Bool.false_ne_true
  have nothingAfter : after.flatten.filter c.sharesParent = [] := by
    rw [List.filter_eq_nil_iff]
    intro d present
    obtain ⟨other, among, there⟩ := List.mem_flatten.mp present
    rw [later other among c inside d there]
    exact Bool.false_ne_true
  rw [siblings, List.flatten_append, List.flatten_cons, List.filter_append, List.filter_append,
    nothingBefore, nothingAfter, List.filter_eq_self.mpr shares, List.nil_append, List.append_nil]

end Chunk

namespace Script

/-- The chunks of a script fall into one group for each block of its plan, and different groups were
cut from different blocks. -/
theorem chunks_groups (s : Script) (z : Sizing) :
    ∃ groups : List (List Chunk), groups.flatten = s.chunks z ∧ groups.Pairwise Chunk.Separate ∧
      List.Forall₂ (fun b group => group.map Chunk.unlinked =
        ((Divider.mk z.normalized s).chunksOf b).map Chunk.unlinked) s.plan groups := by
  have same := chunks_unlinked s z
  rw [List.map_flatMap] at same
  obtain ⟨groups, flat, related⟩ := Chunk.exists_groups _ _ _ _ same
  refine ⟨groups, flat, ?_, related⟩
  have ascend := List.pairwise_map.mp (plan_tiles s).starts_ascend
  refine Chunk.pairwise_of_forall₂ related ascend ?_
  intro b later group other here there order
  have parts := (Divider.chunksOf_partsOf (Divider.mk z.normalized s) b).congr here
  have partsLater := (Divider.chunksOf_partsOf (Divider.mk z.normalized s) later).congr there
  refine parts.separate partsLater ?_
  simp only [Block.span] at order
  simp only [Chunk.ofLines]
  omega

end Script

/-! ### Links -/

namespace Chunk

/-- The links between a chunk and the next one: they name each other if the next is a continuation. -/
def Joined (c next : Chunk) : Prop :=
  c.continuesIn = (if c.isContinuedBy next then next.id else 0) ∧
    next.continuesFrom = if c.isContinuedBy next then c.id else 0

theorem linkContinuationsAfter_joined (previous : Option Chunk) (chunks : List Chunk)
    (fresh : ∀ c ∈ chunks, c.continuesFrom = 0 ∧ c.continuesIn = 0) :
    (linkContinuationsAfter previous chunks).IsChain Joined := by
  induction chunks generalizing previous with
  | nil => exact .nil
  | cons c rest ih =>
      have later := ih (some c) fun d member => fresh d (List.mem_cons_of_mem c member)
      rw [linkContinuationsAfter]
      cases rest with
      | nil => exact .singleton _
      | cons next others =>
          have here := fresh c List.mem_cons_self
          have there := fresh next (List.mem_cons_of_mem c List.mem_cons_self)
          rw [linkContinuationsAfter] at later ⊢
          refine .cons_cons ⟨?_, ?_⟩ later
          · simp only [withNeighbours, isContinuedBy, List.head?_cons, here.2]
          · simp only [withNeighbours, isContinuedBy, there.1]

theorem linkContinuationsAfter_last (previous : Option Chunk) (chunks : List Chunk)
    (fresh : ∀ c ∈ chunks, c.continuesFrom = 0 ∧ c.continuesIn = 0) (c : Chunk)
    (last : (linkContinuationsAfter previous chunks).getLast? = some c) : c.continuesIn = 0 := by
  induction chunks generalizing previous with
  | nil => cases last
  | cons d rest ih =>
      cases rest with
      | nil =>
          cases last
          exact (fresh d List.mem_cons_self).2
      | cons next others =>
          apply ih (some d) fun e member => fresh e (List.mem_cons_of_mem d member)
          simpa only [linkContinuationsAfter, List.getLast?_cons_cons] using last

/-- A sequence whose links join neighbours only and do not leave it. -/
structure Linked (chunks : List Chunk) : Prop where
  joined : chunks.IsChain Joined
  opens : ∀ c, chunks.head? = some c → c.continuesFrom = 0
  closes : ∀ c, chunks.getLast? = some c → c.continuesIn = 0

theorem linkContinuations_linked (chunks : List Chunk)
    (fresh : ∀ c ∈ chunks, c.continuesFrom = 0 ∧ c.continuesIn = 0) :
    Linked (linkContinuations chunks) := by
  refine ⟨linkContinuationsAfter_joined none chunks fresh, ?_,
    linkContinuationsAfter_last none chunks fresh⟩
  intro c first
  cases chunks with
  | nil => cases first
  | cons d rest =>
      cases first
      exact (fresh d List.mem_cons_self).1

/-- A chunk without its description and dependencies. -/
def placed (c : Chunk) : Chunk :=
  { c with title := [], summary := [], dependencies := [] }

theorem linkDependenciesFrom_placed (declared : Declarations) (chunks : List Chunk) :
    (linkDependenciesFrom declared chunks).map placed = chunks.map placed := by
  induction chunks generalizing declared with
  | nil => rfl
  | cons c rest ih =>
      rw [linkDependenciesFrom, List.map_cons, List.map_cons, ih]
      rfl

theorem linked_map_placed (chunks : List Chunk) : Linked (chunks.map placed) ↔ Linked chunks := by
  constructor
  · rintro ⟨joined, opens, closes⟩
    refine ⟨(List.isChain_map placed).mp joined, ?_, ?_⟩
    · intro c first
      exact opens c.placed (by rw [List.head?_map, first, Option.map_some])
    · intro c last
      exact closes c.placed (by rw [List.getLast?_map, last, Option.map_some])
  · rintro ⟨joined, opens, closes⟩
    refine ⟨(List.isChain_map placed).mpr joined, ?_, ?_⟩
    · intro c first
      rw [List.head?_map] at first
      obtain ⟨d, found, rfl⟩ := Option.map_eq_some_iff.mp first
      exact opens d found
    · intro c last
      rw [List.getLast?_map] at last
      obtain ⟨d, found, rfl⟩ := Option.map_eq_some_iff.mp last
      exact closes d found

theorem Joined.of_not_shares {c next : Chunk} (joined : Joined c next)
    (apart : c.sharesParent next = false) : c.continuesIn = 0 ∧ next.continuesFrom = 0 := by
  have not_continued : ¬ c.isContinuedBy next = true := by
    intro continued
    rw [sharesParent_of_isContinuedBy c next continued] at apart
    cases apart
  rw [Joined, if_neg not_continued, if_neg not_continued] at joined
  exact joined

theorem Linked.group {groups : List (List Chunk)} (linked : Linked groups.flatten)
    (separate : groups.Pairwise Separate) (group : List Chunk) (member : group ∈ groups) :
    Linked group := by
  obtain ⟨before, after, rfl⟩ := List.append_of_mem member
  obtain ⟨_, later, earlier⟩ := List.pairwise_append.mp separate
  obtain ⟨later, _⟩ := List.pairwise_cons.mp later
  obtain ⟨joined, opens, closes⟩ := linked
  rw [List.flatten_append, List.flatten_cons] at joined opens closes
  obtain ⟨_, joinedBack, entrance⟩ := List.isChain_append.mp joined
  obtain ⟨joinedGroup, _, exit⟩ := List.isChain_append.mp joinedBack
  refine ⟨joinedGroup, ?_, ?_⟩
  · intro c first
    have head : (group ++ after.flatten).head? = some c := by rw [List.head?_append, first]; rfl
    cases previous : before.flatten.getLast? with
    | none =>
        apply opens c
        rw [List.getLast?_eq_none_iff.mp previous, List.nil_append, head]
    | some p =>
        obtain ⟨other, among, there⟩ := List.mem_flatten.mp (List.mem_of_getLast? previous)
        have apart := earlier other among group List.mem_cons_self p there c (List.mem_of_head? first)
        exact ((entrance p previous c head).of_not_shares apart).2
  · intro c last
    cases next : after.flatten.head? with
    | none =>
        apply closes c
        rw [List.head?_eq_none_iff.mp next, List.append_nil, List.getLast?_append, last]
        rfl
    | some n =>
        obtain ⟨other, among, there⟩ := List.mem_flatten.mp (List.mem_of_head? next)
        have apart := later other among c (List.mem_of_getLast? last) n there
        exact ((exit c last n next).of_not_shares apart).1

theorem mem_numberFrom (id : Int) (chunks : List Chunk) (c : Chunk)
    (member : c ∈ numberFrom id chunks) : ∃ d ∈ chunks, c = { d with id := c.id } := by
  induction chunks generalizing id with
  | nil => cases member
  | cons first rest ih =>
      rw [numberFrom] at member
      rcases List.mem_cons.mp member with rfl | later
      · exact ⟨first, List.mem_cons_self, rfl⟩
      · obtain ⟨d, inside, same⟩ := ih (id + 1) later
        exact ⟨d, List.mem_cons_of_mem first inside, same⟩

end Chunk

theorem Divider.chunksOf_fresh (d : Divider) (b : Block) :
    ∀ c ∈ d.chunksOf b, c.continuesFrom = 0 ∧ c.continuesIn = 0 := by
  intro c member
  rw [chunksOf] at member
  split at member
  · rw [List.mem_singleton.mp member]
    exact ⟨rfl, rfl⟩
  · dsimp only at member
    split at member
    · rw [List.mem_singleton.mp member]
      exact ⟨rfl, rfl⟩
    · obtain ⟨k, here⟩ := List.mem_iff_getElem?.mp member
      rw [partChunks_getElem?] at here
      obtain ⟨p, _, rfl⟩ := Option.map_eq_some_iff.mp here
      exact ⟨rfl, rfl⟩

theorem Script.chunks_linked (s : Script) (z : Sizing) : Chunk.Linked (s.chunks z) := by
  have described : Chunk.placed ∘ Chunk.described = Chunk.placed := rfl
  rw [← Chunk.linked_map_placed, chunks, List.map_map, described, Chunk.linkDependencies,
    Chunk.linkDependenciesFrom_placed, Chunk.linked_map_placed]
  apply Chunk.linkContinuations_linked
  intro c member
  obtain ⟨d, inside, same⟩ := Chunk.mem_numberFrom _ _ c member
  obtain ⟨b, _, among⟩ := List.mem_flatMap.mp inside
  rw [same]
  exact Divider.chunksOf_fresh _ b d among

/-! ### Chains of parts -/

namespace Chunk

theorem Linked.joined_at {chunks : List Chunk} (linked : Linked chunks) (k : Nat) (c next : Chunk)
    (here : chunks[k]? = some c) (after : chunks[k + 1]? = some next) : Joined c next := by
  obtain ⟨_, rfl⟩ := List.getElem?_eq_some_iff.mp here
  obtain ⟨inside, rfl⟩ := List.getElem?_eq_some_iff.mp after
  exact List.isChain_iff_getElem.mp linked.joined k inside

theorem Linked.continuesIn_eq {chunks : List Chunk} (linked : Linked chunks) (k : Nat) (c : Chunk)
    (here : chunks[k]? = some c) (link : c.continuesIn ≠ 0) :
    ∃ next, chunks[k + 1]? = some next ∧ c.sharesParent next = true ∧ c.continuesIn = next.id := by
  cases after : chunks[k + 1]? with
  | none =>
      have last : chunks.getLast? = some c := by
        have inside := (List.getElem?_eq_some_iff.mp here).1
        rw [List.getElem?_eq_none_iff] at after
        rw [List.getLast?_eq_getElem?, show chunks.length - 1 = k by omega, here]
      exact absurd (linked.closes c last) link
  | some next =>
      have joined := (linked.joined_at k c next here after).1
      split at joined
      · rename_i continued
        exact ⟨next, rfl, sharesParent_of_isContinuedBy c next continued, joined⟩
      · exact absurd joined link

theorem Linked.continuesFrom_eq {chunks : List Chunk} (linked : Linked chunks) (k : Nat) (c : Chunk)
    (here : chunks[k]? = some c) (link : c.continuesFrom ≠ 0) :
    ∃ j previous, k = j + 1 ∧ chunks[j]? = some previous ∧ previous.sharesParent c = true ∧
      c.continuesFrom = previous.id := by
  cases k with
  | zero =>
      rw [← List.head?_eq_getElem?] at here
      exact absurd (linked.opens c here) link
  | succ j =>
      have inside := (List.getElem?_eq_some_iff.mp here).1
      obtain ⟨previous, before⟩ : ∃ previous, chunks[j]? = some previous :=
        ⟨chunks[j], List.getElem?_eq_getElem (by omega)⟩
      have joined := (linked.joined_at j previous c before here).2
      split at joined
      · rename_i continued
        exact ⟨j, previous, rfl, before, sharesParent_of_isContinuedBy previous c continued, joined⟩
      · exact absurd joined link

/-- Parts in order that are numbered from one to their number and linked to their neighbours, with
nothing before the first and after the last. -/
structure PartChain (parts : List Chunk) : Prop where
  several : 2 ≤ parts.length
  numbered : ∀ (k : Nat) (c : Chunk), parts[k]? = some c →
    ∃ p, c.part = some p ∧ p.ordinal = k + 1 ∧ p.total = parts.length
  joined : ∀ (k : Nat) (c next : Chunk), parts[k]? = some c → parts[k + 1]? = some next →
    c.continuesIn = next.id ∧ next.continuesFrom = c.id
  opens : ∀ c, parts.head? = some c → c.continuesFrom = 0
  closes : ∀ c, parts.getLast? = some c → c.continuesIn = 0

theorem PartsOf.partChain {whole : Chunk} {group : List Chunk} (parts : PartsOf whole group)
    (linked : Linked group) (c : Chunk) (member : c ∈ group) (isPart : c.part ≠ none) :
    PartChain group := by
  have continued := parts.isContinuedBy
  cases parts with
  | undivided d plain =>
      rw [List.mem_singleton.mp member] at isPart
      exact absurd plain isPart
  | divided _ reason several numbered =>
      refine ⟨several, ?_, ?_, linked.opens, linked.closes⟩
      · intro k d here
        exact ⟨_, numbered k d here, rfl, rfl⟩
      · intro k d next here after
        have joined := linked.joined_at k d next here after
        rwa [Joined, if_pos (continued k d next here after), if_pos (continued k d next here after)]
          at joined

theorem PartsOf.unlinked_of_plain {whole : Chunk} {group : List Chunk} (parts : PartsOf whole group)
    (linked : Linked group) (c : Chunk) (member : c ∈ group) (plain : c.part = none) :
    c.continuesFrom = 0 ∧ c.continuesIn = 0 := by
  cases parts with
  | undivided d _ =>
      rw [List.mem_singleton.mp member]
      exact ⟨linked.opens d rfl, linked.closes d rfl⟩
  | divided _ reason several numbered =>
      obtain ⟨k, here⟩ := List.mem_iff_getElem?.mp member
      rw [numbered k c here] at plain
      cases plain

end Chunk

theorem Script.exists_group (s : Script) (z : Sizing) (c : Chunk) (member : c ∈ s.chunks z) :
    ∃ b ∈ s.plan, ∃ group : List Chunk, c ∈ group ∧
      group.map Chunk.unlinked = ((Divider.mk z.normalized s).chunksOf b).map Chunk.unlinked ∧
      Chunk.Linked group ∧ group <:+: s.chunks z ∧
      (c.part ≠ none → Chunk.siblings (s.chunks z) c = group) := by
  obtain ⟨groups, flat, separate, related⟩ := chunks_groups s z
  have linked := chunks_linked s z
  rw [← flat] at member linked ⊢
  obtain ⟨group, among, inside⟩ := List.mem_flatten.mp member
  obtain ⟨k, low, rfl⟩ := List.getElem_of_mem among
  have planned : k < s.plan.length := related.length_eq ▸ low
  have same := related.get planned low
  refine ⟨s.plan[k], List.getElem_mem planned, groups[k], inside, same, linked.group separate _ among,
    List.infix_of_mem_flatten among, ?_⟩
  intro isPart
  have parts := (Divider.chunksOf_partsOf _ _).congr same
  apply Chunk.siblings_eq_group separate _ among c inside
  exact fun d there => parts.shares c d inside there isPart

theorem Script.mem_chunks_group (s : Script) (z : Sizing) (c : Chunk) (member : c ∈ s.chunks z) :
    ∃ (group : List Chunk) (whole : Chunk), c ∈ group ∧ whole.PartsOf group ∧ Chunk.Linked group ∧
      group <:+: s.chunks z ∧ (c.part ≠ none → Chunk.siblings (s.chunks z) c = group) := by
  obtain ⟨b, _, group, inside, same, rest⟩ := exists_group s z c member
  exact ⟨group, _, inside, (Divider.chunksOf_partsOf _ b).congr same, rest⟩

/-- The chunks cut from one block stand together as one chain, all other chunks have no links, and no
link joins chunks of different blocks. -/
theorem chunkLines_continuations (lines : List Text) (z : Sizing) :
    (∀ c ∈ chunkLines lines z, c.part = none → c.continuesFrom = 0 ∧ c.continuesIn = 0) ∧
    (∀ c ∈ chunkLines lines z, c.part ≠ none →
      Chunk.siblings (chunkLines lines z) c <:+: chunkLines lines z ∧
        Chunk.PartChain (Chunk.siblings (chunkLines lines z) c)) ∧
    ∀ c ∈ chunkLines lines z, ∀ d ∈ chunkLines lines z,
      c.continuesIn = d.id ∨ d.continuesFrom = c.id → c.sharesParent d = true := by
  have grouped := Script.mem_chunks_group (Script.ofLines lines) z
  have linked := Script.chunks_linked (Script.ofLines lines) z
  have ids := Script.chunks_id (Script.ofLines lines) z
  simp only [chunkLines]
  refine ⟨?_, ?_, ?_⟩
  · intro c member plain
    obtain ⟨group, whole, inside, parts, chain, _⟩ := grouped c member
    exact parts.unlinked_of_plain chain c inside plain
  · intro c member isPart
    obtain ⟨group, whole, inside, parts, chain, together, all⟩ := grouped c member
    rw [all isPart]
    exact ⟨together, parts.partChain chain c inside isPart⟩
  · intro c member d present link
    obtain ⟨k, here⟩ := List.mem_iff_getElem?.mp member
    obtain ⟨j, there⟩ := List.mem_iff_getElem?.mp present
    have idHere := ids k c here
    have idThere := ids j d there
    rcases link with forth | back
    · obtain ⟨next, after, shares, same⟩ := linked.continuesIn_eq k c here (by omega)
      have idNext := ids (k + 1) next after
      have position : j = k + 1 := by omega
      rw [position, after] at there
      cases there
      exact shares
    · obtain ⟨i, previous, position, before, shares, same⟩ :=
        linked.continuesFrom_eq j d there (by omega)
      have idBefore := ids i previous before
      have position : k = i := by omega
      rw [position, before] at here
      cases here
      exact shares

/-- A branch that is cut behind the line that begins its body becomes a chain. -/
theorem chunkLines_continuations_branch :
    let chunks := chunkLines ["IF @a = 1", "BEGIN", "SELECT 1", "END"]
      { target := 1, min := 1, max := 2 }
    (∃ c ∈ chunks, c.part ≠ none) ∧
      ∀ c ∈ chunks, c.part ≠ none → Chunk.PartChain (Chunk.siblings chunks c) := by
  intro chunks
  refine ⟨by decide +kernel, ?_⟩
  intro c member isPart
  exact ((chunkLines_continuations _ _).2.1 c member isPart).2

end ScriptAtlas
