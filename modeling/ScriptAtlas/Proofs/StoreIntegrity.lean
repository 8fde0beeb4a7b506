import ScriptAtlas.Proofs.SoundTables

/-!
Stores after any calls. Whatever was called on an empty store, inside transactions or not, roots, places
and chunk numbers occur once and every reference leads to a row. A transaction that is rolled back leaves
the store as it was at its beginning, whether the calls in it succeeded or failed.
-/

namespace ScriptAtlas

def StoreCall.staysInside : StoreCall → Bool
  | commit | rollBack => false
  | _ => true

namespace Store

variable {s : Store} {beginning : Tables}

theorem change_kept {α : Type} (s : Store) (during : Option StoreAction) (f : Tables → Changed α) :
    (s.change during f).2.begun = s.begun ∧ (s.change during f).2.isClosed = s.isClosed := by
  rw [change]
  split <;> exact ⟨rfl, rfl⟩

theorem perform_inside (busy : s.begun = some beginning) (call : StoreCall) (inside : call.staysInside = true) :
    (call.perform s).begun = some beginning ∧ (call.perform s).isClosed = s.isClosed := by
  rw [← busy]
  cases call with
  | createProject root version => exact change_kept s _ _
  | updateProject id scripts chunks version => exact change_kept s _ _
  | upsertScript project path facts => exact change_kept s _ _
  | deleteScript id => exact change_kept s _ _
  | replaceChunks script chunks => exact change_kept s _ _
  | beginTransaction =>
      rw [StoreCall.perform, beginTransaction]
      split
      · exact ⟨rfl, rfl⟩
      · rw [busy]
        exact ⟨busy, rfl⟩
  | commit => cases inside
  | rollBack => cases inside

theorem run_inside (busy : s.begun = some beginning) (calls : List StoreCall)
    (inside : ∀ call ∈ calls, call.staysInside = true) :
    (calls.foldl StoreCall.perform s).begun = some beginning ∧
      (calls.foldl StoreCall.perform s).isClosed = s.isClosed := by
  induction calls generalizing s with
  | nil => exact ⟨busy, rfl⟩
  | cons call rest ih =>
      rw [List.forall_mem_cons] at inside
      have step := perform_inside busy call inside.1
      have later := ih step.1 inside.2
      rw [List.foldl_cons]
      exact ⟨later.1, later.2.trans step.2⟩

/-- Rolling back restores everything that calls inside a transaction can change. -/
theorem rollBack_run (isOpen : s.isClosed = false) (free : s.begun = none) (calls : List StoreCall)
    (inside : ∀ call ∈ calls, call.staysInside = true) :
    (.beginTransaction :: (calls ++ [.rollBack])).foldl StoreCall.perform s = s := by
  have start : StoreCall.beginTransaction.perform s = { s with begun := some s.tables } := by
    rw [StoreCall.perform, beginTransaction_eq isOpen free]
  have kept := run_inside (s := { s with begun := some s.tables }) rfl calls inside
  rw [List.foldl_cons, start, List.foldl_append, List.foldl_cons, List.foldl_nil, StoreCall.perform,
    rollBack, kept.1]
  obtain ⟨tables, begun, isClosed⟩ := s
  simp only at free kept ⊢
  rw [kept.2, free]

/-- After any calls on an empty store the roots of projects, the places of scripts and the numbers of the
chunks of a script are distinct, and scripts, chunks and dependencies belong to a row that is there. A
transaction begun then and rolled back leaves the store as it was. -/
theorem calls_keep_integrity (calls : List StoreCall) :
    let s := calls.foldl StoreCall.perform {}
    (s.tables.projects.map ProjectRow.root).Nodup ∧
    (s.tables.scripts.map fun r => (r.project, r.path)).Nodup ∧
    (s.tables.chunks.map fun c => (c.script, c.number)).Nodup ∧
    (∀ r ∈ s.tables.scripts, ∃ p ∈ s.tables.projects, p.id = r.project) ∧
    (∀ c ∈ s.tables.chunks, ∃ r ∈ s.tables.scripts, r.id = c.script) ∧
    (∀ d ∈ s.tables.dependencies, ∃ c ∈ s.tables.chunks, c.id = d.chunk) ∧
    ∀ inside : List StoreCall, s.begun = none → (∀ call ∈ inside, call.staysInside = true) →
      (.beginTransaction :: (inside ++ [.rollBack])).foldl StoreCall.perform s = s := by
  intro s
  have sound : s.Sound := Reachable.sound ⟨calls, rfl⟩
  refine ⟨sound.tables.roots, sound.tables.places, sound.tables.numbers, sound.tables.owned,
    sound.tables.held, sound.tables.relied, ?_⟩
  intro inside free stays
  exact rollBack_run sound.isOpen free inside stays

def filed : List StoreCall :=
  [.createProject "/p" "1.1.0", .upsertScript 1 "a.sql" ⟨.zero, 0, 0, "hybrid", ""⟩,
    .replaceChunks 1 [{ id := 1 }, { id := 2, dependencies := [1] }]]

/-- Calls of which only the second one succeeds: the root is known, and then the script is gone, the project
unknown and the transaction open. -/
def undone : List StoreCall :=
  [.createProject "/p" "1.1.0", .deleteScript 1, .replaceChunks 1 [{ id := 1 }],
    .upsertScript 7 "b.sql" ⟨.zero, 0, 0, "hybrid", ""⟩, .beginTransaction]

theorem calls_keep_integrity_undone :
    let s := filed.foldl StoreCall.perform {}
    s.begun = none ∧ (∀ call ∈ undone, call.staysInside = true) ∧
      (undone.foldl StoreCall.perform s).tables ≠ s.tables ∧
      (.beginTransaction :: (undone ++ [.rollBack])).foldl StoreCall.perform s = s := by
  intro s
  have free : s.begun = none := by decide +kernel
  have stays : ∀ call ∈ undone, call.staysInside = true := by decide
  obtain ⟨-, -, -, -, -, -, restored⟩ := calls_keep_integrity filed
  exact ⟨free, stays, by decide +kernel, restored undone free stays⟩

end Store

end ScriptAtlas
