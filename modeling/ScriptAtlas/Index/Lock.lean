import ScriptAtlas.Text.Basic

/-!
Which roots are being indexed. Different roots may be indexed at the same time; a second run on one
root is refused.
-/

namespace ScriptAtlas

structure IndexLock where
  active : List Text := []
  deriving DecidableEq, Repr

namespace IndexLock

def holds (l : IndexLock) (root : Text) : Bool :=
  l.active.elem root

/-- Marks a root as being indexed, unless it is already. -/
def acquire (l : IndexLock) (root : Text) : Bool × IndexLock :=
  if l.holds root then (false, l) else (true, ⟨root :: l.active⟩)

def release (l : IndexLock) (root : Text) : IndexLock :=
  ⟨l.active.filter (· != root)⟩

end IndexLock

end ScriptAtlas
