import ScriptAtlas.Text.Basic

/-!
A cache of limited size that forgets what was not used for the longest time.
-/

namespace ScriptAtlas

structure CacheEntry (α : Type) where
  key : Text
  value : α
  expires : Int

/-- Remembered values, the last used first. -/
structure Cache (α : Type) where
  entries : List (CacheEntry α) := []

namespace Cache

variable {α : Type}

def capacity : Nat := 1000

def size (c : Cache α) : Nat :=
  c.entries.length

def erase (c : Cache α) (key : Text) : Cache α :=
  ⟨c.entries.filter fun e => e.key != key⟩

/-- The value of a key that has not expired, which becomes the last used; an expired one is forgotten.
-/
def get (c : Cache α) (now : Int) (key : Text) : Option α × Cache α :=
  match c.entries.find? fun e => e.key == key with
  | none => (none, c)
  | some e =>
    let rest := c.erase key
    if e.expires < now then (none, rest) else (some e.value, ⟨e :: rest.entries⟩)

def put (c : Cache α) (key : Text) (value : α) (expires : Int) : Cache α :=
  ⟨(⟨key, value, expires⟩ :: (c.erase key).entries).take capacity⟩

end Cache

end ScriptAtlas
