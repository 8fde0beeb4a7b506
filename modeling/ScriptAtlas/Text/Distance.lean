import ScriptAtlas.Text.Basic

/-!
How far two texts are apart: the least number of bytes to insert, remove or change.
-/

namespace ScriptAtlas.Text

/-- The distances of a text with one more byte `b` from the beginnings of `t`, behind the distance
`left`; `row` holds the distances without that byte. -/
def distancesFrom (b : UInt8) (left : Nat) : Text → List Nat → List Nat
  | c :: t, corner :: above :: row =>
    let here := if b == c then corner else 1 + min corner (min left above)
    here :: distancesFrom b here t (above :: row)
  | _, _ => []

def nextDistances (t : Text) (row : List Nat) (b : UInt8) : List Nat :=
  match row with
  | [] => []
  | first :: _ => (first + 1) :: distancesFrom b (first + 1) t row

/-- The number of single-byte changes that lead from one text to the other. -/
def distance (s t : Text) : Nat :=
  ((s.foldl (nextDistances t) (List.range (t.length + 1))).getLast?).getD 0

end ScriptAtlas.Text
