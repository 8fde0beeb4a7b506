import Mathlib.Data.UInt
import ScriptAtlas.Number.Fixed

/-!
Decimal digits and their value, and the bytes of numbers with a fixed number of places.
-/

namespace ScriptAtlas.Text

theorem ofNat_of_lt {n : Nat} (small : n < 10) : ofNat n = [UInt8.ofNat (0x30 + n)] := by
  have digits : ∀ n : Fin 10, (Nat.digitChar n).toNat.toUInt8 = UInt8.ofNat (0x30 + n) := by decide
  rw [ofNat, Nat.toDigits_of_lt_base small, List.map_singleton, digits ⟨n, small⟩]

theorem ofNat_of_le {n : Nat} (large : 10 ≤ n) :
    ofNat n = ofNat (n / 10) ++ ofNat (n % 10) := by
  have low : n % 10 < 10 := Nat.mod_lt n (by decide)
  have last : ofNat (n % 10) = [(n % 10).digitChar].map fun c => c.toNat.toUInt8 := by
    rw [ofNat, Nat.toDigits_of_lt_base low]
  rw [last, ofNat, Nat.toDigits_of_base_le (by decide) large, List.map_append, ofNat]

theorem ofNat_isDigit (n : Nat) : (ofNat n).all isDigit = true := by
  have digits : ∀ n : Fin 10, isDigit (UInt8.ofNat (0x30 + n)) = true := by decide
  induction n using Nat.strong_induction_on with
  | _ n ih =>
      rcases Nat.lt_or_ge n 10 with small | large
      · rw [ofNat_of_lt small, List.all_cons, digits ⟨n, small⟩]
        rfl
      · rw [ofNat_of_le large, List.all_append, ih (n / 10) (by omega), ih (n % 10) (by omega)]
        rfl

theorem ofNat_ne_nil (n : Nat) : ofNat n ≠ [] := by
  rw [ofNat, ne_eq, List.map_eq_nil_iff]
  exact Nat.toDigits_ne_nil

theorem isDigit_of_mem_ofNat {n : Nat} {b : UInt8} (member : b ∈ ofNat n) : isDigit b = true :=
  List.all_eq_true.mp (ofNat_isDigit n) b member

theorem mem_ofInt {n : Int} {b : UInt8} (member : b ∈ ofInt n) : isDigit b = true ∨ b = 0x2D := by
  cases n with
  | ofNat n => exact .inl (isDigit_of_mem_ofNat member)
  | negSucc n =>
      rcases List.mem_cons.mp member with rfl | later
      · exact .inr rfl
      · exact .inl (isDigit_of_mem_ofNat later)

theorem ofInt_natCast (n : Nat) : ofInt n = ofNat n :=
  rfl

theorem digitsValue_append (t : Text) (b : UInt8) :
    digitsValue (t ++ [b]) = digitsValue t * 10 + (b.toNat - 0x30) := by
  rw [digitsValue, List.foldl_append]
  rfl

theorem digitsValue_ofNat (n : Nat) : digitsValue (ofNat n) = n := by
  have digits : ∀ n < 10, (UInt8.ofNat (0x30 + n)).toNat = 0x30 + n := by decide
  induction n using Nat.strong_induction_on with
  | _ n ih =>
      rcases Nat.lt_or_ge n 10 with small | large
      · have value := digits n small
        rw [ofNat_of_lt small, digitsValue, List.foldl_cons, List.foldl_nil]
        omega
      · have low : n % 10 < 10 := Nat.mod_lt n (by decide)
        have value := digits (n % 10) low
        rw [ofNat_of_le large, ofNat_of_lt low, digitsValue_append, ih (n / 10) (by omega)]
        omega

/-- Only zero is written with a zero in front. -/
theorem ofNat_head {n : Nat} (positive : 0 < n) : ∃ b rest, ofNat n = b :: rest ∧ b ≠ 0x30 := by
  have digits : ∀ n : Fin 10, 0 < n.val → UInt8.ofNat (0x30 + n) ≠ 0x30 := by decide
  induction n using Nat.strong_induction_on with
  | _ n ih =>
      rcases Nat.lt_or_ge n 10 with small | large
      · exact ⟨_, [], ofNat_of_lt small, digits ⟨n, small⟩ positive⟩
      · obtain ⟨b, rest, written, nonzero⟩ := ih (n / 10) (by omega) (by omega)
        exact ⟨b, rest ++ ofNat (n % 10), by rw [ofNat_of_le large, written]; rfl, nonzero⟩

theorem ofNat_injective : Function.Injective ofNat := by
  intro m n same
  rw [← digitsValue_ofNat m, same, digitsValue_ofNat]

/-- Integers are written differently: a minus sign is no digit. -/
theorem ofInt_injective : Function.Injective ofInt := by
  have signed : ∀ m n : Nat, ofNat m ≠ 0x2D :: ofNat n := by
    intro m n same
    have digit := isDigit_of_mem_ofNat (same ▸ List.mem_cons_self : (0x2D : UInt8) ∈ ofNat m)
    exact absurd digit (by decide)
  intro m n same
  cases m with
  | ofNat m =>
      cases n with
      | ofNat n => exact congrArg Int.ofNat (ofNat_injective same)
      | negSucc n => exact absurd same (signed m (n + 1))
  | negSucc m =>
      cases n with
      | ofNat n => exact absurd same.symm (signed n (m + 1))
      | negSucc n =>
          have value := ofNat_injective (List.cons.inj same).2
          rw [Nat.succ.inj value]

end ScriptAtlas.Text

namespace ScriptAtlas.Number

theorem mem_placed {places n : Nat} {b : UInt8} (member : b ∈ placed places n) :
    Text.isDigit b = true ∨ b = 0x2E := by
  have digits : ∀ count, ∀ b ∈ List.replicate count 0x30 ++ Text.ofNat n, Text.isDigit b = true := by
    intro count
    rw [List.forall_mem_append]
    refine ⟨fun b member => ?_, fun b member => Text.isDigit_of_mem_ofNat member⟩
    rw [List.eq_of_mem_replicate member]
    decide
  rw [placed] at member
  dsimp only at member
  split at member
  · exact .inl (digits 0 b member)
  · rw [List.mem_append, List.mem_append, List.mem_singleton] at member
    rcases member with (whole | point) | fraction
    · exact .inl (digits _ b (List.mem_of_mem_take whole))
    · exact .inr point
    · exact .inl (digits _ b (List.mem_of_mem_drop fraction))

theorem mem_fixed {places : Nat} {x : Float} {b : UInt8} (member : b ∈ fixed places x) :
    Text.isDigit b = true ∨ b ∈ Text.ofString "+-.INafn" := by
  have words : ∀ word ∈ Text.ofStrings ["NaN", "-Inf", "+Inf", "-"], ∀ b ∈ word,
      b ∈ Text.ofString "+-.INafn" := by
    decide +kernel
  rw [fixed] at member
  split at member
  · refine .inr (words _ ?_ b member)
    split
    · decide
    · split <;> decide
  · rcases List.mem_append.mp member with sign | digits
    · split at sign
      · exact .inr (words [0x2D] (by decide) b sign)
      · cases sign
    · exact (mem_placed digits).imp_right fun point => by rw [point]; decide

end ScriptAtlas.Number
