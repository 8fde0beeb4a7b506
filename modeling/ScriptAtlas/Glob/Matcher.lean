import ScriptAtlas.Glob.Basic

/-!
Matchers for paths. Besides deciding a whole text, a matcher finds its first place in a text together
with the lengths it may take there; a search tree looks for its pivot first and then matches what
stands on both sides. A row slices its input by characters but ends each slice one byte after the
start of its last character, so its parts see only the first byte of a longer character there.
-/

namespace ScriptAtlas

inductive Matcher where
  | literal (t : Text)
  | single (separators : List Char)
  | any (separators : List Char)
  | deep
  | among (chars : List Char) (negated : Bool)
  | within (lo hi : Char) (negated : Bool)
  | nothing
  /-- At least, and at most, so many characters. -/
  | atLeast (count : Nat)
  | atMost (count : Nat)
  | contains (t : Text)
  | lacks (t : Text)
  | front (t : Text)
  | back (t : Text)
  | frontBack (front back : Text)
  /-- A text and then no separator, and the other way round. -/
  | frontAny (t : Text) (separators : List Char)
  | anyBack (t : Text) (separators : List Char)
  | every (all : List Matcher)
  | anyOf (options : List Matcher)
  /-- Parts of fixed length, one after the other. -/
  | row (length : Nat) (parts : List Matcher)
  /-- A pivot and what stands on both sides of it; the lengths of the sides, where they are fixed. -/
  | tree (pivot : Matcher) (left right : Option Matcher) (leftLength rightLength : Option Nat)
  deriving Repr

namespace Matcher

/-- The characters of a text with the offsets of their first bytes, after `skip` bytes. -/
def offsetsFrom : Nat → Nat → Text → List (Nat × Char)
  | _, _, [] => []
  | i, skip + 1, _ :: rest => offsetsFrom (i + 1) skip rest
  | i, 0, b :: rest =>
    match Text.leadingChar b rest with
    | some (c, more) => (i, c) :: offsetsFrom (i + 1) more rest
    | none => (i, '\uFFFD') :: offsetsFrom (i + 1) 0 rest

def offsets (t : Text) : List (Nat × Char) :=
  offsetsFrom 0 0 t

def widthOf (c : Char) : Nat :=
  (Text.ofChars [c]).length

/-- The only character of a text; an empty text counts as one that stands for a stray byte. -/
def onlyChar (t : Text) : Option Char :=
  match t with
  | [] => some '\uFFFD'
  | b :: rest =>
    match Text.leadingChar b rest with
    | some (c, more) => if rest.length == more then some c else none
    | none => if rest.isEmpty then some '\uFFFD' else none

def separatorAt (separators : List Char) (t : Text) : Option Nat :=
  ((offsets t).find? fun (_, c) => separators.elem c).map Prod.fst

def place (needle t : Text) : Option Nat :=
  (Text.cut needle t).map fun (before, _) => before.length

def lastPlace (needle t : Text) : Option Nat :=
  (place needle.reverse t.reverse).map fun i => t.length - needle.length - i

def endsIn (start : Nat) (t : Text) : List Nat :=
  (offsets t).map fun (i, c) => start + i + widthOf c

def boundaries (t : Text) : List Nat :=
  (offsets t).map Prod.fst ++ [t.length]

def mergeAscending (as bs : List Nat) : List Nat :=
  ((as ++ bs).mergeSort fun a b => a ≤ b).eraseDups

/-- A place and the lengths that a matcher may take there. -/
abbrev Found := Nat × List Nat

/-- The lengths that reach the ends of `back` in a text, longest text searched first. -/
def backLengths (back : Text) : Nat → Text → List Nat
  | 0, _ => []
  | steps + 1, t =>
    match lastPlace back t with
    | none => []
    | some i => backLengths back steps (t.take i) ++ [i + back.length]

mutual

/-- The number of characters, where it is fixed. Alternatives take the length that the last ones agree
on. -/
def length? : Matcher → Option Nat
  | .literal t => some t.chars.length
  | .single _ | .among _ _ | .within _ _ _ => some 1
  | .nothing => some 0
  | .row length _ => some length
  | .every [] => some 0
  | .anyOf options => optionsLength none options
  | .tree pivot left right leftLength rightLength =>
    match length? pivot with
    | none => none
    | some n =>
      match left, leftLength, right, rightLength with
      | some _, none, _, _ => none
      | _, _, some _, none => none
      | _, l, _, r => some (l.getD 0 + n + r.getD 0)
  | _ => none

def optionsLength : Option Nat → List Matcher → Option Nat
  | known, [] => known
  | none, m :: rest => optionsLength (length? m) rest
  | some n, m :: rest =>
    match length? m with
    | none => none
    | some k => if n == k then optionsLength (some n) rest else none

end

/-- The slice of a text that holds its first `length` characters, up to one byte after the start of
the last one. -/
def rowSlice (length : Nat) (t : Text) : Option Nat :=
  match (offsets t)[length - 1]? with
  | some (i, _) => if length == 0 then none else some (i + 1)
  | none => none

/-- Places where an earlier matcher's lengths and a later one's agree. -/
def agree (delta : Int) (current lengths : List Nat) : List Nat :=
  current.flatMap fun (a : Nat) =>
    lengths.filter fun (b : Nat) => ((a : Int) + delta == (b : Int))

/-- Searches for the pivot of a tree from `offset` on, at most `steps` times. -/
def searchTree (pivot : Text → Option Found) (left right : Text → Bool) (limit : Nat) (t : Text) :
    Nat → Nat → Bool
  | 0, _ => false
  | steps + 1, offset =>
    if limit ≤ offset then false
    else
      match pivot ((t.take limit).drop offset) with
      | none => false
      | some (i, lengths) =>
        let at_ := offset + i
        if left (t.take at_) && lengths.reverse.any fun n => right (t.drop (at_ + n)) then true
        else
          let step :=
            match t.drop at_ with
            | [] => 0
            | b :: rest => ((Text.leadingChar b rest).map fun (_, more) => more + 1).getD 1
          searchTree pivot left right limit t steps (at_ + step)

def rowPlace (length : Nat) (accepted : Text → Bool) (t : Text) : Option Found :=
  ((offsets t).find? fun (i, _) =>
    decide (length ≤ (t.drop i).length) && accepted (t.drop i)).map fun (i, _) => (i, [length])

mutual

def accepts : Matcher → Text → Bool
  | .literal s, t => s == t
  | .single separators, t =>
    match onlyChar t with
    | some c => !separators.elem c
    | none => false
  | .any separators, t => (separatorAt separators t).isNone
  | .deep, _ => true
  | .among chars negated, t =>
    match onlyChar t with
    | some c => chars.elem c != negated
    | none => false
  | .within lo hi negated, t =>
    match onlyChar t with
    | some c => (lo.toNat ≤ c.toNat && c.toNat ≤ hi.toNat) != negated
    | none => false
  | .nothing, t => t.isEmpty
  | .atLeast count, t => count ≤ (offsets t).length && !t.isEmpty
  | .atMost count, t => (offsets t).length ≤ count
  | .contains s, t => t.contains s
  | .lacks s, t => !t.contains s
  | .front s, t => t.startsWith s
  | .back s, t => t.endsWith s
  | .frontBack s e, t => t.startsWith s && t.endsWith e
  | .frontAny s separators, t =>
    t.startsWith s && (separatorAt separators (t.drop s.length)).isNone
  | .anyBack s separators, t =>
    t.endsWith s && (separatorAt separators (t.take (t.length - s.length))).isNone
  | .every all, t => acceptsAll all t
  | .anyOf options, t => acceptsAny options t
  | .row length parts, t => (offsets t).length == length && acceptsRow parts t
  | .tree pivot left right leftLength rightLength, t =>
    let short : Bool :=
      match length? (.tree pivot left right leftLength rightLength) with
      | some n => decide (t.length < n)
      | none => false
    !short &&
      searchTree (locate pivot) (acceptsSide left) (acceptsSide right)
        (t.length - rightLength.getD 0) t (t.length + 1) (leftLength.getD 0)

def acceptsAll : List Matcher → Text → Bool
  | [], _ => true
  | m :: rest, t => accepts m t && acceptsAll rest t

def acceptsAny : List Matcher → Text → Bool
  | [], _ => false
  | m :: rest, t => accepts m t || acceptsAny rest t

/-- Whether the parts of a row accept the slices of a text; what is left over is not looked at. -/
def acceptsRow : List Matcher → Text → Bool
  | [], _ => true
  | m :: rest, t =>
    match rowSlice ((length? m).getD 0) t with
    | some n => accepts m (t.take n) && acceptsRow rest (t.drop n)
    | none => (length? m).getD 0 == 0 && accepts m (t.take 1) && acceptsRow rest (t.drop 1)

/-- A missing side accepts nothing but the empty text. -/
def acceptsSide : Option Matcher → Text → Bool
  | none, t => t.isEmpty
  | some m, t => accepts m t

def locate : Matcher → Text → Option Found
  | .literal s, t => (place s t).map fun i => (i, [s.length])
  | .single separators, t =>
    ((offsets t).find? fun (_, c) => !separators.elem c).map fun (i, c) => (i, [widthOf c])
  | .any separators, t =>
    match separatorAt separators t with
    | some 0 => some (0, [0])
    | some i => some (0, boundaries (t.take i))
    | none => some (0, boundaries t)
  | .deep, t => some (0, boundaries t)
  | .among chars negated, t =>
    ((offsets t).find? fun (_, c) => negated == !chars.elem c).map fun (i, c) => (i, [widthOf c])
  | .within lo hi negated, t =>
    ((offsets t).find? fun (_, c) =>
      negated != (lo.toNat ≤ c.toNat && c.toNat ≤ hi.toNat)).map fun (i, c) => (i, [widthOf c])
  | .nothing, _ => some (0, [0])
  | .atLeast count, t =>
    if t.length < count then none
    else
      let lengths := (endsIn 0 t).drop (count - 1)
      if lengths.isEmpty then none else some (0, lengths)
  | .atMost count, t => some (0, 0 :: (endsIn 0 t).take count)
  | .contains s, t =>
    (place s t).map fun i =>
      let start := i + s.length
      (0, if t.length ≤ start then [start] else (boundaries (t.drop start)).map (start + ·))
  | .lacks s, t =>
    match place s t with
    | some i => some (0, boundaries (t.take i))
    | none => some (0, boundaries t)
  | .front s, t =>
    (place s t).map fun i => (i, s.length :: endsIn s.length (t.drop (i + s.length)))
  | .back s, t => (place s t).map fun i => (0, [i + s.length])
  | .frontBack s e, t =>
    match place s t with
    | none => none
    | some i =>
      if e.isEmpty then some (i, [t.length - i])
      else
        let lengths := backLengths e (t.length + 1) (t.drop i)
        if lengths.isEmpty then none else some (i, lengths)
  | .frontAny s separators, t =>
    (place s t).map fun i =>
      let rest := t.drop (i + s.length)
      let rest :=
        match separatorAt separators rest with
        | some k => rest.take k
        | none => rest
      (i, s.length :: endsIn s.length rest)
  | .anyBack s separators, t =>
    (place s t).map fun i =>
      let start :=
        match ((offsets (t.take i)).filter fun (_, c) => separators.elem c).getLast? with
        | some (k, _) => k + 1
        | none => 0
      (start, [i + s.length - start])
  | .every all, t => locateEvery all t 0 0 none
  | .anyOf options, t => locateAny options t
  | .row length parts, t => rowPlace length (acceptsRow parts) t
  | .tree _ _ _ _ _, _ => none

/-- The place where all matchers agree; `current` holds the lengths of those before. -/
def locateEvery : List Matcher → Text → Nat → Nat → Option (List Nat) → Option Found
  | [], _, index, _, current => some (index, current.getD [])
  | m :: rest, t, index, offset, current =>
    match locate m (t.drop index) with
    | none => none
    | some (i, lengths) =>
      match current with
      | none => locateEvery rest t (i + offset) (offset + i) (some lengths)
      | some known =>
        let next := agree ((index : Int) - (i + offset)) known lengths
        if next.isEmpty then none else locateEvery rest t (i + offset) (offset + i) (some next)

def locateAny : List Matcher → Text → Option Found
  | [], _ => none
  | m :: rest, t =>
    match locate m t, locateAny rest t with
    | none, found => found
    | found, none => found
    | some (i, as), some (j, bs) =>
      if i < j then some (i, as) else if j < i then some (j, bs)
      else some (i, mergeAscending as bs)

end

end Matcher

end ScriptAtlas
