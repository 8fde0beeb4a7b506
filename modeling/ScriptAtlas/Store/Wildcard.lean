import ScriptAtlas.Text.Basic

/-!
Patterns for stored paths: `*` stands for any characters, `?` for one, and brackets for a set.
-/

namespace ScriptAtlas

inductive WildcardPart where
  | anything
  | one
  | char (c : Char)
  | set (negated : Bool) (ranges : List (Char × Char))
  /-- A set that is not closed matches nothing. -/
  | never
  deriving DecidableEq, Repr

namespace Wildcard

/-- What was read last inside a set: nothing that begins a range, a character that may begin one, or
that character and a dash. -/
inductive SetPlace where
  | apart
  | after (c : Char)
  | dash (lo : Char)
  deriving DecidableEq, Repr

def readRanges : SetPlace → List Char → Option (List (Char × Char) × List Char)
  | _, [] => none
  | place, c :: rest =>
    match place with
    | .dash lo =>
      if c == ']' then some ([('-', '-')], rest)
      else (readRanges .apart rest).map fun (ranges, after) => ((lo, c) :: ranges, after)
    | .after lo =>
      if c == ']' then some ([], rest)
      else if c == '-' then readRanges (.dash lo) rest
      else (readRanges (.after c) rest).map fun (ranges, after) => ((c, c) :: ranges, after)
    | .apart =>
      if c == ']' then some ([], rest)
      else (readRanges (.after c) rest).map fun (ranges, after) => ((c, c) :: ranges, after)

/-- A set after its opening bracket; a closing bracket in front belongs to it. -/
def readSet (cs : List Char) : Option (WildcardPart × List Char) :=
  let (negated, cs) :=
    match cs with
    | '^' :: rest => (true, rest)
    | cs => (false, cs)
  let (front, cs) :=
    match cs with
    | ']' :: rest => ([(']', ']')], rest)
    | cs => ([], cs)
  (readRanges .apart cs).map fun (ranges, rest) => (.set negated (front ++ ranges), rest)

def readParts : Nat → List Char → List WildcardPart
  | 0, _ => []
  | _ + 1, [] => []
  | steps + 1, c :: rest =>
    if c == '*' then .anything :: readParts steps rest
    else if c == '?' then .one :: readParts steps rest
    else if c == '[' then
      match readSet rest with
      | none => [.never]
      | some (part, rest) => part :: readParts steps rest
    else .char c :: readParts steps rest

def parse (pattern : Text) : List WildcardPart :=
  readParts pattern.chars.length pattern.chars

def someEnd (accepted : List Char → Bool) : List Char → Bool
  | [] => accepted []
  | c :: rest => accepted (c :: rest) || someEnd accepted rest

def accepts : List WildcardPart → List Char → Bool
  | [], cs => cs.isEmpty
  | .anything :: parts, cs => someEnd (accepts parts) cs
  | .one :: parts, cs =>
    match cs with
    | [] => false
    | _ :: rest => accepts parts rest
  | .char x :: parts, cs =>
    match cs with
    | [] => false
    | c :: rest => c == x && accepts parts rest
  | .set negated ranges :: parts, cs =>
    match cs with
    | [] => false
    | c :: rest =>
      (ranges.any fun (lo, hi) => decide (lo.toNat ≤ c.toNat) && decide (c.toNat ≤ hi.toNat)) !=
        negated && accepts parts rest
  | .never :: _, _ => false

def matchesPath (pattern path : Text) : Bool :=
  accepts (parse pattern) path.chars

end Wildcard

end ScriptAtlas
