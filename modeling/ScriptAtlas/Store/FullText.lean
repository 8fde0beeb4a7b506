import ScriptAtlas.Store.Query
import ScriptAtlas.Text.Case

/-!
Full-text search: documents of several columns, phrases of tokens, and the BM25 rank of a document.
Tokens are runs of letters and digits, and their case does not count.
-/

namespace ScriptAtlas

structure Document where
  id : Int
  columns : List (List Text)
  deriving DecidableEq, Repr

namespace FullText

/-- Tokens of characters; `token` holds those of the current one in reverse. -/
def tokensFrom (token : List Char) : List Char → List Text
  | [] => if token.isEmpty then [] else [Text.ofChars token.reverse]
  | c :: rest =>
    if Text.isLetterOrDigit c then tokensFrom (Text.lowerChar c :: token) rest
    else if token.isEmpty then tokensFrom [] rest
    else Text.ofChars token.reverse :: tokensFrom [] rest

def tokens (t : Text) : List Text :=
  tokensFrom [] t.chars

def occurrences (phrase : List Text) : List Text → Nat
  | [] => 0
  | token :: rest =>
    (if phrase.isPrefixOf (token :: rest) then 1 else 0) + occurrences phrase rest

/-- How often a phrase occurs in a document; one without tokens occurs nowhere. -/
def frequency (phrase : List Text) (d : Document) : Nat :=
  if phrase.isEmpty then 0 else d.columns.foldr (fun column sum => occurrences phrase column + sum) 0

def size (d : Document) : Nat :=
  d.columns.foldr (fun column sum => column.length + sum) 0

/-- How fast repetition stops to count, and how much the length of a document counts. -/
def saturation : Float := 1.2

def lengthWeight : Float := 0.75

/-- The weight of a phrase that occurs in at least half of the documents. -/
def leastWeight : Float := 1e-6

def phraseWeight (documents hits : Nat) : Float :=
  let n := documents.toFloat
  let h := hits.toFloat
  let weight := Float.log ((n - h + 0.5) / (h + 0.5))
  if weight ≤ 0.0 then leastWeight else weight

structure WeightedPhrase where
  phrase : List Text
  weight : Float

def weigh (documents : List Document) (query : Text) : List WeightedPhrase :=
  (Query.terms query).map fun term =>
    let phrase := tokens term
    ⟨phrase, phraseWeight documents.length (documents.countP fun d => frequency phrase d != 0)⟩

def averageSize (documents : List Document) : Float :=
  (documents.foldr (fun d sum => size d + sum) 0).toFloat / documents.length.toFloat

/-- The rank of a document; lower is better. -/
def rank (phrases : List WeightedPhrase) (average : Float) (d : Document) : Float :=
  let length := (size d).toFloat
  Neg.neg <| phrases.foldl
    (fun sum p =>
      let f := (frequency p.phrase d).toFloat
      sum + p.weight * ((f * (saturation + 1.0)) /
        (f + saturation * (1.0 - lengthWeight + lengthWeight * length / average))))
    0.0

def hasAny (phrases : List WeightedPhrase) (d : Document) : Bool :=
  phrases.any fun p => frequency p.phrase d != 0

def search (documents : List Document) (query : Text) : List (Int × Float) :=
  let phrases := weigh documents query
  let average := averageSize documents
  (documents.filter (hasAny phrases)).map fun d => (d.id, rank phrases average d)

/-- A rank as a relevance from zero to one; higher is better. -/
def relevance (rank : Float) : Float :=
  let s := -rank
  if s ≤ 0.0 then 0.0 else s / (s + 1.0)

end FullText

end ScriptAtlas
