import ScriptAtlas.Number.Fixed
import ScriptAtlas.Store.Basic

/-!
Search requests: their checks and defaults, and the key under which their answers are remembered.
-/

namespace ScriptAtlas

structure SearchRequest where
  project : Int := 0
  query : Text := []
  limit : Int := 0
  /-- Names of kinds; none means all. -/
  kinds : List Text := []
  table : Text := []
  minComplexity : Int := 0
  files : Text := []
  minRelevance : Float := 0.0
  cached : Bool := false
  /-- How long the answer may be remembered, in milliseconds. -/
  lifetime : Int := 0

inductive SearchError where
  | emptyQuery
  | unknownKind (name : Text)
  | negativeComplexity
  | invalidRelevance
  | store (e : StoreError)
  deriving DecidableEq, Repr

def SearchError.message : SearchError → Text
  | emptyQuery => "invalid search request: empty search query"
  | unknownKind name => "invalid search request: invalid chunk type: " ++ name.quoted
  | negativeComplexity => "invalid search request: complexity cannot be negative"
  | invalidRelevance => "invalid search request: relevance score must be between 0 and 1"
  | store e => e.message

namespace SearchRequest

def defaultLimit : Int := 10

def maxLimit : Int := 100

def defaultLifetime : Int := 3600000

def prepare (r : SearchRequest) : Except SearchError SearchRequest := do
  if (Text.trim r.query).isEmpty then throw .emptyQuery
  match r.kinds.find? fun name => !(ChunkKind.ofName name).isKnown with
  | some name => throw (.unknownKind name)
  | none => pure ()
  if r.minComplexity < 0 then throw .negativeComplexity
  if r.minRelevance < 0.0 || 1.0 < r.minRelevance then throw .invalidRelevance
  let limit := if r.limit ≤ 0 then defaultLimit else r.limit
  return { r with
    limit := if maxLimit < limit then maxLimit else limit
    lifetime := if r.lifetime == 0 then defaultLifetime else r.lifetime }

def filters (r : SearchRequest) : Tables.Filters where
  kinds := r.kinds
  table := r.table
  minComplexity := r.minComplexity
  files := r.files
  minRelevance := r.minRelevance

/-- The key of a request: its parts, each behind a label. The order of kinds and the case of the table
do not count. -/
def key (r : SearchRequest) : Text :=
  Text.ofInt r.project ++ "|" ++ r.query ++ "|" ++ Text.ofInt r.limit ++
  "|types:" ++ Text.join "," (Text.sort r.kinds) ++
  "|table:" ++ r.table.lower ++
  "|complexity:" ++ Text.ofInt r.minComplexity ++
  "|files:" ++ r.files ++
  "|relevance:" ++ Number.fixed 2 r.minRelevance

end SearchRequest

end ScriptAtlas
