import ScriptAtlas.Search.Cache
import ScriptAtlas.Search.Request
import ScriptAtlas.Search.Result

/-!
Searching with remembered answers.
-/

namespace ScriptAtlas

structure Searcher where
  cache : Cache (List SearchResult) := {}

structure SearchResponse where
  results : List SearchResult
  remembered : Bool

namespace Searcher

/-- The results of hits, ranked from `rank` on; a hit whose chunk is gone is left out. -/
def resultsFrom (s : Store) : Int → List Tables.TextHit → Except StoreError (List SearchResult)
  | _, [] => .ok []
  | rank, hit :: rest =>
    match s.getChunk hit.row with
    | .error .notFound => resultsFrom s rank rest
    | .error e => .error e
    | .ok stored => do
      let script ← s.getScriptById stored.script
      let more ← resultsFrom s (rank + 1) rest
      return ⟨hit.row, rank, hit.score, some ⟨script.path, script.facts.lines⟩,
        some stored.chunk⟩ :: more

def lookUp (s : Store) (r : SearchRequest) : Except StoreError (List SearchResult) := do
  resultsFrom s 1 (← s.searchText r.project r.query r.limit r.filters)

/-- Answers a prepared request from the store, and remembers an answer that is not empty. -/
def consult (searcher : Searcher) (now : Int) (s : Store) (r : SearchRequest) :
    Except SearchError SearchResponse × Searcher :=
  match lookUp s r with
  | .error e => (.error (.store e), searcher)
  | .ok results =>
    let cache :=
      if r.cached && !results.isEmpty then
        searcher.cache.put r.key results (now + r.lifetime)
      else searcher.cache
    (.ok ⟨results, false⟩, ⟨cache⟩)

def search (searcher : Searcher) (now : Int) (s : Store) (r : SearchRequest) :
    Except SearchError SearchResponse × Searcher :=
  match r.prepare with
  | .error e => (.error e, searcher)
  | .ok r =>
    if r.cached then
      match searcher.cache.get now r.key with
      | (some results, cache) => (.ok ⟨results, true⟩, ⟨cache⟩)
      | (none, cache) => consult ⟨cache⟩ now s r
    else consult searcher now s r

def invalidate (_ : Searcher) : Searcher :=
  {}

end Searcher

end ScriptAtlas
