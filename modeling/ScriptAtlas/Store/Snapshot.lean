import ScriptAtlas.Store.Tables

/-!
The tables as one text, and back: how an index is kept in a file. Rows are written as arrays of their
columns.
-/

namespace ScriptAtlas.Snapshot

/-! ### Writing -/

/-- A text; bytes that belong to no character have to be written as numbers. -/
def ofText (t : Text) : Json :=
  if t.isValid then .string t else .array (t.map fun b => .ofNat b.toNat)

def ofProject (p : ProjectRow) : Json :=
  .array [.ofInt p.id, ofText p.root, .ofInt p.scripts, .ofInt p.chunks, ofText p.version]

def ofScript (s : ScriptRow) : Json :=
  .array [.ofInt s.id, .ofInt s.project, ofText s.path, ofText s.facts.hash.bytes, .ofInt s.facts.size,
    .ofInt s.facts.lines, ofText s.facts.strategy, ofText s.facts.analysis]

def ofNullable {α : Type} (of : α → Json) : Option α → Json
  | some value => of value
  | none => .null

def ofChunk (r : ChunkRow) : Json :=
  .array [.ofInt r.id, .ofInt r.script, .ofInt r.number, ofText r.title, ofText r.kind, .ofInt r.start,
    .ofInt r.stop, .ofInt r.complexity, ofText r.content, ofText r.hash, .ofInt r.tokens,
    ofNullable ofText r.summary, ofText r.operations, ofText r.declared, ofText r.used, ofText r.tables,
    ofText r.control, ofText r.business, ofNullable ofText r.parentKind, ofNullable .ofInt r.parentStart,
    ofNullable .ofInt r.parentEnd, ofNullable .ofInt r.ordinal, ofNullable .ofInt r.total,
    ofNullable ofText r.reason, .ofInt r.continuesFrom, .ofInt r.continuesIn]

def ofDependency (d : DependencyRow) : Json :=
  .ofInts [d.chunk, d.on]

def render (t : Tables) : Text :=
  Json.compact <| .array [
    .array (t.projects.map ofProject), .array (t.scripts.map ofScript),
    .array (t.chunks.map ofChunk), .array (t.dependencies.map ofDependency),
    .ofInts [t.lastProject, t.lastScript, t.lastChunk]]

/-! ### Reading -/

def int? : Json → Option Int
  | .number literal => Json.intOfLiteral literal
  | _ => none

def text? : Json → Option Text
  | .string t => some t
  | .array items => items.mapM fun j => (int? j).map fun n => n.toNat.toUInt8
  | _ => none

def project? : Json → Option ProjectRow
  | .array [id, root, scripts, chunks, version] => do
    return {
      id := ← int? id, root := ← text? root, scripts := ← int? scripts, chunks := ← int? chunks
      version := ← text? version }
  | _ => none

def script? : Json → Option ScriptRow
  | .array [id, project, path, hash, size, lines, strategy, analysis] => do
    let facts : ScriptFacts := {
      hash := .ofBytes (← text? hash), size := ← int? size, lines := ← int? lines
      strategy := ← text? strategy, analysis := ← text? analysis }
    return { id := ← int? id, project := ← int? project, path := ← text? path, facts := facts }
  | _ => none

def nullable? {α : Type} (read : Json → Option α) : Json → Option (Option α)
  | .null => some none
  | j => (read j).map some

def chunk? : Json → Option ChunkRow
  | .array [id, script, number, title, kind, start, stop, complexity, content, hash, tokens, summary,
      operations, declared, used, tables, control, business, parentKind, parentStart, parentEnd, ordinal,
      total, reason, continuesFrom, continuesIn] => do
    return {
      id := ← int? id, script := ← int? script, number := ← int? number, title := ← text? title
      kind := ← text? kind, start := ← int? start, stop := ← int? stop, complexity := ← int? complexity
      content := ← text? content, hash := ← text? hash, tokens := ← int? tokens
      summary := ← nullable? text? summary
      operations := ← text? operations, declared := ← text? declared, used := ← text? used
      tables := ← text? tables, control := ← text? control, business := ← text? business
      parentKind := ← nullable? text? parentKind, parentStart := ← nullable? int? parentStart
      parentEnd := ← nullable? int? parentEnd, ordinal := ← nullable? int? ordinal
      total := ← nullable? int? total, reason := ← nullable? text? reason
      continuesFrom := ← int? continuesFrom, continuesIn := ← int? continuesIn }
  | _ => none

def dependency? : Json → Option DependencyRow
  | .array [chunk, on] => do return ⟨← int? chunk, ← int? on⟩
  | _ => none

def rows? {α : Type} (row : Json → Option α) : Json → Option (List α)
  | .array items => items.mapM row
  | _ => none

def parse? (t : Text) : Option Tables :=
  match Json.parse? t with
  | some (.array [projects, scripts, chunks, dependencies,
      .array [lastProject, lastScript, lastChunk]]) => do
    return {
      projects := ← rows? project? projects, scripts := ← rows? script? scripts
      chunks := ← rows? chunk? chunks, dependencies := ← rows? dependency? dependencies
      lastProject := ← int? lastProject, lastScript := ← int? lastScript
      lastChunk := ← int? lastChunk }
  | _ => none

end ScriptAtlas.Snapshot
