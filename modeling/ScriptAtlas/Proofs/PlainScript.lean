import ScriptAtlas.Chunk.Sequence
import ScriptAtlas.Proofs.PlainLines

/-!
Chunking reads neither the text of lines nor the spelling of names: a script and its plain form have
the same plan and the same cuts, and chunks that differ in their text and in the case of names alone.
-/

namespace ScriptAtlas

open Word

namespace Line

variable (l : Line)

@[simp] theorem plain_code : l.plain.code = l.code := rfl

@[simp] theorem plain_isEmpty : l.plain.isEmpty = l.isEmpty := rfl

@[simp] theorem plain_isComment : l.plain.isComment = l.isComment := rfl

@[simp] theorem plain_isSectionMarker : l.plain.isSectionMarker = l.isSectionMarker := rfl

@[simp] theorem plain_operations : l.plain.operations = l.operations := rfl

@[simp] theorem plain_control : l.plain.control = l.control := rfl

@[simp] theorem plain_business : l.plain.business = l.business := rfl

@[simp] theorem plain_nesting : l.plain.nesting = l.nesting := rfl

@[simp] theorem plain_parens : l.plain.parens = l.parens := rfl

@[simp] theorem plain_weight : l.plain.weight = l.weight := rfl

@[simp] theorem plain_declared_isEmpty : l.plain.declared.isEmpty = l.declared.isEmpty :=
  List.isEmpty_map

@[simp] theorem plain_isQuiet : l.plain.isQuiet = l.isQuiet := rfl

@[simp] theorem plain_isCode : l.plain.isCode = l.isCode := rfl

@[simp] theorem plain_hasOperation (tag : Text) : l.plain.hasOperation tag = l.hasOperation tag := rfl

@[simp] theorem plain_hasControl (word : Text) : l.plain.hasControl word = l.hasControl word := rfl

@[simp] theorem plain_startsStatement : l.plain.startsStatement = l.startsStatement := rfl

@[simp] theorem plain_startsControl : l.plain.startsControl = l.startsControl := rfl

@[simp] theorem plain_statementText : l.plain.statementText = l.statementText := rfl

@[simp] theorem plain_opener : l.plain.opener = l.opener := by
  rw [opener, opener, plain_declared_isEmpty]
  rfl

@[simp] theorem plain_extendsDeclaration : l.plain.extendsDeclaration = l.extendsDeclaration := by
  simp [extendsDeclaration]

end Line

namespace Script

def plain (s : Script) : Script :=
  s.map Line.plain

variable (s : Script)

@[simp] theorem plain_size : s.plain.size = s.size :=
  Array.size_map

@[simp] theorem plain_line (i : Nat) : s.plain.line i = (s.line i).plain := by
  rw [line, line, plain, Array.getD_eq_getD_getElem?, Array.getD_eq_getD_getElem?, Array.getElem?_map]
  cases s[i]? <;> rfl

@[simp] theorem plain_slice (lo hi : Nat) : s.plain.slice lo hi = (s.slice lo hi).map Line.plain := by
  rw [slice, slice, plain, Array.toList_map, List.map_take, List.map_drop]

/-! ### Lines that hold code, sums -/

@[simp] theorem plain_firstCode (count i : Nat) : s.plain.firstCode count i = s.firstCode count i := by
  induction count generalizing i with
  | zero => rfl
  | succ count ih => simp [firstCode, ih]

@[simp] theorem plain_nextCode (i limit : Nat) : s.plain.nextCode i limit = s.nextCode i limit := by
  simp [nextCode]

@[simp] theorem plain_prevCode (floor i : Nat) : s.plain.prevCode floor i = s.prevCode floor i := by
  induction i with
  | zero => rfl
  | succ i ih => simp [prevCode, ih]

theorem plain_total {measure : Line → Int} (same : ∀ l : Line, measure l.plain = measure l)
    (count i : Nat) : s.plain.total measure count i = s.total measure count i := by
  induction count generalizing i with
  | zero => rfl
  | succ count ih => simp [total, ih, same]

@[simp] theorem plain_weightFrom (count i : Nat) : s.plain.weightFrom count i = s.weightFrom count i := by
  induction count generalizing i with
  | zero => rfl
  | succ count ih => simp [weightFrom, ih]

@[simp] theorem plain_weight (lo hi : Nat) : s.plain.weight lo hi = s.weight lo hi := by
  simp [weight]

@[simp] theorem plain_isQuiet (lo hi : Nat) : s.plain.isQuiet lo hi = s.isQuiet lo hi := by
  simp [isQuiet]

/-! ### Extents -/

@[simp] theorem plain_followStatement (scan : StatementScan) (last count room i : Nat) :
    s.plain.followStatement scan last count room i = s.followStatement scan last count room i := by
  induction count generalizing scan last room i with
  | zero => rfl
  | succ count ih =>
      cases room with
      | zero => rfl
      | succ room => simp [followStatement, ih]

@[simp] theorem plain_statementExtent (i : Nat) (text : Text) (limit : Nat) :
    s.plain.statementExtent i text limit = s.statementExtent i text limit := by
  simp [statementExtent]

@[simp] theorem plain_closingLine (count : Nat) (depth : Int) (i : Nat) :
    s.plain.closingLine count depth i = s.closingLine count depth i := by
  induction count generalizing depth i with
  | zero => rfl
  | succ count ih => simp [closingLine, ih]

@[simp] theorem plain_balancedEnd (limit i : Nat) (depth : Int) :
    s.plain.balancedEnd limit i depth = s.balancedEnd limit i depth := by
  simp [balancedEnd]

@[simp] theorem plain_guardedEnd (limit i : Nat) : s.plain.guardedEnd limit i = s.guardedEnd limit i := by
  simp [guardedEnd]

@[simp] theorem plain_followCondition (limit latest count i : Nat) (text : Text) (depth : Int) :
    s.plain.followCondition limit latest count i text depth =
      s.followCondition limit latest count i text depth := by
  induction count generalizing i text depth with
  | zero => rfl
  | succ count ih => simp [followCondition, ih]

@[simp] theorem plain_conditionEnd (limit i : Nat) (condition : Text) :
    s.plain.conditionEnd limit i condition = s.conditionEnd limit i condition := by
  simp [conditionEnd]

@[simp] theorem plain_bodyStart (limit i : Nat) (text : Text) :
    s.plain.bodyStart limit i text = s.bodyStart limit i text := by
  simp [bodyStart]

theorem plain_search (limit steps : Nat) :
    (∀ i condition, s.plain.branchEnd limit steps i condition = s.branchEnd limit steps i condition) ∧
    (∀ i condition, s.plain.loopEnd limit steps i condition = s.loopEnd limit steps i condition) ∧
    (∀ i text, s.plain.bodyEnd limit steps i text = s.bodyEnd limit steps i text) ∧
    (∀ i, s.plain.elseEnd limit steps i = s.elseEnd limit steps i) ∧
    ∀ i text, s.plain.elseBody limit steps i text = s.elseBody limit steps i text := by
  induction steps with
  | zero => simp [branchEnd, loopEnd, bodyEnd, elseEnd, elseBody]
  | succ steps ih =>
      obtain ⟨branch, loop, body, rest, alternative⟩ := ih
      simp [branchEnd, loopEnd, bodyEnd, elseEnd, elseBody, branch, loop, body, rest, alternative]

@[simp] theorem plain_closedFrom (earliest count : Nat) (depth : Int) (i : Nat) :
    s.plain.closedFrom earliest count depth i = s.closedFrom earliest count depth i := by
  induction count generalizing depth i with
  | zero => rfl
  | succ count ih => simp [closedFrom, ih]

@[simp] theorem plain_cappedEnd (limit i cap : Nat) :
    s.plain.cappedEnd limit i cap = s.cappedEnd limit i cap := by
  simp [cappedEnd]

@[simp] theorem plain_followDeclaration (limit count room skip last : Nat) (depth : Int) (i : Nat) :
    s.plain.followDeclaration limit count room skip last depth i =
      s.followDeclaration limit count room skip last depth i := by
  induction count generalizing room skip last depth i with
  | zero => rfl
  | succ count ih =>
      cases skip with
      | succ skip => simp [followDeclaration, ih]
      | zero =>
          cases room with
          | zero => rfl
          | succ room => simp [followDeclaration, ih]

@[simp] theorem plain_declarationEnd (limit i : Nat) :
    s.plain.declarationEnd limit i = s.declarationEnd limit i := by
  simp [declarationEnd]

@[simp] theorem plain_statementEnd (limit i : Nat) :
    s.plain.statementEnd limit i = s.statementEnd limit i := by
  simp [statementEnd]

@[simp] theorem plain_extentWithin (limit steps i : Nat) :
    s.plain.extentWithin limit steps i = s.extentWithin limit steps i := by
  obtain ⟨branch, loop, -⟩ := s.plain_search limit steps
  simp [extentWithin, branch, loop]

@[simp] theorem plain_steps : s.plain.steps = s.steps := by
  simp only [steps, plain, ← Array.foldl_toList, Array.toList_map, List.foldl_map, Line.plain_code]

@[simp] theorem plain_extent (i : Nat) : s.plain.extent i = s.extent i := by
  simp [extent]

/-! ### The plan -/

@[simp] theorem plain_block (lo hi : Nat) (kind : BlockKind) :
    s.plain.block lo hi kind = s.block lo hi kind := by
  simp [block]

@[simp] theorem plain_between (lo hi : Nat) : s.plain.between lo hi = s.between lo hi := by
  simp [between]

@[simp] theorem plain_openedBlock (steps i : Nat) : s.plain.openedBlock steps i = s.openedBlock steps i := by
  simp [openedBlock]

@[simp] theorem plain_sweep (steps count pending i : Nat) :
    s.plain.sweep steps count pending i = s.sweep steps count pending i := by
  induction count generalizing pending i with
  | zero => simp [sweep]
  | succ count ih => simp [sweep, ih]

@[simp] theorem plain_searched (steps count i : Nat) :
    s.plain.searched steps count i = s.searched steps count i := by
  induction count generalizing i with
  | zero => rfl
  | succ count ih => simp [searched, ih]

@[simp] theorem plain_hasPlan : s.plain.hasPlan = s.hasPlan := by
  simp [hasPlan]

@[simp] theorem plain_foldQuiet (pending : Option Nat) (blocks : List Block) :
    s.plain.foldQuiet pending blocks = s.foldQuiet pending blocks := by
  induction blocks generalizing pending with
  | nil => cases pending <;> simp [foldQuiet]
  | cons b rest ih => cases pending <;> simp [foldQuiet, ih]

@[simp] theorem plain_plan : s.plain.plan = s.plan := by
  simp [plan]

end Script

/-! ### Cuts -/

namespace CutRange

def plain (r : CutRange) : CutRange :=
  { r with script := r.script.plain }

variable (r : CutRange)

@[simp] theorem plain_script : r.plain.script = r.script.plain := rfl

@[simp] theorem plain_lo : r.plain.lo = r.lo := rfl

@[simp] theorem plain_hi : r.plain.hi = r.hi := rfl

@[simp] theorem plain_parens (p : Nat) : r.plain.parens p = r.parens p :=
  r.script.plain_total Line.plain_parens _ _

@[simp] theorem plain_nesting (p : Nat) : r.plain.nesting p = r.nesting p :=
  r.script.plain_total Line.plain_nesting _ _

@[simp] theorem plain_conditionOpen (count : Nat) (parens cases_ : Int) (i : Nat) :
    r.plain.conditionOpen count parens cases_ i = r.conditionOpen count parens cases_ i := by
  induction count generalizing parens cases_ i with
  | zero => simp [conditionOpen]
  | succ count ih => cases i <;> simp [conditionOpen, ih]

@[simp] theorem plain_insideCondition (i : Nat) : r.plain.insideCondition i = r.insideCondition i := by
  simp [insideCondition]

@[simp] theorem plain_statementReaches (p count i : Nat) :
    r.plain.statementReaches p count i = r.statementReaches p count i := by
  induction count generalizing i with
  | zero => simp [statementReaches]
  | succ count ih => cases i <;> simp [statementReaches, ih]

@[simp] theorem plain_insideStatement (p prev : Nat) :
    r.plain.insideStatement p prev = r.insideStatement p prev := by
  simp [insideStatement]

@[simp] theorem plain_isSafe (p : Nat) : r.plain.isSafe p = r.isSafe p := by
  simp only [isSafe, plain_lo, plain_hi, plain_parens, plain_script, Script.plain_nextCode,
    Script.plain_prevCode, Script.plain_line, Line.plain_code, plain_insideCondition,
    plain_insideStatement]
  rfl

@[simp] theorem plain_isNatural (q : Nat) : r.plain.isNatural q = r.isNatural q := by
  simp [isNatural]

@[simp] theorem plain_relocateFrom (ceiling : Option Int) (count : Nat) (depth : Int) (q : Nat) :
    r.plain.relocateFrom ceiling count depth q = r.relocateFrom ceiling count depth q := by
  induction count generalizing depth q with
  | zero => rfl
  | succ count ih => simp [relocateFrom, ih]

@[simp] theorem plain_relocate (p : Nat) (shallow : Bool) :
    r.plain.relocate p shallow = r.relocate p shallow := by
  simp [relocate]

@[simp] theorem plain_settle (p : Nat) : r.plain.settle p = r.settle p := by
  simp [settle]

end CutRange

namespace Script

variable (s : Script)

@[simp] theorem plain_sectionPoints (lo hi : Nat) : s.plain.sectionPoints lo hi = s.sectionPoints lo hi := by
  simp [sectionPoints]

theorem plain_businessFollow (current : List Text) (positions : List Nat) :
    businessPoints.follow s.plain current positions = businessPoints.follow s current positions := by
  induction positions generalizing current with
  | nil => rfl
  | cons i rest ih => simp [businessPoints.follow, ih]

theorem plain_nestingFollow (hi : Nat) (depth : Int) (positions : List Nat) :
    nestingPoints.follow s.plain hi depth positions = nestingPoints.follow s hi depth positions := by
  induction positions generalizing depth with
  | nil => rfl
  | cons i rest ih => simp [nestingPoints.follow, ih]

@[simp] theorem plain_headerStop (lo hi : Nat) : s.plain.headerStop lo hi = s.headerStop lo hi := by
  simp [headerStop]

@[simp] theorem plain_startsUnit (i : Nat) : s.plain.startsUnit i = s.startsUnit i := by
  simp [startsUnit]

@[simp] theorem plain_unitsFrom (hi base : Nat) (flat : Bool) (start depth : Nat) (positions : List Nat) :
    s.plain.unitsFrom hi base flat start depth positions =
      s.unitsFrom hi base flat start depth positions := by
  induction positions generalizing start depth with
  | nil => simp [unitsFrom]
  | cons i rest ih => simp [unitsFrom, ih]

@[simp] theorem plain_units (lo hi : Nat) (flat : Bool) : s.plain.units lo hi flat = s.units lo hi flat := by
  simp [units]

@[simp] theorem plain_branchPoints (lo hi : Nat) : s.plain.branchPoints lo hi = s.branchPoints lo hi := by
  simp [branchPoints]

theorem plain_statementFollow (z : Sizing) (last : Nat) (positions : List Nat) :
    statementPoints.follow s.plain z last positions = statementPoints.follow s z last positions := by
  induction positions generalizing last with
  | nil => rfl
  | cons i rest ih => simp [statementPoints.follow, ih]

@[simp] theorem plain_proposed (z : Sizing) (source : CutSource) (lo hi : Nat) :
    s.plain.proposed z source lo hi = s.proposed z source lo hi := by
  cases source with
  | sections => exact s.plain_sectionPoints lo hi
  | business => exact s.plain_businessFollow [] _
  | nesting => exact s.plain_nestingFollow hi 0 _
  | groups => simp [proposed, groupPoints]
  | branches => exact s.plain_branchPoints lo hi
  | statements => exact s.plain_statementFollow z lo _
  | forced => simp [proposed, forcedPoints]

end Script

/-! ### Divisions -/

namespace Divider

def plain (d : Divider) : Divider :=
  { d with script := d.script.plain }

variable (d : Divider)

@[simp] theorem plain_sizing : d.plain.sizing = d.sizing := rfl

@[simp] theorem plain_script : d.plain.script = d.script.plain := rfl

@[simp] theorem plain_isOversized (lo hi : Nat) : d.plain.isOversized lo hi = d.isOversized lo hi := by
  simp only [isOversized, plain_sizing, plain_script, Script.plain_weight]
  rfl

@[simp] theorem plain_trigger (lo hi : Nat) : d.plain.trigger lo hi = d.trigger lo hi := by
  simp only [trigger, plain_sizing, plain_script, Script.plain_weight]
  rfl

@[simp] theorem plain_spaced (lo hi : Nat) (cuts : Cuts) : d.plain.spaced lo hi cuts = d.spaced lo hi cuts :=
  rfl

@[simp] theorem plain_anyOversized (hi last : Nat) (points : List Nat) :
    d.plain.anyOversized hi last points = d.anyOversized hi last points := by
  induction points generalizing last with
  | nil => simp [anyOversized]
  | cons p rest ih => simp [anyOversized, ih]

@[simp] theorem plain_consult (lo hi : Nat) (cuts : Cuts) (source : CutSource) :
    d.plain.consult lo hi cuts source = d.consult lo hi cuts source := by
  have settle := CutRange.plain_settle ⟨d.script, lo, hi⟩
  simp only [CutRange.plain] at settle
  simp [consult, settle]

@[simp] theorem plain_consultWhileOversized (lo hi : Nat) (sources : List CutSource) (cuts : Cuts) :
    d.plain.consultWhileOversized lo hi sources cuts = d.consultWhileOversized lo hi sources cuts := by
  induction sources generalizing cuts with
  | nil => rfl
  | cons source rest ih => simp [consultWhileOversized, ih]

@[simp] theorem plain_settledCuts (lo hi : Nat) : d.plain.settledCuts lo hi = d.settledCuts lo hi := by
  have first : d.plain.consult lo hi = d.consult lo hi := by
    funext cuts source
    exact d.plain_consult lo hi cuts source
  simp only [settledCuts, first, plain_consultWhileOversized, plain_sizing, plain_script,
    Script.plain_weight]

@[simp] theorem plain_cutPoints (lo hi : Nat) : d.plain.cutPoints lo hi = d.cutPoints lo hi := by
  simp [cutPoints]

@[simp] theorem plain_divide (budget lo hi : Nat) : d.plain.divide budget lo hi = d.divide budget lo hi := by
  induction budget generalizing lo hi with
  | zero => simp [divide]
  | succ budget ih => simp [divide, ih]

@[simp] theorem plain_parts (lo hi : Nat) : d.plain.parts lo hi = d.parts lo hi := by
  simp [parts]

@[simp] theorem plain_reason (b : Block) (sources : List CutSource) :
    d.plain.reason b sources = d.reason b sources := by
  simp [reason]

end Divider

end ScriptAtlas
