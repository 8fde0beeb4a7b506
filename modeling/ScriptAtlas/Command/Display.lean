import ScriptAtlas.Text.Basic

/-!
What a command shows: text, highlighted words, and the time the work took. Colours and the time are
put in when it is shown.
-/

namespace ScriptAtlas

inductive Style where
  | success
  | failure
  | accent
  | alert
  deriving DecidableEq, Repr

def Style.codes : Style → Text × Text
  | success => ("\x1b[32;1m", "\x1b[0;22m")
  | failure => ("\x1b[31;1m", "\x1b[0;22m")
  | accent => ("\x1b[36m", "\x1b[0m")
  | alert => ("\x1b[31m", "\x1b[0m")

inductive Fragment where
  | plain (t : Text)
  | styled (style : Style) (t : Text)
  /-- The time the work took. -/
  | elapsed
  deriving DecidableEq, Repr

abbrev Display := List Fragment

def Fragment.render (colored : Bool) (elapsed : Text) : Fragment → Text
  | plain t => t
  | styled style t => if colored then style.codes.1 ++ t ++ style.codes.2 else t
  | .elapsed => elapsed

def Display.render (colored : Bool) (elapsed : Text) (d : Display) : Text :=
  d.flatMap (Fragment.render colored elapsed)

inductive ColorMode where
  /-- On a terminal. -/
  | auto
  | on
  | off
  deriving DecidableEq, Repr

def ColorMode.ofName? (name : Text) : Option ColorMode :=
  if name == Text.ofString "auto" then some auto
  else if name == Text.ofString "on" then some on
  else if name == Text.ofString "off" then some off
  else none

def ColorMode.isColored (mode : ColorMode) (terminal : Bool) : Bool :=
  match mode with
  | auto => terminal
  | on => true
  | off => false

end ScriptAtlas
