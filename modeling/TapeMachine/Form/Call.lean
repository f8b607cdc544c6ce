/-!
# Calls that build a form

A form is built by calls on its widgets.  An argument is a number, a text, a flag, a widget of the
form, a constant of the toolkit, the result of an earlier chain of calls, or an object without a
name, which is written out with the calls made on it.
-/

namespace TapeMachine

namespace Form

mutual

/-- An argument of a call. -/
inductive Argument where
  | number (n : Int)
  | text (s : String)
  | flag (b : Bool)
  /-- A widget of the form, by its name. -/
  | widget (name : String)
  /-- A constant of the toolkit, by its class and member. -/
  | constant (path : String)
  /-- What a chain of calls, the first of them on a widget, gave back. -/
  | result (widget : String) (chain : List Call)
  /-- An object without a name: its class, what it was made from, and the calls made on it. -/
  | object (className : String) (arguments : List Argument) (calls : List Call)

/-- A call of a method with its arguments. -/
inductive Call where
  | mk (method : String) (arguments : List Argument)

end

/-- A step of building a widget: a call on the widget, or on what a chain of calls on it gave. -/
structure Step where
  /-- The calls that lead from the widget to the object that is called. -/
  receiver : List Call
  call : Call

namespace Step

/-- A call on the widget itself. -/
def direct (method : String) (arguments : List Argument) : Step := ⟨[], .mk method arguments⟩

/-- Two steps: a call on the widget, and a call on what it gave. -/
def through (getter : Call) (method : String) (arguments : List Argument) : List Step :=
  [⟨[], getter⟩, ⟨[getter], .mk method arguments⟩]

end Step

end Form

end TapeMachine
