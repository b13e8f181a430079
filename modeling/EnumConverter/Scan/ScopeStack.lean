import EnumConverter.Scope

namespace EnumConverter.Scan

/-- One open brace. -/
structure OpenScope where
  /-- The names that the brace brings. -/
  segments : Scope
  /-- The line on which the scope was opened. -/
  line : Nat
deriving DecidableEq, Repr

/-- How braces fail to match. -/
inductive ScopeError where
  /-- A closing brace without an opening one. -/
  | unexpectedExit
  /-- Braces that are open at the end. -/
  | unclosed (count innermostLine : Nat)
deriving DecidableEq, Repr

/-- The error in words. -/
def ScopeError.message : ScopeError → String
  | .unexpectedExit => "closing brace without a matching open scope"
  | .unclosed count innermostLine =>
    toString count ++ " scope(s) still open at end of input (innermost opened on line " ++
      toString innermostLine ++ ")"

/-- The open braces, innermost first. -/
abbrev ScopeStack := List OpenScope

namespace ScopeStack

/-- Opens a brace that brings names. -/
def enter (stack : ScopeStack) (segments : Scope) (line : Nat) : ScopeStack :=
  ⟨segments, line⟩ :: stack

/-- Closes the innermost brace. -/
def exit : ScopeStack → Except ScopeError ScopeStack
  | [] => .error .unexpectedExit
  | _ :: stack => .ok stack

/-- The names in effect, outermost first. -/
def scope (stack : ScopeStack) : Scope :=
  stack.reverse.flatMap (·.segments)

/-- The number of open braces. -/
def depth (stack : ScopeStack) : Nat :=
  stack.length

/-- Checks that no brace is open. -/
def finish : ScopeStack → Except ScopeError Unit
  | [] => .ok ()
  | innermost :: outer => .error (.unclosed (outer.length + 1) innermost.line)

end ScopeStack

end EnumConverter.Scan
