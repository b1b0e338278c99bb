import TypedMustache.Scope.Basic
import TypedMustache.Scope.Header

/-! The markers of a scope, which open and close its blocks. Markers of the leading
steps of a dotted name are emitted with those of its last one: a section nests one block
in the other, and an inverted section has one block for all its steps. Enclosing scopes
that are no steps have markers of their own. -/

namespace TypedMustache.Scope

/-- The header of a scope entered with a value of the given shape. -/
def presence (value : Expression) (depth : Nat) : Shape → List Header
  | .plain => []
  | .boolean false => [.test [.isTrue value.text]]
  | .boolean true => [.test [.and (.notNull value.text) (.isTrue value.text)]]
  | .iteration element => [.loop element (loopVariable depth) value.text]
  | .array element => [.loop element (loopVariable depth) value.text]
  | .optional _ => [.test [.isPresent value.text]]
  | .nullable => [.test [.notNull value.text]]

/-- The condition under which a value of the given shape counts as absent. -/
def absence (value : Expression) : Shape → Except TypeError Condition
  | .plain => .error (.notSection value.type)
  | .boolean false => .ok (.not (.group (.isTrue value.text)))
  | .boolean true => .ok (.or (.isNull value.text) (.not (.isTrue value.text)))
  | .iteration _ => .ok (.or (.isNull value.text) (.not (.hasNext value.text)))
  | .array _ => .ok (.or (.isNull value.text) (.isEmptyArray value.text))
  | .optional _ => .ok (.not (.isPresent value.text))
  | .nullable => .ok (.isNull value.text)

/-- The absence of an inverted scope and of the inverted steps that lead to it,
outermost first. -/
def absences : Scope → Except TypeError (List Condition)
  | .nested entry value shape enclosing => do
    if !entry.isInverted then return []
    let leading ← if enclosing.isStep then absences enclosing else .ok []
    return leading ++ [← absence value (← shape)]
  | _ => .ok []

/-- The headers of a scope, outermost first. -/
def headers : Scope → Except TypeError (List Header)
  | .root _ => .ok []
  | .same enclosing => if enclosing.isStep then headers enclosing else .ok []
  | .nested entry value shape enclosing => do
    if entry.isInverted then
      return [.test (← absences (.nested entry value shape enclosing))]
    let leading ← if enclosing.isStep then headers enclosing else .ok []
    return leading ++ presence value (enclosing.depth + 1) (← shape)

/-- The text that opens the scope's blocks. -/
def opening (s : Scope) : Except TypeError String :=
  s.headers.map fun headers => String.join (headers.map Header.text)

/-- The end of the block that a scope of the given shape opens itself. -/
def ownEnd : Except TypeError Shape → String
  | .ok .plain => ""
  | .ok _ => blockEnd
  | .error _ => ""

/-- The text that closes what `opening` opened. Where that is an error there is nothing
to close. -/
def closing : Scope → String
  | .root _ => ""
  | .same enclosing => if enclosing.isStep then closing enclosing else ""
  | .nested entry value shape enclosing =>
    if (opening (.nested entry value shape enclosing)).isOk then
      if entry.isInverted then blockEnd
      else ownEnd shape ++ if enclosing.isStep then closing enclosing else ""
    else ""

end TypedMustache.Scope
