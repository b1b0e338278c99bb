import TypedMustache.Expression
import TypedMustache.Model.Basic

/-! Writing a value out: the writers that generated code appends to, and the generator of the
statement that appends a value. A template is given both once, for all of its tags. -/

namespace TypedMustache

/-- The names of the writers that generated code appends to. -/
structure Writers where
  escaped : String
  unescaped : String
  deriving DecidableEq, Repr

namespace Writers

/-- Text templates never escape, so both kinds of output share the raw writer. -/
def ofConfig (c : Config) : Writers :=
  match c.format with
  | .html => ⟨c.writer, c.unescapedWriter⟩
  | .text => ⟨c.unescapedWriter, c.unescapedWriter⟩

/-- Writers whose escaped output goes to the raw writer, too. -/
def raw (w : Writers) : Writers := ⟨w.unescaped, w.unescaped⟩

end Writers

/-- The ways of writing a value out. -/
inductive Statement where
  /-- The value renders itself. -/
  | render (value writer : String)
  /-- The value is text. -/
  | append (value writer : String)
  /-- The value has a text of its own. -/
  | appendText (value writer : String)
  deriving DecidableEq, Repr

def Statement.text : Statement → String
  | .render value writer => value ++ ".render(" ++ writer ++ ");\n"
  | .append value writer => writer ++ ".append(" ++ value ++ ");\n"
  | .appendText value writer => writer ++ ".append(String.valueOf(" ++ value ++ "));\n"

/-- The statement that writes a value to the escaping writer. -/
def Model.statement (m : Model) (w : Writers) (value : Expression) :
    Except TypeError Statement := do
  match ← m.require value.type with
  | .renderable => return .render value.text w.escaped
  | .scalar _ false => return .appendText value.text w.escaped
  | .object .string => return .append value.text w.escaped
  | .object (.boxed _) => return .appendText value.text w.escaped
  | _ => throw (.notRenderable value.type)

/-- Generates the code that writes a value to the escaping one of two writers. -/
structure Generator where
  generate : Model → Expression → Writers → Except TypeError String

/-- Generates one statement. -/
def Generator.java : Generator where
  generate m value w := (m.statement w value).map Statement.text

/-- What the output of a template is made with. -/
structure Output where
  writers : Writers
  generator : Generator

end TypedMustache
