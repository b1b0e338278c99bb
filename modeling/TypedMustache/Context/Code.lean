import TypedMustache.Context.Basic
import TypedMustache.Scope.Marker

/-! Generated code: what writes a value out, between the markers of its scope. -/

namespace TypedMustache

namespace Context

/-- Comments that name a scope and the type of its current value. -/
def debugComments (s : Scope) : String :=
  String.join
    ["/* RenderingContext: ", s.description, " */\n/* Type: ", s.current.type.text, " */\n"]

/-- The code before the current value. -/
def opening (c : Context) (m : Model) : Except ContextError String :=
  match c.scope.opening with
  | .error cause => .error (.unenterable c.scope.value.text cause)
  | .ok markers =>
    .ok (if m.config.debugComments then debugComments c.scope ++ markers else markers)

/-- The code after the current value. -/
def closing (c : Context) : String := c.scope.closing

/-- Code that writes the current value out between its markers. -/
def renderingWith (c : Context) (m : Model) (w : Writers) : Except ContextError String := do
  let opening ← c.opening m
  match c.output.generator.generate m c.current w with
  | .error cause => throw (.unrenderable c.current.text cause)
  | .ok code => return opening ++ code ++ c.closing

/-- Code that writes the current value through the escaping writer. -/
def rendering (c : Context) (m : Model) : Except ContextError String :=
  c.renderingWith m c.output.writers

/-- Code that writes the current value through the raw writer. -/
def unescapedRendering (c : Context) (m : Model) : Except ContextError String :=
  c.renderingWith m c.output.writers.raw

end Context

end TypedMustache
