import TypedMustache.Text.WhiteSpace

/-! The configuration of a compilation: the names that generated code uses, the output
format and where logs go. Names must not be blank. -/

namespace TypedMustache

/-- The output format of a template: escaped as HTML, or written as it is. -/
inductive TemplateFormat where
  | html
  | text
  deriving DecidableEq, Repr

structure Logging where
  directory : Option String := none
  filter : String := "info"
  toStderr : Bool := false
  deriving DecidableEq, Repr

structure Config where
  /-- The generic interface whose implementors render themselves. -/
  renderableInterface : String := "stachec.runtime.Renderable"
  format : TemplateFormat := .html
  /-- The escaping writer in generated code. -/
  writer : String := "writer"
  /-- The raw writer in generated code. -/
  unescapedWriter : String := "unescapedWriter"
  /-- The template's data in generated code. -/
  dataName : String := "data"
  /-- Whether section code starts with comments on its scope. -/
  debugComments : Bool := true
  logging : Logging := {}
  deriving DecidableEq, Repr

namespace Config

/-- The names that must not be blank, in the order in which they are checked. -/
def names (c : Config) : List (String × String) :=
  [("renderable_interface", c.renderableInterface), ("writer", c.writer),
    ("unescaped_writer", c.unescapedWriter), ("data_name", c.dataName)]

/-- The first blank name. -/
def blankName? (c : Config) : Option String :=
  (c.names.find? fun name => Text.isBlank name.2).map Prod.fst

/-- Why a configuration document is refused. -/
inductive Error where
  | unreadable
  | malformed
  | blank (field : String)
  deriving DecidableEq, Repr

/-- The wording of a refusal, without what a file system or a JSON reader adds to it. -/
def Error.message : Error → String
  | .unreadable => "I/O error"
  | .malformed => "JSON serialization/deserialization error"
  | .blank field => String.join ["Configuration error: '", field, "' must not be empty"]

def check (c : Config) : Except Error Config :=
  match c.blankName? with
  | some field => .error (.blank field)
  | none => .ok c

end Config

end TypedMustache
