import TypedMustache.Config.Document

/-! The JSON schema of the configuration document. Its defaults are those of `Config`. -/

namespace TypedMustache.Config

open Json (record text texts)

/-- The schema of a field of one primitive type. -/
def fieldSchema (type : String) (default : Json) (description : List String) : Json :=
  record ([("default", default)] ++ (description.map fun d => ("description", text d)) ++
    [("type", text type)])

/-- A field whose schema is defined by name. -/
def referenceSchema (name : String) (default : Json) : Json :=
  record [("$ref", text ("#/$defs/" ++ name)), ("default", default)]

/-- One word of an enumeration. -/
def choiceSchema (format : TemplateFormat) (description : String) : Json :=
  record [("const", text format.name), ("description", text description), ("type", text "string")]

def formatSchema : Json :=
  record [("description", text "Output format of a template."),
    ("oneOf", .array
      [choiceSchema .html "Escaped output goes through an HTML-escaping writer.",
        choiceSchema .text "No escaping; escaped and unescaped output share one writer."])]

def loggingSchema : Json :=
  let default : Logging := {}
  record [("properties", record
      [("directory", record [("default", Json.option text default.directory),
          ("description", text "Log directory, `~/.stachec/logs` when unset"),
          ("type", texts ["string", "null"])]),
        ("filter", fieldSchema "string" (text default.filter)
          ["`EnvFilter` directive used when `RUST_LOG` is not set"]),
        ("to_stderr", fieldSchema "boolean" (.bool default.toStderr) [])]),
    ("type", text "object")]

def schema : Json :=
  let default : Config := {}
  record [("$defs", record [("LoggingConfig", loggingSchema), ("TemplateFormat", formatSchema)]),
    ("$schema", text "https://json-schema.org/draft/2020-12/schema"),
    ("properties", record
      [("data_name", fieldSchema "string" (text default.dataName)
          ["Name of the template's root data expression"]),
        ("debug_comments", fieldSchema "boolean" (.bool default.debugComments)
          ["Prefix section code with comments naming the scope and its type"]),
        ("format", referenceSchema "TemplateFormat" (text default.format.name)),
        ("logging", referenceSchema "LoggingConfig" default.logging.toJson),
        ("renderable_interface", fieldSchema "string" (text default.renderableInterface)
          ["FQN of the generic interface whose implementors render themselves"]),
        ("unescaped_writer", fieldSchema "string" (text default.unescapedWriter)
          ["Name of the raw writer in generated code"]),
        ("writer", fieldSchema "string" (text default.writer)
          ["Name of the escaping writer in generated code"])]),
    ("title", text "CompilerConfig"), ("type", text "object")]

end TypedMustache.Config
