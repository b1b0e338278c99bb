import TypedMustache.Config.Basic
import TypedMustache.Json.Parser
import TypedMustache.Json.Record
import TypedMustache.Json.Stored

/-! The configuration document. It is an overlay: each field that it gives replaces the
default, and the rest stays. Fields are given by name, in any order, or as an array in
the order of their declaration. -/

namespace TypedMustache

open Json (fieldsAmong? record text)

/-- The fields of an object by name, or those of an array by position. -/
def Config.given? (declared : List String) : Json → Option (List (String × Json))
  | .object fields => fieldsAmong? declared fields
  | .array items => if items.length ≤ declared.length then some (declared.zip items) else none
  | _ => none

namespace TemplateFormat

def name : TemplateFormat → String
  | .html => "html"
  | .text => "text"

def ofJson? (j : Json) : Option TemplateFormat :=
  (j.toWord? .streamed 1).bind fun word => [html, text].find? fun format => format.name = word

end TemplateFormat

namespace Logging

def fieldNames : List String := ["directory", "filter", "to_stderr"]

def overlay (l : Logging) : String × Json → Option Logging
  | ("directory", .null) => some { l with directory := none }
  | ("directory", j) => j.toString?.map fun s => { l with directory := some s }
  | ("filter", j) => j.toString?.map fun s => { l with filter := s }
  | ("to_stderr", j) => j.toBool?.map fun b => { l with toStderr := b }
  | _ => none

def ofJson? (j : Json) : Option Logging :=
  (Config.given? fieldNames j).bind fun fields => fields.foldlM overlay {}

def toJson (l : Logging) : Json :=
  record [("directory", Json.option text l.directory), ("filter", text l.filter),
    ("to_stderr", .bool l.toStderr)]

end Logging

namespace Config

def fieldNames : List String :=
  ["renderable_interface", "format", "writer", "unescaped_writer", "data_name", "debug_comments",
    "logging"]

/-- The configuration with one field replaced. -/
def overlay (c : Config) : String × Json → Option Config
  | ("renderable_interface", j) => j.toString?.map fun s => { c with renderableInterface := s }
  | ("format", j) => (TemplateFormat.ofJson? j).map fun f => { c with format := f }
  | ("writer", j) => j.toString?.map fun s => { c with writer := s }
  | ("unescaped_writer", j) => j.toString?.map fun s => { c with unescapedWriter := s }
  | ("data_name", j) => j.toString?.map fun s => { c with dataName := s }
  | ("debug_comments", j) => j.toBool?.map fun b => { c with debugComments := b }
  | ("logging", j) => (Logging.ofJson? j).map fun l => { c with logging := l }
  | _ => none

def ofJson? (j : Json) : Option Config :=
  (given? fieldNames j).bind fun fields => fields.foldlM overlay {}

def toJson (c : Config) : Json :=
  record [("renderable_interface", text c.renderableInterface), ("format", text c.format.name),
    ("writer", text c.writer), ("unescaped_writer", text c.unescapedWriter),
    ("data_name", text c.dataName), ("debug_comments", .bool c.debugComments),
    ("logging", c.logging.toJson)]

/-- Reads a document. Names are checked only after all of it has been read. -/
def parse (s : String) : Except Error Config :=
  match (Json.parse? s).bind ofJson? with
  | some c => c.check
  | none => .error .malformed

/-- Reads a document from the bytes of a file, if there is one. -/
def load (file : Option ByteArray) : Except Error Config :=
  match file.bind String.fromUTF8? with
  | some s => parse s
  | none => .error .unreadable

end Config

end TypedMustache
