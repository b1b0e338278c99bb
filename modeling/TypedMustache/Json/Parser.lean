import TypedMustache.Json.Token

/-! Reading a JSON text. Arrays and objects whose end has not been read yet stand on a
stack, so the depth of a text costs nothing and reading is again a fold, over tokens. -/

namespace TypedMustache.Json

/-- An array or object that is still open, its contents latest first. `field` waits
for the value under `name`. -/
inductive Frame where
  | array (items : List Json)
  | object (fields : List (Text × Json))
  | field (fields : List (Text × Json)) (name : Text)

/-- What the next token has to be. -/
inductive Stage where
  | value
  | first
  | name
  | colon
  | separator
  | done (value : Json)

structure Reading where
  stage : Stage := .value
  frames : List Frame := []

namespace Reading

/-- A value has been read inside the open `frames`. -/
def complete (value : Json) : List Frame → Option Reading
  | [] => some ⟨.done value, []⟩
  | .array items :: frames => some ⟨.separator, .array (value :: items) :: frames⟩
  | .field fields name :: frames => some ⟨.separator, .object ((name, value) :: fields) :: frames⟩
  | .object _ :: _ => none

/-- A token where a value has to start. -/
def begin (frames : List Frame) : Token → Option Reading
  | .null => complete .null frames
  | .bool b => complete (.bool b) frames
  | .number n => complete (.number n) frames
  | .string t => complete (.string t) frames
  | .openArray => some ⟨.first, .array [] :: frames⟩
  | .openObject => some ⟨.first, .object [] :: frames⟩
  | _ => none

/-- A token where the innermost array or object may end. -/
def close : List Frame → Token → Option Reading
  | .array items :: frames, .closeArray => complete (.array items.reverse) frames
  | .object fields :: frames, .closeObject => complete (.object fields.reverse) frames
  | _, _ => none

/-- A token where the name of a field has to stand. -/
def nameField : List Frame → Token → Option Reading
  | .object fields :: frames, .string name => some ⟨.colon, .field fields name :: frames⟩
  | _, _ => none

def step (r : Reading) (token : Token) : Option Reading :=
  match r.stage, r.frames with
  | .value, frames => begin frames token
  | .first, .array items :: frames =>
    if token = .closeArray then close r.frames token else begin (.array items :: frames) token
  | .first, frames => if token = .closeObject then close frames token else nameField frames token
  | .name, frames => nameField frames token
  | .colon, frames => if token = .colon then some ⟨.value, frames⟩ else none
  | .separator, .array items :: frames =>
    if token = .comma then some ⟨.value, .array items :: frames⟩ else close r.frames token
  | .separator, frames => if token = .comma then some ⟨.name, frames⟩ else close frames token
  | .done _, _ => none

def finish (r : Reading) : Option Json :=
  match r.stage with
  | .done value => some value
  | _ => none

end Reading

/-- The value that a row of tokens is written for. -/
def ofTokens? (tokens : List Token) : Option Json :=
  (tokens.foldlM Reading.step {}).bind Reading.finish

/-- Reads a text that holds one value and nothing but white space around it. -/
def parse? (s : String) : Option Json := (tokenize? s.toList).bind ofTokens?

end TypedMustache.Json
