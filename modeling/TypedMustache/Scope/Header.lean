import TypedMustache.JavaType.Printer

/-! The Java text that opens and closes a block, as data: the conditions that generated
code tests and the headers that test them. Values stand in them as Java source. -/

namespace TypedMustache

inductive Condition where
  | isTrue (value : String)
  | isNull (value : String)
  | notNull (value : String)
  | isPresent (value : String)
  | hasNext (value : String)
  | isEmptyArray (value : String)
  | group (inner : Condition)
  | not (inner : Condition)
  | and (left right : Condition)
  | or (left right : Condition)
  deriving DecidableEq, Repr

def Condition.text : Condition → String
  | .isTrue value => value
  | .isNull value => value ++ " == null"
  | .notNull value => value ++ " != null"
  | .isPresent value => value ++ ".isPresent()"
  | .hasNext value => value ++ ".iterator().hasNext()"
  | .isEmptyArray value => value ++ ".length == 0"
  | .group inner => "(" ++ inner.text ++ ")"
  | .not inner => "!" ++ inner.text
  | .and left right => left.text ++ " && " ++ right.text
  | .or left right => left.text ++ " || " ++ right.text

/-- The head of a block: it runs once if one of the conditions holds, or once for each
element of a value. -/
inductive Header where
  | test (alternatives : List Condition)
  | loop (element : JavaType) (name : String) (value : String)
  deriving DecidableEq

def Header.text : Header → String
  | .test alternatives =>
    String.join ["if (", " || ".intercalate (alternatives.map Condition.text), ") \x7b\n"]
  | .loop element name value =>
    String.join ["for (", element.text, " ", name, " : ", value, ") \x7b\n"]

/-- The end of a block. -/
def blockEnd : String := "\x7d\n"

end TypedMustache
