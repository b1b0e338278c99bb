import TypedMustache.Json.Token

/-! Writing a JSON text: a value is a row of tokens, and the compact text is their
texts without anything in between. -/

namespace TypedMustache.Json

def lowerHex (n : Nat) : Char := if n < 10 then Char.ofNat (48 + n) else Char.ofNat (87 + n)

/-- A character inside quotes. Quotes, backslashes and control characters are escaped. -/
def quoteChar (c : Char) : List Char :=
  match c with
  | '"' => ['\\', '"']
  | '\\' => ['\\', '\\']
  | '\x08' => ['\\', 'b']
  | '\x0c' => ['\\', 'f']
  | '\n' => ['\\', 'n']
  | '\r' => ['\\', 'r']
  | '\t' => ['\\', 't']
  | c =>
    if c.toNat < 0x20 then ['\\', 'u', '0', '0', lowerHex (c.toNat / 16), lowerHex (c.toNat % 16)]
    else [c]

/-- The quoted form of a text. One that stands for no characters is written as the
replacement character. -/
def quote (t : Text) : List Char :=
  '"' :: ((t.getD "\ufffd").toList.flatMap quoteChar ++ ['"'])

def Number.text (n : Number) : List Char :=
  (if n.negative then ['-'] else []) ++ Nat.toDigits 10 n.coefficient ++
    (if n.integral then []
     else 'e' :: ((if n.exponent < 0 then ['-'] else []) ++ Nat.toDigits 10 n.exponent.natAbs))

def Token.text : Token → List Char
  | .openArray => ['[']
  | .closeArray => [']']
  | .openObject => ['\x7b']
  | .closeObject => ['\x7d']
  | .comma => [',']
  | .colon => [':']
  | .null => ['n', 'u', 'l', 'l']
  | .bool true => ['t', 'r', 'u', 'e']
  | .bool false => ['f', 'a', 'l', 's', 'e']
  | .number n => n.text
  | .string t => quote t

mutual

/-- The tokens of a value, in order. -/
def tokens : Json → List Token
  | .null => [.null]
  | .bool b => [.bool b]
  | .number n => [.number n]
  | .string t => [.string t]
  | .array [] => [.openArray, .closeArray]
  | .array (item :: rest) => .openArray :: (tokens item ++ itemTokens rest)
  | .object [] => [.openObject, .closeObject]
  | .object ((name, value) :: rest) =>
    .openObject :: .string name :: .colon :: (tokens value ++ fieldTokens rest)

/-- The items after the first one, and the end. -/
def itemTokens : List Json → List Token
  | [] => [.closeArray]
  | item :: rest => .comma :: (tokens item ++ itemTokens rest)

/-- The fields after the first one, and the end. -/
def fieldTokens : List (Text × Json) → List Token
  | [] => [.closeObject]
  | (name, value) :: rest =>
    .comma :: .string name :: .colon :: (tokens value ++ fieldTokens rest)

end

/-- The text without white space. -/
def compact (j : Json) : String := String.ofList (j.tokens.flatMap Token.text)

end TypedMustache.Json
