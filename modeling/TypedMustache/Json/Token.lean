import TypedMustache.Json.Basic

/-! The tokens of a JSON text. A machine reads one character at a time and keeps the
token that is being read together with those already complete, so scanning is a fold
and reading `xs ++ ys` is reading `xs` and then `ys`. -/

namespace TypedMustache.Json

inductive Token where
  | openArray
  | closeArray
  | openObject
  | closeObject
  | comma
  | colon
  | null
  | bool (value : Bool)
  | number (value : Number)
  | string (text : Text)
  deriving DecidableEq, Repr

/-! ### Numbers -/

/-- What has been read of a number literal. -/
inductive Digits where
  | minus
  | zero
  | whole
  | point
  | fraction
  | mark
  | sign
  | exponent
  deriving DecidableEq, Repr

/-- A number literal that may go on: `places` digits follow its point. -/
structure Draft where
  stage : Digits
  negative : Bool := false
  coefficient : Nat := 0
  places : Nat := 0
  downward : Bool := false
  power : Nat := 0
  deriving Repr

namespace Draft

def digit (c : Char) : Nat := c.toNat - '0'.toNat

def addDigit (d : Draft) (stage : Digits) (c : Char) : Draft :=
  { d with stage := stage, coefficient := 10 * d.coefficient + digit c }

def addPower (d : Draft) (c : Char) : Draft :=
  { d with stage := .exponent, power := 10 * d.power + digit c }

/-- After the digits before the point or after it: an exponent may follow. -/
def beginPower (d : Draft) (c : Char) : Option Draft :=
  if c = 'e' ∨ c = 'E' then some { d with stage := .mark } else none

/-- The literal with one more character, if that character can stand there. -/
def step (d : Draft) (c : Char) : Option Draft :=
  match d.stage with
  | .minus =>
    if c = '0' then some { d with stage := .zero }
    else if c.isDigit then some (d.addDigit .whole c) else none
  | .zero => if c = '.' then some { d with stage := .point } else d.beginPower c
  | .whole =>
    if c.isDigit then some (d.addDigit .whole c)
    else if c = '.' then some { d with stage := .point } else d.beginPower c
  | .point =>
    if c.isDigit then some { d.addDigit .fraction c with places := d.places + 1 } else none
  | .fraction =>
    if c.isDigit then some { d.addDigit .fraction c with places := d.places + 1 }
    else d.beginPower c
  | .mark =>
    if c = '+' then some { d with stage := .sign }
    else if c = '-' then some { d with stage := .sign, downward := true }
    else if c.isDigit then some (d.addPower c) else none
  | .sign => if c.isDigit then some (d.addPower c) else none
  | .exponent => if c.isDigit then some (d.addPower c) else none

/-- The number, if the literal may end here. -/
def number? (d : Draft) : Option Number :=
  let power : Int := if d.downward then -d.power else d.power
  let value (integral : Bool) : Number :=
    { negative := d.negative, coefficient := d.coefficient,
      exponent := power - d.places, integral := integral }
  match d.stage with
  | .zero => some (value true)
  | .whole => some (value true)
  | .fraction => some (value false)
  | .exponent => some (value false)
  | .minus => none
  | .point => none
  | .mark => none
  | .sign => none

end Draft

/-! ### Strings -/

def isHighSurrogate (unit : Nat) : Bool := 0xD800 ≤ unit && unit < 0xDC00

def isLowSurrogate (unit : Nat) : Bool := 0xDC00 ≤ unit && unit < 0xE000

/-- The characters of a row of code points and escaped 16-bit units, in which a high
surrogate and the low surrogate right after it are one character. -/
def joinUnits : List Nat → Option (List Char)
  | [] => some []
  | high :: low :: rest =>
    if isHighSurrogate high then
      if isLowSurrogate low then
        (joinUnits rest).map (Char.ofNat (0x10000 + (high - 0xD800) * 0x400 + (low - 0xDC00)) :: ·)
      else none
    else if isLowSurrogate high then none
    else (joinUnits (low :: rest)).map (Char.ofNat high :: ·)
  | [unit] => if isHighSurrogate unit || isLowSurrogate unit then none else some [Char.ofNat unit]

/-- The character that a one-letter escape stands for. -/
def escaped? : Char → Option Char
  | '"' => some '"'
  | '\\' => some '\\'
  | '/' => some '/'
  | 'b' => some '\x08'
  | 'f' => some '\x0c'
  | 'n' => some '\n'
  | 'r' => some '\r'
  | 't' => some '\t'
  | _ => none

def hexDigit? (c : Char) : Option Nat :=
  if c.isDigit then some (c.toNat - '0'.toNat)
  else if 'a' ≤ c ∧ c ≤ 'f' then some (c.toNat - 'a'.toNat + 10)
  else if 'A' ≤ c ∧ c ≤ 'F' then some (c.toNat - 'A'.toNat + 10)
  else none

/-! ### The machine -/

/-- The token that is being read. Code units are kept latest first. -/
inductive Lexeme where
  | gap
  | word (next : Char) (left : List Char) (token : Token)
  | number (draft : Draft)
  | quoted (units : List Nat)
  | escape (units : List Nat)
  | hex (units : List Nat) (left : Nat) (value : Nat)
  deriving Repr

/-- A point of the scan: tokens are kept latest first. -/
structure Scan where
  lexeme : Lexeme := .gap
  tokens : List Token := []
  deriving Repr

namespace Scan

def complete (s : Scan) (token : Token) : Scan := ⟨.gap, token :: s.tokens⟩

/-- The first character of a token, or white space between tokens. -/
def start (s : Scan) (c : Char) : Option Scan :=
  match c with
  | ' ' => some s
  | '\t' => some s
  | '\n' => some s
  | '\r' => some s
  | '[' => some (s.complete .openArray)
  | ']' => some (s.complete .closeArray)
  | '\x7b' => some (s.complete .openObject)
  | '\x7d' => some (s.complete .closeObject)
  | ',' => some (s.complete .comma)
  | ':' => some (s.complete .colon)
  | 'n' => some { s with lexeme := .word 'u' ['l', 'l'] .null }
  | 't' => some { s with lexeme := .word 'r' ['u', 'e'] (.bool true) }
  | 'f' => some { s with lexeme := .word 'a' ['l', 's', 'e'] (.bool false) }
  | '"' => some { s with lexeme := .quoted [] }
  | '-' => some { s with lexeme := .number { stage := .minus, negative := true } }
  | '0' => some { s with lexeme := .number { stage := .zero } }
  | c =>
    if c.isDigit then
      some { s with lexeme := .number { stage := .whole, coefficient := Draft.digit c } }
    else none

def step (s : Scan) (c : Char) : Option Scan :=
  match s.lexeme with
  | .gap => s.start c
  | .word next left token =>
    if c = next then
      match left with
      | [] => some (s.complete token)
      | d :: left => some { s with lexeme := .word d left token }
    else none
  | .number draft =>
    match draft.step c with
    | some longer => some { s with lexeme := .number longer }
    | none => draft.number?.bind fun n => (s.complete (.number n)).start c
  | .quoted units =>
    if c = '"' then
      some (s.complete (.string ((joinUnits units.reverse).map String.ofList)))
    else if c = '\\' then some { s with lexeme := .escape units }
    else if c.toNat < 0x20 then none
    else some { s with lexeme := .quoted (c.toNat :: units) }
  | .escape units =>
    if c = 'u' then some { s with lexeme := .hex units 3 0 }
    else (escaped? c).map fun e => { s with lexeme := .quoted (e.toNat :: units) }
  | .hex units left value =>
    (hexDigit? c).map fun d =>
      match left with
      | 0 => { s with lexeme := .quoted ((16 * value + d) :: units) }
      | left + 1 => { s with lexeme := .hex units left (16 * value + d) }

/-- The tokens, if the text may end here. -/
def finish (s : Scan) : Option (List Token) :=
  match s.lexeme with
  | .gap => some s.tokens.reverse
  | .number draft => draft.number?.map fun n => (Token.number n :: s.tokens).reverse
  | _ => none

end Scan

/-- Splits a text into tokens. -/
def tokenize? (cs : List Char) : Option (List Token) :=
  (cs.foldlM Scan.step {}).bind Scan.finish

end TypedMustache.Json
