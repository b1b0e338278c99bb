import TypedMustache.ClassTable.Standard
import TypedMustache.Model.Member

/-! The keys of map entries as Java string literals. Java reads a source text in two passes. The
first one replaces Unicode escapes, which an even number of backslashes can stand before, and
makes UTF-16 code units of the text. The second one takes a literal apart up to its closing
quote. The body that is written for a key has no Unicode escape in it, since all of its
backslashes come in pairs or stand before a quote or a letter that is not `u`. So it is read back
character by character, but for a carriage return, which no literal can hold as it is and which
the body keeps. -/

namespace TypedMustache

namespace StringLiteral

/-- The UTF-16 code units of a character. -/
def units (c : Char) : List Nat :=
  if c.toNat < 0x10000 then [c.toNat]
  else [0xD800 + (c.toNat - 0x10000) / 0x400, 0xDC00 + (c.toNat - 0x10000) % 0x400]

/-! ### Unicode escapes -/

def hexDigit? (c : Char) : Option Nat :=
  if '0' ≤ c ∧ c ≤ '9' then some (c.toNat - '0'.toNat)
  else if 'a' ≤ c ∧ c ≤ 'f' then some (c.toNat - 'a'.toNat + 10)
  else if 'A' ≤ c ∧ c ≤ 'F' then some (c.toNat - 'A'.toNat + 10)
  else none

/-- How much of a Unicode escape has been read: nothing, a backslash that can begin one, a `u` or
more after it, or some of the four digits. -/
inductive Escape where
  | outside
  | backslash
  | marked
  | digits (count value : Nat)

/-- The code units of a text, with Unicode escapes replaced. What follows a backslash that
begins no escape cannot begin one either. -/
def translate : Escape → List Char → Option (List Nat)
  | .outside, [] => some []
  | .outside, c :: rest =>
    if c = '\\' then translate .backslash rest
    else (translate .outside rest).map (units c ++ ·)
  | .backslash, [] => some (units '\\')
  | .backslash, c :: rest =>
    if c = 'u' then translate .marked rest
    else (translate .outside rest).map (units '\\' ++ units c ++ ·)
  | .marked, [] => none
  | .marked, c :: rest =>
    if c = 'u' then translate .marked rest
    else (hexDigit? c).bind fun digit => translate (.digits 1 digit) rest
  | .digits _ _, [] => none
  | .digits count value, c :: rest =>
    (hexDigit? c).bind fun digit =>
      if count = 3 then (translate .outside rest).map ((16 * value + digit) :: ·)
      else translate (.digits (count + 1) (16 * value + digit)) rest

/-! ### Literals -/

/-- How much of an escape sequence has been read: nothing, its backslash, or a character code
with room for some more octal digits. -/
inductive Sequence where
  | outside
  | backslash
  | octal (room value : Nat)

def octalDigit? (unit : Nat) : Option Nat :=
  if '0'.toNat ≤ unit ∧ unit ≤ '7'.toNat then some (unit - '0'.toNat) else none

/-- The unit that a backslash and one more unit stand for. -/
def escaped? (unit : Nat) : Option Nat :=
  [('b'.toNat, 0x08), ('s'.toNat, 0x20), ('t'.toNat, 0x09), ('n'.toNat, 0x0A), ('f'.toNat, 0x0C),
    ('r'.toNat, 0x0D), (0x22, 0x22), (0x27, 0x27), (0x5C, 0x5C)].lookup unit

/-- What a unit adds to the value of a literal, and the state after it. The closing quote leaves
no state. -/
def plainStep (unit : Nat) : Option (List Nat × Option Sequence) :=
  if unit = '"'.toNat then some ([], none)
  else if unit = '\n'.toNat ∨ unit = '\r'.toNat then none
  else if unit = '\\'.toNat then some ([], some .backslash)
  else some ([unit], some .outside)

/-- Octal escapes have up to three digits if the first one is at most 3, and else up to two. -/
def step : Sequence → Nat → Option (List Nat × Option Sequence)
  | .outside, unit => plainStep unit
  | .backslash, unit =>
    match octalDigit? unit with
    | some digit => some ([], some (.octal (if digit ≤ 3 then 2 else 1) digit))
    | none => (escaped? unit).map fun value => ([value], some .outside)
  | .octal room value, unit =>
    match room, octalDigit? unit with
    | room + 1, some digit => some ([], some (.octal room (8 * value + digit)))
    | _, _ => (plainStep unit).map fun (added, state) => (value :: added, state)

/-- More units before those of a literal, of which the text after it is no part. -/
def prepend (added : List Nat) (literal : List Nat × List Nat) : List Nat × List Nat :=
  (added ++ literal.1, literal.2)

@[simp] theorem prepend_nil : prepend [] = id := rfl

@[simp] theorem prepend_comp_prepend (first later : List Nat) :
    prepend first ∘ prepend later = prepend (first ++ later) := by
  funext literal
  simp [prepend]

/-- The value of a literal whose opening quote has been read, and the text after its closing
quote. -/
def literal? : Sequence → List Nat → Option (List Nat × List Nat)
  | _, [] => none
  | state, unit :: rest =>
    match step state unit with
    | none => none
    | some (added, none) => some (added, rest)
    | some (added, some state) => (literal? state rest).map (prepend added)

/-- Reads the literal that has its opening quote right before the text. -/
def read? (text : String) : Option (List Nat × List Nat) :=
  (translate .outside text.toList).bind (literal? .outside)

/-! ### The body that is written for a key -/

/-- A character is written as a backslash and a code for it, or as it is if it is not taken for
the start or the end of anything. -/
theorem javaStringChar_cases (c : Char) :
    (∃ code, javaStringChar c = ['\\', code] ∧ code ≠ 'u' ∧ code ≠ '\n' ∧ code ≠ '\r' ∧
        c ≠ '\r' ∧ units code = [code.toNat] ∧ units c = [c.toNat] ∧
        octalDigit? code.toNat = none ∧ escaped? code.toNat = some c.toNat) ∨
      (javaStringChar c = [c] ∧ c ≠ '"' ∧ c ≠ '\\' ∧ c ≠ '\n') := by
  unfold javaStringChar
  split
  · exact .inl ⟨'"', rfl, by decide⟩
  · exact .inl ⟨'\\', rfl, by decide⟩
  · exact .inl ⟨'n', rfl, by decide⟩
  · exact .inl ⟨'t', rfl, by decide⟩
  · next hquote hbackslash hline _ => exact .inr ⟨rfl, hquote, hbackslash, hline⟩

theorem translate_javaStringChar (c : Char) (rest : List Char) :
    translate .outside (javaStringChar c ++ rest) =
      (translate .outside rest).map ((javaStringChar c).flatMap units ++ ·) := by
  obtain ⟨code, hc, hcode, -⟩ | ⟨hc, -, hbackslash, -⟩ := javaStringChar_cases c
  · simp [hc, translate, hcode]
  · simp [hc, translate, hbackslash]

theorem translate_body (name rest : List Char) :
    translate .outside (name.flatMap javaStringChar ++ rest) =
      (translate .outside rest).map ((name.flatMap javaStringChar).flatMap units ++ ·) := by
  induction name with
  | nil => simp
  | cons c name ih =>
    rw [List.flatMap_cons, List.append_assoc, translate_javaStringChar, ih, Option.map_map,
      List.flatMap_append]
    simp [Function.comp_def]

theorem literal?_of_step {state state' : Sequence} {unit : Nat} {added : List Nat}
    (h : step state unit = some (added, some state')) (rest : List Nat) :
    literal? state (unit :: rest) = (literal? state' rest).map (prepend added) := by
  rw [literal?, h]

theorem toNat_ne {c d : Char} (h : c ≠ d) : c.toNat ≠ d.toNat :=
  fun heq => h (Char.ext (UInt32.toNat_inj.1 heq))

theorem literal?_plain {unit : Nat} (hquote : unit ≠ '"'.toNat) (hbackslash : unit ≠ '\\'.toNat)
    (hline : unit ≠ '\n'.toNat) (hreturn : unit ≠ '\r'.toNat) (rest : List Nat) :
    literal? .outside (unit :: rest) = (literal? .outside rest).map (prepend [unit]) := by
  refine literal?_of_step ?_ rest
  simp only [step, plainStep, hquote, hbackslash, hline, hreturn, if_false, or_self]

theorem literal?_units {c : Char} (hquote : c ≠ '"') (hbackslash : c ≠ '\\') (hline : c ≠ '\n')
    (hreturn : c ≠ '\r') (rest : List Nat) :
    literal? .outside (units c ++ rest) =
      (literal? .outside rest).map (prepend (units c)) := by
  unfold units
  split
  · exact literal?_plain (toNat_ne hquote) (toNat_ne hbackslash) (toNat_ne hline) (toNat_ne hreturn)
      rest
  · -- the units of a surrogate pair are no characters of their own
    have hsurrogate : ∀ unit rest, 0xD800 ≤ unit → literal? .outside (unit :: rest) =
        (literal? .outside rest).map (prepend [unit]) := by
      intro unit rest hunit
      have hascii : '"'.toNat < 0xD800 ∧ '\\'.toNat < 0xD800 ∧ '\n'.toNat < 0xD800 ∧
          '\r'.toNat < 0xD800 := by decide
      exact literal?_plain (by omega) (by omega) (by omega) (by omega) rest
    rw [List.cons_append, hsurrogate _ _ (by omega), List.cons_append, hsurrogate _ _ (by omega),
      Option.map_map, prepend_comp_prepend]
    rfl

theorem literal?_javaStringChar (c : Char) (rest : List Nat) :
    literal? .outside ((javaStringChar c).flatMap units ++ rest) =
      if c = '\r' then none else (literal? .outside rest).map (prepend (units c)) := by
  obtain ⟨code, hc, -, -, -, hreturn, hcode, hvalue, hoctal, hescaped⟩ |
    ⟨hc, hquote, hbackslash, hline⟩ := javaStringChar_cases c
  · have hbegin : step .outside '\\'.toNat = some ([], some .backslash) := rfl
    have hend : step .backslash code.toNat = some ([c.toNat], some .outside) := by
      simp [step, hoctal, hescaped]
    have hunits : (['\\', code].flatMap units ++ rest) = '\\'.toNat :: code.toNat :: rest := by
      simp [hcode]
      rfl
    rw [hc, hunits, literal?_of_step hbegin, literal?_of_step hend, if_neg hreturn, hvalue,
      prepend_nil, Option.map_id_apply]
  · rw [hc, List.flatMap_singleton]
    split
    · next hreturn =>
      subst hreturn
      rfl
    · next hreturn => exact literal?_units hquote hbackslash hline hreturn rest

theorem literal?_body (name : List Char) (rest : List Nat) :
    literal? .outside ((name.flatMap javaStringChar).flatMap units ++ rest) =
      if '\r' ∈ name then none
      else (literal? .outside rest).map (prepend (name.flatMap units)) := by
  induction name with
  | nil => simp
  | cons c name ih =>
    rw [List.flatMap_cons, List.flatMap_append, List.append_assoc, literal?_javaStringChar, ih]
    by_cases hc : c = '\r'
    · simp [hc]
    · by_cases hname : '\r' ∈ name
      · simp [hname]
      · simp [hc, Ne.symm hc, hname]

theorem newline_notMem_body (name : List Char) : '\n' ∉ name.flatMap javaStringChar := by
  intro hmem
  obtain ⟨c, -, hc⟩ := List.mem_flatMap.1 hmem
  obtain ⟨code, heq, -, hcode, -⟩ | ⟨heq, -, -, hline⟩ := javaStringChar_cases c
  · simp [heq, Ne.symm hcode] at hc
  · simp [heq, Ne.symm hline] at hc

theorem return_mem_body (name : List Char) :
    '\r' ∈ name.flatMap javaStringChar ↔ '\r' ∈ name := by
  rw [List.mem_flatMap]
  constructor
  · rintro ⟨c, hmem, hc⟩
    obtain ⟨code, heq, -, -, hcode, -⟩ | ⟨heq, -⟩ := javaStringChar_cases c
    · simp [heq, Ne.symm hcode] at hc
    · rw [heq, List.mem_singleton] at hc
      rwa [hc]
  · intro hmem
    exact ⟨'\r', hmem, List.mem_singleton_self '\r'⟩

/-- The number of backslashes at the end of a text, with `count` right before it. -/
def backslashesAtEnd (count : Nat) : List Char → Nat
  | [] => count
  | c :: rest => backslashesAtEnd (if c = '\\' then count + 1 else 0) rest

/-- Each quote in a body is escaped: backslashes come in pairs, and one more is before a quote. -/
theorem quote_escaped_in_body {name before after : List Char} {count : Nat}
    (hcount : count % 2 = 0) (h : name.flatMap javaStringChar = before ++ '"' :: after) :
    backslashesAtEnd count before % 2 = 1 := by
  induction name generalizing before count with
  | nil => simp at h
  | cons c name ih =>
    rw [List.flatMap_cons] at h
    obtain ⟨code, heq, -⟩ | ⟨heq, hquote, hbackslash, -⟩ := javaStringChar_cases c
    · rw [heq] at h
      match before with
      | [] => cases h
      | [_] =>
        cases h
        simp only [backslashesAtEnd, if_true]
        omega
      | _ :: d :: before =>
        injection h with hfirst h
        injection h with hsecond h
        subst hfirst
        simp only [backslashesAtEnd, if_true]
        split
        · exact ih (by omega) h
        · exact ih rfl h
    · rw [heq] at h
      cases before with
      | nil =>
        injection h with hfirst h
        exact absurd hfirst hquote
      | cons d before =>
        injection h with hfirst h
        subst hfirst
        rw [backslashesAtEnd, if_neg hbackslash]
        exact ih rfl h

end StringLiteral

namespace Model

open StringLiteral

/-- The key of a map entry stands between quotes, with no line feed and no quote in it that no
backslash escapes. Java reads the literal as the name, as long as the name has no carriage return,
which would stand in the literal as it is and make it none. -/
theorem mapEntry_key_literal (m : Model) (value : Expression) (ty : JavaType) (name : String) :
    ∃ body : String, (m.mapEntry value ty name).text = value.text ++ ".get(\"" ++ body ++ "\")" ∧
      '\n' ∉ body.toList ∧ ('\r' ∈ body.toList ↔ '\r' ∈ name.toList) ∧
      (∀ before after, body.toList = before ++ '"' :: after →
        backslashesAtEnd 0 before % 2 = 1) ∧
      read? (body ++ "\")") =
        if '\r' ∈ name.toList then none
        else some (name.toList.flatMap units, ")".toList.flatMap units) := by
  have hbody : (javaStringBody name).toList = name.toList.flatMap javaStringChar :=
    String.toList_ofList
  refine ⟨javaStringBody name, rfl, ?_, ?_, ?_, ?_⟩
  · rw [hbody]
    exact newline_notMem_body name.toList
  · rw [hbody]
    exact return_mem_body name.toList
  · rw [hbody]
    exact fun before after => quote_escaped_in_body rfl
  · have hend : translate .outside "\")".toList = some ("\")".toList.flatMap units) := by decide
    have hclose : literal? .outside ("\")".toList.flatMap units) =
        some ([], ")".toList.flatMap units) := by decide
    rw [read?, String.toList_append, hbody, translate_body, hend, Option.map_some,
      Option.bind_some, literal?_body, hclose, Option.map_some, prepend, List.append_nil]

/-- A carriage return is not escaped, and ends the line before the literal is closed. -/
theorem mapEntry_key_carriage_return :
    let m : Model := { types := (ClassTable.standard "stachec.runtime.Renderable").toTypeSystem }
    let ty : JavaType := .applied "java.util.Map"
      [.declared "java.lang.String", .declared "java.lang.String"]
    (m.mapEntry ⟨"data", ty, []⟩ ty "a\rb").text = "data.get(\"" ++ "a\rb" ++ "\")" ∧
      '\r' ∈ "a\rb".toList ∧ read? ("a\rb" ++ "\")") = none := by
  decide +kernel

/-- The name of a Unicode escape stands for itself. As it is, it would close the literal. -/
example :
    read? (javaStringBody "\\u0022" ++ "\")") =
        some ("\\u0022".toList.flatMap units, ")".toList.flatMap units) ∧
      read? ("\\u0022" ++ "\")") = some ([], "\")".toList.flatMap units) := by
  decide +kernel

end Model

end TypedMustache
