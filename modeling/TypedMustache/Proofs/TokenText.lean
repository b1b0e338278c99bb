import Mathlib.Data.List.Forall2
import TypedMustache.Json.Printer
import TypedMustache.Proofs.StringLiterals

/-! The texts that a row of tokens is read from. A string may have any of its characters escaped,
in a short form or by UTF-16 units, white space may stand around every token, and two numbers do
not follow each other. The scan is a fold, so what it makes of a text is told token by token:
between tokens it has nothing open but a number, which any character that cannot go on with it
closes. -/

namespace TypedMustache.Json

open StringLiteral (units)

/-! ### Spellings -/

/-- The number that hexadecimal digits are written for, after others of the given value. -/
def hexValue? (value : Nat) (digits : List Char) : Option Nat :=
  digits.foldlM (fun value digit => (hexDigit? digit).map (16 * value + ·)) value

/-- Whether four hexadecimal digits are written for a number. -/
def HexSpelling (n : Nat) (digits : List Char) : Prop :=
  digits.length = 4 ∧ hexValue? 0 digits = some n

/-- The ways to write a character inside quotes: as it is, by a letter after a backslash, or by
its UTF-16 units. -/
inductive CharSpelling (c : Char) : List Char → Prop where
  | plain (hquote : c ≠ '"') (hbackslash : c ≠ '\\') (hcontrol : 0x20 ≤ c.toNat) :
      CharSpelling c [c]
  | letter {letter : Char} (h : escaped? letter = some c) : CharSpelling c ['\\', letter]
  | escaped {groups : List (List Char)} (h : List.Forall₂ HexSpelling (units c) groups) :
      CharSpelling c (groups.flatMap fun digits => '\\' :: 'u' :: digits)

def Token.isNumber : Token → Bool
  | .number _ => true
  | _ => false

def Token.isString : Token → Bool
  | .string _ => true
  | _ => false

/-- The ways to write a token, where only natural numbers are written as numbers. -/
inductive Token.Spelling : Token → List Char → Prop where
  | fixed {t : Token} (hnumber : t.isNumber = false) (hstring : t.isString = false) :
      Spelling t t.text
  | nat (n : Nat) : Spelling (.number (.ofNat n)) (Nat.toDigits 10 n)
  | string {s : String} {parts : List (List Char)}
      (h : List.Forall₂ CharSpelling s.toList parts) :
      Spelling (.string (some s)) ('"' :: (parts.flatten ++ ['"']))

/-- The characters that may stand around tokens. -/
def blanks : List Char := [' ', '\t', '\n', '\r']

/-- The ways to write a row of tokens. -/
inductive RowSpelling : List Token → List Char → Prop where
  | nil {gap : List Char} (hgap : gap ⊆ blanks) : RowSpelling [] gap
  | cons {gap cs rest : List Char} {t : Token} {ts : List Token} (hgap : gap ⊆ blanks)
      (ht : t.Spelling cs) (hts : RowSpelling ts rest)
      (hapart : t.isNumber = true → ∀ next ∈ ts.head?, next.isNumber = false) :
      RowSpelling (t :: ts) (gap ++ (cs ++ rest))

/-- A fold that may fail goes on where its first part has led. -/
theorem foldlM_append_of_eq_some {α β : Type} {f : β → α → Option β} {first : List α} {b b' : β}
    (h : first.foldlM f b = some b') (later : List α) :
    (first ++ later).foldlM f b = later.foldlM f b' := by
  rw [List.foldlM_append, h, Option.bind_eq_bind, Option.bind_some]

/-! ### Characters inside quotes -/

/-- A unit that is no half of a surrogate pair is a character by itself. -/
theorem joinUnits_cons {unit : Nat} (hhigh : isHighSurrogate unit = false)
    (hlow : isLowSurrogate unit = false) (rest : List Nat) :
    joinUnits (unit :: rest) = (joinUnits rest).map (Char.ofNat unit :: ·) := by
  cases rest with
  | nil => simp [joinUnits, hhigh, hlow]
  | cons next rest => simp [joinUnits, hhigh, hlow]

theorem joinUnits_toNat (c : Char) (rest : List Nat) :
    joinUnits (c.toNat :: rest) = (joinUnits rest).map (c :: ·) := by
  have hvalid : c.toNat < 0xD800 ∨ 0xDFFF < c.toNat ∧ c.toNat < 0x110000 := c.valid
  rw [joinUnits_cons, Char.ofNat_toNat]
  · simp only [isHighSurrogate, Bool.and_eq_false_iff, decide_eq_false_iff_not]
    omega
  · simp only [isLowSurrogate, Bool.and_eq_false_iff, decide_eq_false_iff_not]
    omega

theorem joinUnits_units (c : Char) (rest : List Nat) :
    joinUnits (units c ++ rest) = (joinUnits rest).map (c :: ·) := by
  have hvalid : c.toNat < 0xD800 ∨ 0xDFFF < c.toNat ∧ c.toNat < 0x110000 := c.valid
  unfold units
  split
  · exact joinUnits_toNat c rest
  · next hbeyond =>
    have hhigh : isHighSurrogate (0xD800 + (c.toNat - 0x10000) / 0x400) = true := by
      simp only [isHighSurrogate, Bool.and_eq_true, decide_eq_true_eq]
      omega
    have hlow : isLowSurrogate (0xDC00 + (c.toNat - 0x10000) % 0x400) = true := by
      simp only [isLowSurrogate, Bool.and_eq_true, decide_eq_true_eq]
      omega
    have hvalue : 0x10000 + (0xD800 + (c.toNat - 0x10000) / 0x400 - 0xD800) * 0x400 +
        (0xDC00 + (c.toNat - 0x10000) % 0x400 - 0xDC00) = c.toNat := by
      omega
    rw [List.cons_append, List.cons_append, List.nil_append, joinUnits, if_pos hhigh, if_pos hlow,
      hvalue, Char.ofNat_toNat]

namespace Scan

variable {tokens : List Token}

theorem scan_hex (row : List Nat) {digits : List Char} {left value n : Nat}
    (hlength : digits.length = left + 1) (hvalue : hexValue? value digits = some n) :
    digits.foldlM step ⟨.hex row left value, tokens⟩ = some ⟨.quoted (n :: row), tokens⟩ := by
  induction left generalizing digits value with
  | zero =>
    obtain ⟨d, rfl⟩ := List.length_eq_one_iff.1 hlength
    obtain ⟨v, hv, rfl⟩ : ∃ v, hexDigit? d = some v ∧ 16 * value + v = n := by
      simpa [hexValue?] using hvalue
    simp [step, hv]
  | succ left ih =>
    cases digits with
    | nil => cases hlength
    | cons d digits =>
      rw [hexValue?, List.foldlM_cons] at hvalue
      obtain ⟨value', hd, hvalue⟩ := Option.bind_eq_some_iff.1 hvalue
      obtain ⟨v, hv, rfl⟩ := Option.map_eq_some_iff.1 hd
      rw [List.foldlM_cons]
      simp only [step, hv, Option.map_some, Option.bind_eq_bind, Option.bind_some]
      exact ih (Nat.succ.inj hlength) hvalue

/-- An escaped unit follows those that have been read of a string. -/
theorem scan_unit (row : List Nat) {digits : List Char} {n : Nat} (h : HexSpelling n digits) :
    ('\\' :: 'u' :: digits).foldlM step ⟨.quoted row, tokens⟩ =
      some ⟨.quoted (n :: row), tokens⟩ :=
  scan_hex row h.1 h.2

theorem scan_units {groups : List (List Char)} {row added : List Nat}
    (h : List.Forall₂ HexSpelling added groups) :
    (groups.flatMap fun digits => '\\' :: 'u' :: digits).foldlM step ⟨.quoted row, tokens⟩ =
      some ⟨.quoted (added.reverse ++ row), tokens⟩ := by
  induction h generalizing row with
  | nil => rfl
  | @cons n digits added groups hdigits _ ih =>
    rw [List.flatMap_cons, foldlM_append_of_eq_some (scan_unit row hdigits), ih]
    simp

/-- A character inside quotes adds units that are joined to the character. -/
theorem scan_char (row : List Nat) {c : Char} {cs : List Char} (h : CharSpelling c cs) :
    ∃ added, cs.foldlM step ⟨.quoted row, tokens⟩ = some ⟨.quoted (added.reverse ++ row), tokens⟩ ∧
      ∀ rest, joinUnits (added ++ rest) = (joinUnits rest).map (c :: ·) := by
  cases h with
  | plain hquote hbackslash hcontrol =>
    refine ⟨[c.toNat], ?_, joinUnits_toNat c⟩
    simp [step, hquote, hbackslash, Nat.not_lt.2 hcontrol]
  | @letter letter h =>
    have hmark : letter ≠ 'u' := by
      rintro rfl
      cases h
    refine ⟨[c.toNat], ?_, joinUnits_toNat c⟩
    simp [step, h, hmark]
  | escaped h => exact ⟨units c, scan_units h, joinUnits_units c⟩

theorem scan_chars (tokens : List Token) (row : List Nat) {s : List Char} {parts : List (List Char)}
    (h : List.Forall₂ CharSpelling s parts) :
    ∃ added, parts.flatten.foldlM step ⟨.quoted row, tokens⟩ =
        some ⟨.quoted (added.reverse ++ row), tokens⟩ ∧ joinUnits added = some s := by
  induction h generalizing row with
  | nil => exact ⟨[], rfl, rfl⟩
  | @cons c cs s parts hc _ ih =>
    obtain ⟨first, hfirst, hjoin⟩ := scan_char row hc
    obtain ⟨later, hlater, hrest⟩ := ih (first.reverse ++ row)
    refine ⟨first ++ later, ?_, by rw [hjoin, hrest]; rfl⟩
    rw [List.flatten_cons, foldlM_append_of_eq_some hfirst, hlater, List.reverse_append,
      List.append_assoc]

/-! ### Tokens -/

/-- Whether some tokens have been read and no more than that, where the last one may be a natural
number whose end has not been seen. -/
inductive Stands : List Token → Scan → Prop where
  | gap (tokens : List Token) : Stands tokens ⟨.gap, tokens⟩
  | number {draft : Draft} {n : Number} (hn : draft.number? = some n)
      (hstage : draft.stage = .zero ∨ draft.stage = .whole) (tokens : List Token) :
      Stands (.number n :: tokens) ⟨.number draft, tokens⟩

/-- What can go on with a natural number. -/
def extendsNumber (c : Char) : Bool := c.isDigit || c = '.' || c = 'e' || c = 'E'

theorem step_of_stands {s : Scan} (h : Stands tokens s) {c : Char}
    (hc : extendsNumber c = false) : s.step c = start ⟨.gap, tokens⟩ c := by
  cases h with
  | gap => rfl
  | @number draft n hn hstage tokens =>
    simp only [extendsNumber, Bool.or_eq_false_iff, decide_eq_false_iff_not] at hc
    obtain ⟨⟨⟨hdigit, hpoint⟩, hlower⟩, hupper⟩ := hc
    have hstop : draft.step c = none := by
      rcases hstage with hstage | hstage <;>
        simp [Draft.step, Draft.beginPower, hstage, hdigit, hpoint, hlower, hupper]
    simp only [step, hstop, hn, Option.bind_some, complete]

theorem finish_of_stands {s : Scan} (h : Stands tokens s) : s.finish = some tokens.reverse := by
  cases h with
  | gap => rfl
  | number hn hstage tokens => simp only [finish, hn, Option.map_some]

theorem extendsNumber_of_blank {c : Char} (hc : c ∈ blanks) : extendsNumber c = false := by
  simp only [blanks, List.mem_cons, List.not_mem_nil, or_false] at hc
  rcases hc with rfl | rfl | rfl | rfl <;> rfl

theorem start_of_blank {c : Char} (hc : c ∈ blanks) :
    start ⟨.gap, tokens⟩ c = some ⟨.gap, tokens⟩ := by
  simp only [blanks, List.mem_cons, List.not_mem_nil, or_false] at hc
  rcases hc with rfl | rfl | rfl | rfl <;> rfl

theorem scan_gap {gap : List Char} (hgap : gap ⊆ blanks) {s : Scan} (h : Stands tokens s) :
    ∃ s', gap.foldlM step s = some s' ∧ Stands tokens s' ∧
      (s = ⟨.gap, tokens⟩ → s' = ⟨.gap, tokens⟩) := by
  induction gap generalizing s with
  | nil => exact ⟨s, rfl, h, id⟩
  | cons c gap ih =>
    obtain ⟨hc, hgap⟩ := List.cons_subset.1 hgap
    obtain ⟨s', hs', hstands, hgap'⟩ := ih hgap (.gap tokens)
    refine ⟨s', ?_, hstands, fun _ => hgap' rfl⟩
    rw [List.foldlM_cons, step_of_stands h (extendsNumber_of_blank hc), start_of_blank hc]
    exact hs'

theorem digit_digitChar : ∀ d < 10, (Nat.digitChar d).isDigit = true ∧
    Draft.digit (Nat.digitChar d) = d ∧ (d ≠ 0 → Nat.digitChar d ≠ '0') := by
  decide

theorem start_of_isDigit (tokens : List Token) {c : Char} (hdigit : c.isDigit = true)
    (hzero : c ≠ '0') : start ⟨.gap, tokens⟩ c =
      some ⟨.number { stage := .whole, coefficient := Draft.digit c }, tokens⟩ := by
  unfold start
  split
  all_goals first | exact absurd rfl hzero | rw [if_pos hdigit] | cases hdigit

theorem scan_digits {n : Nat} (hn : n ≠ 0) :
    (Nat.toDigits 10 n).foldlM step ⟨.gap, tokens⟩ =
      some ⟨.number { stage := .whole, coefficient := n }, tokens⟩ := by
  induction n using Nat.strongRecOn with
  | ind n ih =>
    by_cases hlt : n < 10
    · obtain ⟨hdigit, hvalue, hzero⟩ := digit_digitChar n hlt
      have hstart := start_of_isDigit tokens hdigit (hzero hn)
      rw [Nat.toDigits_of_lt_base hlt, List.foldlM_cons]
      simp only [step, hstart, hvalue]
      rfl
    · have hlast : n % 10 < 10 := Nat.mod_lt n (by decide)
      obtain ⟨hdigit, hvalue, -⟩ := digit_digitChar (n % 10) hlast
      have hsum : 10 * (n / 10) + n % 10 = n := Nat.div_add_mod n 10
      rw [Nat.toDigits_of_base_le (by decide) (Nat.le_of_not_lt hlt),
        foldlM_append_of_eq_some (ih (n / 10) (by omega) (by omega))]
      simp [step, Draft.step, Draft.addDigit, hdigit, hvalue, hsum]

theorem scan_nat (tokens : List Token) (n : Nat) :
    ∃ s, (Nat.toDigits 10 n).foldlM step ⟨.gap, tokens⟩ = some s ∧
      Stands (.number (.ofNat n) :: tokens) s := by
  by_cases hn : n = 0
  · subst hn
    exact ⟨⟨.number { stage := .zero }, tokens⟩, rfl, .number rfl (.inl rfl) tokens⟩
  · exact ⟨_, scan_digits hn, .number rfl (.inr rfl) tokens⟩

/-- The text of a token that is neither a number nor a string is read as the token. -/
theorem scan_fixed {t : Token} (hnumber : t.isNumber = false) (hstring : t.isString = false)
    {s : Scan} (h : Stands tokens s) : t.text.foldlM step s = some ⟨.gap, t :: tokens⟩ := by
  have hfirst : ∀ c cs, extendsNumber c = false →
      (c :: cs).foldlM step s = (c :: cs).foldlM step ⟨.gap, tokens⟩ := by
    intro c cs hc
    rw [List.foldlM_cons, step_of_stands h hc]
    rfl
  cases t with
  | number n => cases hnumber
  | string t => cases hstring
  | bool b => cases b <;> exact (hfirst _ _ rfl).trans rfl
  | _ => exact (hfirst _ _ rfl).trans rfl

/-- A token is read after others if it is no number, and a number if none is open before it. -/
theorem scan_token {t : Token} {cs : List Char} (ht : t.Spelling cs) {s : Scan}
    (h : Stands tokens s) (hopen : t.isNumber = true → s = ⟨.gap, tokens⟩) :
    ∃ s', cs.foldlM step s = some s' ∧ Stands (t :: tokens) s' ∧
      (t.isNumber = false → s' = ⟨.gap, t :: tokens⟩) := by
  cases ht with
  | fixed hnumber hstring => exact ⟨_, scan_fixed hnumber hstring h, .gap _, fun _ => rfl⟩
  | nat n =>
    obtain rfl := hopen rfl
    obtain ⟨s', hs', hstands⟩ := scan_nat tokens n
    exact ⟨s', hs', hstands, fun hnumber => by cases hnumber⟩
  | @string text parts hparts =>
    obtain ⟨added, hadded, hjoin⟩ := scan_chars tokens [] hparts
    have hquote : s.step '"' = some ⟨.quoted [], tokens⟩ := step_of_stands h rfl
    refine ⟨_, ?_, .gap _, fun _ => rfl⟩
    rw [List.foldlM_cons, hquote, Option.bind_eq_bind, Option.bind_some,
      foldlM_append_of_eq_some hadded]
    simp [step, complete, hjoin]

theorem scan_row {ts : List Token} {cs : List Char} (hts : RowSpelling ts cs) {s : Scan}
    (h : Stands tokens s) (hopen : ∀ t ∈ ts.head?, t.isNumber = true → s = ⟨.gap, tokens⟩) :
    ∃ s', cs.foldlM step s = some s' ∧ Stands (ts.reverse ++ tokens) s' := by
  induction hts generalizing s tokens with
  | nil hgap =>
    obtain ⟨s', hs', hstands, -⟩ := scan_gap hgap h
    exact ⟨s', hs', hstands⟩
  | @cons gap cs rest t ts hgap ht _ hapart ih =>
    obtain ⟨s₁, hs₁, hstands₁, hopen₁⟩ := scan_gap hgap h
    obtain ⟨s₂, hs₂, hstands₂, hopen₂⟩ :=
      scan_token ht hstands₁ fun hnumber => hopen₁ (hopen t rfl hnumber)
    have hopen₃ : ∀ next ∈ ts.head?, next.isNumber = true → s₂ = ⟨.gap, t :: tokens⟩ := by
      intro next hnext hnumber
      refine hopen₂ (Bool.eq_false_iff.2 fun ht => ?_)
      exact absurd (hapart ht next hnext) (by simp [hnumber])
    obtain ⟨s₃, hs₃, hstands₃⟩ := ih hstands₂ hopen₃
    refine ⟨s₃, ?_, by simpa using hstands₃⟩
    rw [foldlM_append_of_eq_some hs₁, foldlM_append_of_eq_some hs₂, hs₃]

end Scan

/-- A text is split into the tokens that it is written for. -/
theorem tokenize?_of_spelling {ts : List Token} {cs : List Char} (h : RowSpelling ts cs) :
    tokenize? cs = some ts := by
  obtain ⟨s, hs, hstands⟩ := Scan.scan_row h (.gap []) fun _ _ _ => rfl
  rw [tokenize?, hs, Option.bind_some, Scan.finish_of_stands hstands]
  simp

/-! ### The compact spelling -/

theorem hexDigit?_lowerHex : ∀ n < 16, hexDigit? (lowerHex n) = some n := by
  decide

theorem spelling_quoteChar (c : Char) : CharSpelling c (quoteChar c) := by
  unfold quoteChar
  split
  all_goals try exact .letter rfl
  next hquote hbackslash _ _ _ _ _ =>
  split
  · next hcontrol =>
    have hunits : units c = [c.toNat] := if_pos (by omega)
    have hspelling : HexSpelling c.toNat
        ['0', '0', lowerHex (c.toNat / 16), lowerHex (c.toNat % 16)] := by
      have hdigits : 16 * (c.toNat / 16) + c.toNat % 16 = c.toNat := Nat.div_add_mod _ 16
      have hzero : hexDigit? '0' = some 0 := rfl
      refine ⟨rfl, ?_⟩
      simp [hexValue?, hzero, hexDigit?_lowerHex _ (show c.toNat / 16 < 16 by omega),
        hexDigit?_lowerHex _ (show c.toNat % 16 < 16 by omega), hdigits]
    have hgroups := List.Forall₂.cons hspelling .nil
    rw [← hunits] at hgroups
    exact .escaped hgroups
  · next hcontrol => exact .plain hquote hbackslash (Nat.le_of_not_lt hcontrol)

theorem spelling_quote (s : String) : Token.Spelling (.string (some s)) (quote (some s)) := by
  have hparts : List.Forall₂ CharSpelling s.toList (s.toList.map quoteChar) :=
    List.forall₂_map_right_iff.2 (List.forall₂_same.2 fun c _ => spelling_quoteChar c)
  exact .string hparts

end TypedMustache.Json
