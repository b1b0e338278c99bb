import TypedMustache.Json.Parser
import TypedMustache.Proofs.TokenText

/-! Reading is the inverse of writing. Read from the place where a value has to start, the tokens
of a value have the effect that the value has when it is complete, whatever arrays and objects are
open around it. So a row of tokens is read as the value that it is written for, and so is every
text that spells the row, in whatever way. -/

namespace TypedMustache.Json

namespace Reading

theorem foldlM_cons_of_step {r r' : Reading} {t : Token} (h : r.step t = some r')
    (ts : List Token) : (t :: ts).foldlM step r = ts.foldlM step r' := by
  rw [List.foldlM_cons, h, Option.bind_eq_bind, Option.bind_some]

/-- Where an array may end before its first item, the tokens of a value are read as that item. -/
theorem foldlM_first (j : Json) (items : List Json) (frames : List Frame) (rest : List Token) :
    (j.tokens ++ rest).foldlM step ⟨.first, .array items :: frames⟩ =
      (j.tokens ++ rest).foldlM step ⟨.value, .array items :: frames⟩ := by
  obtain ⟨t, ts, htokens, ht⟩ : ∃ t ts, j.tokens = t :: ts ∧ t ≠ .closeArray := by
    cases j with
    | array items => cases items <;> exact ⟨_, _, rfl, by simp⟩
    | object fields => cases fields <;> exact ⟨_, _, rfl, by simp⟩
    | _ => exact ⟨_, _, rfl, by simp⟩
  have hstep : step ⟨.first, .array items :: frames⟩ t = step ⟨.value, .array items :: frames⟩ t :=
    if_neg ht
  rw [htokens, List.cons_append, List.foldlM_cons, List.foldlM_cons, hstep]

mutual

/-- The tokens of a value have the effect of the value. -/
theorem foldlM_tokens : ∀ (j : Json) (frames : List Frame) (rest : List Token),
    (j.tokens ++ rest).foldlM step ⟨.value, frames⟩ =
      (complete j frames).bind fun r => rest.foldlM step r
  | .null, frames, rest => rfl
  | .bool b, frames, rest => rfl
  | .number n, frames, rest => rfl
  | .string t, frames, rest => rfl
  | .array [], frames, rest => rfl
  | .array (item :: items), frames, rest => by
    have hbegin : step ⟨.value, frames⟩ .openArray = some ⟨.first, .array [] :: frames⟩ := rfl
    rw [tokens, List.cons_append, List.append_assoc, foldlM_cons_of_step hbegin, foldlM_first,
      foldlM_tokens item]
    exact foldlM_itemTokens items [item] frames rest
  | .object [], frames, rest => rfl
  | .object ((name, value) :: fields), frames, rest => by
    have hbegin : step ⟨.value, frames⟩ .openObject = some ⟨.first, .object [] :: frames⟩ := rfl
    have hname : step ⟨.first, .object [] :: frames⟩ (.string name) =
        some ⟨.colon, .field [] name :: frames⟩ := rfl
    have hcolon : step ⟨.colon, .field [] name :: frames⟩ .colon =
        some ⟨.value, .field [] name :: frames⟩ := rfl
    rw [tokens, List.cons_append, List.cons_append, List.cons_append, List.append_assoc,
      foldlM_cons_of_step hbegin, foldlM_cons_of_step hname, foldlM_cons_of_step hcolon,
      foldlM_tokens value]
    exact foldlM_fieldTokens fields [(name, value)] frames rest

theorem foldlM_itemTokens : ∀ (items read : List Json) (frames : List Frame) (rest : List Token),
    (itemTokens items ++ rest).foldlM step ⟨.separator, .array read :: frames⟩ =
      (complete (.array (read.reverse ++ items)) frames).bind fun r => rest.foldlM step r
  | [], read, frames, rest => by
    rw [List.append_nil]
    rfl
  | item :: items, read, frames, rest => by
    have hcomma : step ⟨.separator, .array read :: frames⟩ .comma =
        some ⟨.value, .array read :: frames⟩ := rfl
    have hitems := foldlM_itemTokens items (item :: read) frames rest
    rw [List.reverse_cons, List.append_assoc, List.singleton_append] at hitems
    rw [itemTokens, List.cons_append, List.append_assoc, foldlM_cons_of_step hcomma,
      foldlM_tokens item]
    exact hitems

theorem foldlM_fieldTokens : ∀ (fields read : List (Text × Json)) (frames : List Frame)
    (rest : List Token),
    (fieldTokens fields ++ rest).foldlM step ⟨.separator, .object read :: frames⟩ =
      (complete (.object (read.reverse ++ fields)) frames).bind fun r => rest.foldlM step r
  | [], read, frames, rest => by
    rw [List.append_nil]
    rfl
  | (name, value) :: fields, read, frames, rest => by
    have hcomma : step ⟨.separator, .object read :: frames⟩ .comma =
        some ⟨.name, .object read :: frames⟩ := rfl
    have hname : step ⟨.name, .object read :: frames⟩ (.string name) =
        some ⟨.colon, .field read name :: frames⟩ := rfl
    have hcolon : step ⟨.colon, .field read name :: frames⟩ .colon =
        some ⟨.value, .field read name :: frames⟩ := rfl
    have hfields := foldlM_fieldTokens fields ((name, value) :: read) frames rest
    rw [List.reverse_cons, List.append_assoc, List.singleton_append] at hfields
    rw [fieldTokens, List.cons_append, List.cons_append, List.cons_append, List.append_assoc,
      foldlM_cons_of_step hcomma, foldlM_cons_of_step hname, foldlM_cons_of_step hcolon,
      foldlM_tokens value]
    exact hfields

end

end Reading

theorem ofTokens?_tokens (j : Json) : ofTokens? j.tokens = some j := by
  have h := Reading.foldlM_tokens j [] []
  rw [List.append_nil] at h
  rw [ofTokens?, h]
  rfl

/-- The texts that are written for a value. -/
def Spelling (j : Json) (s : String) : Prop := RowSpelling j.tokens s.toList

/-- Every text that is written for a value is read as the value. -/
theorem parse?_of_spelling {j : Json} {s : String} (h : j.Spelling s) : parse? s = some j := by
  rw [parse?, tokenize?_of_spelling h, Option.bind_some, ofTokens?_tokens]

/-! ### The compact text -/

mutual

/-- Whether all strings of a value have characters and all its numbers are natural numbers. -/
def isBasic : Json → Bool
  | .number n => n = .ofNat n.coefficient
  | .string t => t.isSome
  | .array items => areBasic items
  | .object fields => fieldsBasic fields
  | _ => true

def areBasic : List Json → Bool
  | [] => true
  | item :: rest => isBasic item && areBasic rest

def fieldsBasic : List (Text × Json) → Bool
  | [] => true
  | (name, value) :: rest => name.isSome && isBasic value && fieldsBasic rest

end

/-- Whether a row of tokens may be written as their texts without anything in between. -/
def IsCompact (ts : List Token) : Prop := RowSpelling ts (ts.flatMap Token.text)

namespace IsCompact

variable {ts : List Token}

theorem cons {t : Token} (h : IsCompact ts) (ht : t.Spelling t.text)
    (hapart : t.isNumber = true → ∀ next ∈ ts.head?, next.isNumber = false) :
    IsCompact (t :: ts) :=
  RowSpelling.cons (List.nil_subset blanks) ht h hapart

theorem fixed {t : Token} (h : IsCompact ts) (hnumber : t.isNumber = false)
    (hstring : t.isString = false) : IsCompact (t :: ts) :=
  h.cons (.fixed hnumber hstring) fun ht => by simp [ht] at hnumber

theorem string (h : IsCompact ts) (s : String) : IsCompact (.string (some s) :: ts) :=
  h.cons (spelling_quote s) nofun

theorem nat (h : IsCompact ts) (n : Nat) (hapart : ∀ next ∈ ts.head?, next.isNumber = false) :
    IsCompact (.number (.ofNat n) :: ts) := by
  have htext : Nat.toDigits 10 n = Token.text (.number (.ofNat n)) := by
    simp [Token.text, Number.text, Number.ofNat]
  exact h.cons (htext ▸ .nat n) fun _ => hapart

end IsCompact

theorem isNumber_head_itemTokens (items : List Json) (ts : List Token) :
    ∀ next ∈ (itemTokens items ++ ts).head?, next.isNumber = false := by
  cases items <;> simp [itemTokens, Token.isNumber]

theorem isNumber_head_fieldTokens (fields : List (Text × Json)) (ts : List Token) :
    ∀ next ∈ (fieldTokens fields ++ ts).head?, next.isNumber = false := by
  cases fields <;> simp [fieldTokens, Token.isNumber]

mutual

/-- The tokens of a value may be written without white space, if no number follows. -/
theorem isCompact_tokens : ∀ (j : Json), j.isBasic = true → ∀ {ts : List Token}, IsCompact ts →
    (∀ next ∈ ts.head?, next.isNumber = false) → IsCompact (j.tokens ++ ts)
  | .null, _, ts, hts, _ => hts.fixed rfl rfl
  | .bool b, _, ts, hts, _ => hts.fixed rfl rfl
  | .number n, h, ts, hts, hapart => by
    rw [isBasic, decide_eq_true_eq] at h
    rw [tokens, h]
    exact hts.nat n.coefficient hapart
  | .string none, h, ts, hts, _ => by cases h
  | .string (some s), _, ts, hts, _ => hts.string s
  | .array [], _, ts, hts, _ => (hts.fixed rfl rfl).fixed rfl rfl
  | .array (item :: items), h, ts, hts, _ => by
    rw [isBasic, areBasic, Bool.and_eq_true] at h
    have hitems := isCompact_itemTokens items h.2 hts
    have hitem := isCompact_tokens item h.1 hitems (isNumber_head_itemTokens items ts)
    rw [tokens, List.cons_append, List.append_assoc]
    exact hitem.fixed rfl rfl
  | .object [], _, ts, hts, _ => (hts.fixed rfl rfl).fixed rfl rfl
  | .object ((none, value) :: fields), h, ts, hts, _ => by simp [isBasic, fieldsBasic] at h
  | .object ((some name, value) :: fields), h, ts, hts, _ => by
    rw [isBasic, fieldsBasic, Bool.and_eq_true, Bool.and_eq_true] at h
    have hfields := isCompact_fieldTokens fields h.2 hts
    have hvalue := isCompact_tokens value h.1.2 hfields (isNumber_head_fieldTokens fields ts)
    rw [tokens, List.cons_append, List.cons_append, List.cons_append, List.append_assoc]
    exact ((hvalue.fixed rfl rfl).string name).fixed rfl rfl

theorem isCompact_itemTokens : ∀ (items : List Json), areBasic items = true →
    ∀ {ts : List Token}, IsCompact ts → IsCompact (itemTokens items ++ ts)
  | [], _, ts, hts => hts.fixed rfl rfl
  | item :: items, h, ts, hts => by
    rw [areBasic, Bool.and_eq_true] at h
    have hitems := isCompact_itemTokens items h.2 hts
    have hitem := isCompact_tokens item h.1 hitems (isNumber_head_itemTokens items ts)
    rw [itemTokens, List.cons_append, List.append_assoc]
    exact hitem.fixed rfl rfl

theorem isCompact_fieldTokens : ∀ (fields : List (Text × Json)), fieldsBasic fields = true →
    ∀ {ts : List Token}, IsCompact ts → IsCompact (fieldTokens fields ++ ts)
  | [], _, ts, hts => hts.fixed rfl rfl
  | (none, value) :: fields, h, ts, hts => by simp [fieldsBasic] at h
  | (some name, value) :: fields, h, ts, hts => by
    rw [fieldsBasic, Bool.and_eq_true, Bool.and_eq_true] at h
    have hfields := isCompact_fieldTokens fields h.2 hts
    have hvalue := isCompact_tokens value h.1.2 hfields (isNumber_head_fieldTokens fields ts)
    rw [fieldTokens, List.cons_append, List.cons_append, List.cons_append, List.append_assoc]
    exact ((hvalue.fixed rfl rfl).string name).fixed rfl rfl

end

theorem spelling_compact {j : Json} (h : j.isBasic = true) : j.Spelling j.compact := by
  have htokens := isCompact_tokens j h (.nil (List.nil_subset blanks)) nofun
  rw [List.append_nil] at htokens
  rw [Spelling, compact, String.toList_ofList]
  exact htokens

end TypedMustache.Json
