import TypedMustache.Scope.Marker

/-! What generated markers do when they run. A valuation says what each Java expression
comes to; conditions are evaluated from left to right and stop where the rest cannot
matter, and nested blocks are entered one after the other. Nothing comes of an expression
that throws, of a call on null, or of a condition that meets a value of another kind.

An inverted marker enters its block if the value is null or, for a value that a section
looks into, if there is nothing in it. The marker of a section does the opposite. -/

namespace TypedMustache

/-- A Java value as markers tell it apart. -/
inductive RuntimeValue where
  | null
  /-- A `boolean`, or a `Boolean` that is there. -/
  | truth (value : Bool)
  /-- An `Iterable` with a number of elements. -/
  | sequence (count : Nat)
  | array (length : Nat)
  | optional (filled : Bool)
  /-- Any other object. -/
  | object
  deriving DecidableEq, Repr

namespace RuntimeValue

def isNull : RuntimeValue → Bool
  | .null => true
  | _ => false

def truth? : RuntimeValue → Option Bool
  | .truth value => some value
  | _ => none

def filled? : RuntimeValue → Option Bool
  | .optional filled => some filled
  | _ => none

def count? : RuntimeValue → Option Nat
  | .sequence count => some count
  | _ => none

def length? : RuntimeValue → Option Nat
  | .array length => some length
  | _ => none

/-- How often a loop over the value runs. -/
def rounds? (v : RuntimeValue) : Option Nat := v.count?.or v.length?

/-- Whether the value is there but says no, or has nothing in it. -/
def isHollow : RuntimeValue → Bool
  | .truth value => !value
  | .sequence count => count == 0
  | .array length => length == 0
  | .optional filled => !filled
  | _ => false

end RuntimeValue

/-- What Java expressions come to, unless they throw. -/
abbrev Valuation := String → Option RuntimeValue

namespace Condition

/-- The outcome of a condition, if it has one. -/
def holds? (env : Valuation) : Condition → Option Bool
  | .isTrue value => (env value).bind (·.truth?)
  | .isNull value => (env value).map (·.isNull)
  | .notNull value => (env value).map (!·.isNull)
  | .isPresent value => (env value).bind (·.filled?)
  | .hasNext value => ((env value).bind (·.count?)).map fun count => !(count == 0)
  | .isEmptyArray value => ((env value).bind (·.length?)).map (· == 0)
  | .group inner => inner.holds? env
  | .not inner => (inner.holds? env).map (!·)
  | .and left right => do if ← left.holds? env then right.holds? env else some false
  | .or left right => do if ← left.holds? env then some true else right.holds? env

/-- Whether one of several alternatives holds. Those after the first that does are not
evaluated. -/
def anyHolds? (env : Valuation) : List Condition → Option Bool
  | [] => some false
  | c :: cs => do if ← c.holds? env then some true else anyHolds? env cs

end Condition

namespace Header

/-- Whether a block is run at least once. -/
def enters? (env : Valuation) : Header → Option Bool
  | .test alternatives => Condition.anyHolds? env alternatives
  | .loop _ _ value => ((env value).bind (·.rounds?)).map fun rounds => !(rounds == 0)

/-- Whether the innermost of nested blocks is run at least once. -/
def allEnter? (env : Valuation) : List Header → Option Bool
  | [] => some true
  | h :: hs => do if ← h.enters? env then allEnter? env hs else some false

end Header

/-- Whether what stands between the markers of a scope is run at least once. Nothing comes
of a scope without markers, or of markers that throw. -/
def Scope.bodyRuns? (env : Valuation) (s : Scope) : Option Bool :=
  s.headers.toOption.bind (Header.allEnter? env)

/-- Whether a section of the shape passes over a value that is there. A section over any
other reference asks only for null. -/
def Shape.passesOver (shape : Shape) (v : RuntimeValue) : Bool :=
  match shape with
  | .plain => false
  | .nullable => false
  | _ => v.isHollow

/-! ### Single values -/

@[simp] theorem Condition.anyHolds?_singleton (env : Valuation) (c : Condition) :
    anyHolds? env [c] = c.holds? env := by
  simp only [anyHolds?]
  cases c.holds? env with
  | none => rfl
  | some b => cases b <;> rfl

@[simp] theorem Header.allEnter?_singleton (env : Valuation) (h : Header) :
    allEnter? env [h] = h.enters? env := by
  simp only [allEnter?]
  cases h.enters? env with
  | none => rfl
  | some b => cases b <;> rfl

/-- An absence condition that has an outcome says whether the value is null or passed over. -/
theorem Scope.absence_holds {env : Valuation} {value : Expression} {shape : Shape}
    {condition : Condition} {b : Bool} (hcondition : absence value shape = .ok condition)
    (hb : condition.holds? env = some b) :
    ∃ v, env value.text = some v ∧ b = (v.isNull || shape.passesOver v) := by
  cases hv : env value.text with
  | none =>
    -- every condition looks at the value first
    rcases shape with _ | (_ | _) | _ | _ | _ | _ <;> cases hcondition <;>
      simp [Condition.holds?, hv] at hb
  | some v =>
    refine ⟨v, rfl, ?_⟩
    rcases shape with _ | (_ | _) | _ | _ | _ | _ <;> cases hcondition <;>
      cases v <;> simp_all [Condition.holds?, RuntimeValue.isNull, Shape.passesOver,
        RuntimeValue.isHollow, RuntimeValue.truth?, RuntimeValue.filled?, RuntimeValue.count?,
        RuntimeValue.length?]

/-- The header of a section that has an outcome says the opposite. -/
theorem Scope.presence_enters {env : Valuation} {value : Expression} {shape : Shape}
    {depth : Nat} {b : Bool} (hshape : shape ≠ .plain)
    (hb : Header.allEnter? env (presence value depth shape) = some b) :
    ∃ v, env value.text = some v ∧ b = !(v.isNull || shape.passesOver v) := by
  cases hv : env value.text with
  | none =>
    rcases shape with _ | (_ | _) | _ | _ | _ | _ <;>
      simp_all [presence, Header.enters?, Condition.holds?]
  | some v =>
    refine ⟨v, rfl, ?_⟩
    rcases shape with _ | (_ | _) | _ | _ | _ | _ <;> cases v <;>
      simp_all [presence, Header.enters?, Condition.holds?, RuntimeValue.rounds?,
        RuntimeValue.isNull, Shape.passesOver, RuntimeValue.isHollow, RuntimeValue.truth?,
        RuntimeValue.filled?, RuntimeValue.count?, RuntimeValue.length?]

end TypedMustache
