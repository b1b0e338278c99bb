/-! Java types as a template meets them: primitives, declared types and type variables
(both are names), parameterized types, arrays and wildcards. Parameterized types and
arrays are kept as they were written, so an array may have no dimension or an array as
its element; `arrayOf` builds the usual form. -/

namespace TypedMustache

/-- The side of a wildcard's bound: `? extends B` or `? super B`. -/
inductive Side where
  | upper
  | lower
  deriving DecidableEq, Repr

inductive JavaType where
  | primitive (keyword : String)
  | declared (name : String)
  | generic (base : JavaType) (args : List JavaType)
  | array (element : JavaType) (dimensions : Nat)
  | wildcard (side : Side)
  | bounded (side : Side) (bound : JavaType)
  | unknown
  deriving Inhabited

namespace JavaType

/-! ### Equality -/

mutual

def beq : JavaType → JavaType → Bool
  | .primitive a, .primitive b => a == b
  | .declared a, .declared b => a == b
  | .generic a as, .generic b bs => beq a b && beqAll as bs
  | .array a m, .array b n => beq a b && m == n
  | .wildcard s, .wildcard t => s == t
  | .bounded s a, .bounded t b => s == t && beq a b
  | .unknown, .unknown => true
  | _, _ => false

def beqAll : List JavaType → List JavaType → Bool
  | [], [] => true
  | a :: as, b :: bs => beq a b && beqAll as bs
  | _, _ => false

end

mutual

theorem beq_iff : ∀ a b : JavaType, beq a b = true ↔ a = b
  | .primitive _, b => by cases b <;> simp [beq]
  | .declared _, b => by cases b <;> simp [beq]
  | .generic a as, b => by
    cases b with
    | generic b bs => simp [beq, beq_iff a b, beqAll_iff as bs]
    | _ => simp [beq]
  | .array a _, b => by
    cases b with
    | array b _ => simp [beq, beq_iff a b]
    | _ => simp [beq]
  | .wildcard _, b => by cases b <;> simp [beq]
  | .bounded _ a, b => by
    cases b with
    | bounded _ b => simp [beq, beq_iff a b]
    | _ => simp [beq]
  | .unknown, b => by cases b <;> simp [beq]

theorem beqAll_iff : ∀ as bs : List JavaType, beqAll as bs = true ↔ as = bs
  | [], bs => by cases bs <;> simp [beqAll]
  | a :: as, bs => by
    cases bs with
    | nil => simp [beqAll]
    | cons b bs => simp [beqAll, beq_iff a b, beqAll_iff as bs]

end

instance : DecidableEq JavaType := fun a b => decidable_of_iff _ (beq_iff a b)

/-! ### Parts -/

def objectName : String := "java.lang.Object"

def object : JavaType := .declared objectName

/-- The name of the declared type behind a reference. -/
def baseName? : JavaType → Option String
  | .declared name => some name
  | .generic base _ => base.baseName?
  | _ => none

def args : JavaType → List JavaType
  | .generic _ args => args
  | _ => []

/-- The component type of an array, one dimension down. -/
def component? : JavaType → Option JavaType
  | .array element (n + 2) => some (.array element (n + 1))
  | .array element _ => some element
  | _ => none

/-- The upper bound of a wildcard. Other types and other wildcards have none. -/
def upperBound? : JavaType → Option JavaType
  | .bounded .upper bound => some bound
  | _ => none

def isPrimitive : JavaType → Bool
  | .primitive _ => true
  | _ => false

def isArray : JavaType → Bool
  | .array _ _ => true
  | _ => false

def isWildcard : JavaType → Bool
  | .wildcard _ => true
  | .bounded _ _ => true
  | _ => false

/-- A wildcard without a bound, whichever way it was written. -/
def isUnbounded : JavaType → Bool
  | .wildcard _ => true
  | _ => false

mutual

/-- Whether a wildcard stands in the type outside the bounds of others. A base is
a name and is not searched. -/
def hasWildcard : JavaType → Bool
  | .wildcard _ => true
  | .bounded _ _ => true
  | .generic _ args => anyWildcard args
  | .array element _ => hasWildcard element
  | _ => false

def anyWildcard : List JavaType → Bool
  | [] => false
  | a :: as => hasWildcard a || anyWildcard as

end

/-- Whether both stand for one type. A wildcard stands for no particular type. -/
def sameType (a b : JavaType) : Bool :=
  !a.hasWildcard && !b.hasWildcard && a != .unknown && a == b

mutual

/-- The number of nodes, where every dimension of an array counts. -/
def size : JavaType → Nat
  | .generic base args => size base + sizes args + 1
  | .array element dimensions => size element + dimensions + 1
  | .bounded _ bound => size bound + 1
  | _ => 1

def sizes : List JavaType → Nat
  | [] => 0
  | a :: as => size a + sizes as

end

mutual

/-- Whether all dimension counts of the type are numbers of 64 bits. -/
def dimensionsFit : JavaType → Bool
  | .generic base args => dimensionsFit base && allDimensionsFit args
  | .array element dimensions => dimensionsFit element && dimensions < UInt64.size
  | .bounded _ bound => dimensionsFit bound
  | _ => true

def allDimensionsFit : List JavaType → Bool
  | [] => true
  | a :: as => dimensionsFit a && allDimensionsFit as

end

/-! ### Building -/

/-- The sum of two dimension counts. Beyond the last number of 64 bits it starts again at zero. -/
def addDimensions (m n : Nat) : Nat := (m + n) % UInt64.size

/-- `name<args...>`. -/
def applied (name : String) (args : List JavaType) : JavaType := .generic (.declared name) args

/-- `name<args...>`, or the plain declared type when there are no arguments. -/
def declaredWith (name : String) : List JavaType → JavaType
  | [] => .declared name
  | args => applied name args

/-- The array type with one more dimension. -/
def arrayOf : JavaType → JavaType
  | .array element dimensions => .array element (addDimensions dimensions 1)
  | element => .array element 1

/-- Drops type arguments and reads a wildcard as its bound. -/
def erasure : JavaType → JavaType
  | .generic base _ => erasure base
  | .array element dimensions => .array (erasure element) dimensions
  | .bounded .upper bound => erasure bound
  | .bounded .lower _ => object
  | .wildcard _ => object
  | ty => ty

end JavaType

end TypedMustache
