import TypedMustache.TypeSystem.Basic

/-! A type system that is written down: a table of declared types, their supertypes and
their members, built up one declaration at a time. -/

namespace TypedMustache

/-- The direct supertypes of one type. -/
structure Supertypes where
  superclass : Option JavaType := none
  interfaces : List JavaType := []

def Supertypes.all (s : Supertypes) : List JavaType := s.superclass.toList ++ s.interfaces

/-- Types and supertypes are kept latest first, and the latest entry of a name counts.
Members are kept in the order of their declaration. -/
structure ClassTable where
  types : List TypeInfo := []
  supertypes : List (String × Supertypes) := []
  members : List Member := []

namespace ClassTable

/-! ### Declaring -/

/-- Declares a type anew. What was said of its supertypes before is forgotten. -/
def declare (t : ClassTable) (kind : TypeKind) (name : String) (superclass : Option JavaType)
    (parameters : List String) : ClassTable :=
  { t with
    types := ⟨name, kind, ["public"], parameters.map (⟨·, []⟩)⟩ :: t.types
    supertypes := (name, { superclass }) :: t.supertypes }

/-- Every class but the root has a superclass. -/
def defaultSuperclass (name : String) : Option JavaType :=
  if name = JavaType.objectName then none else some .object

def addClass (t : ClassTable) (name : String) (superclass : Option JavaType := none)
    (parameters : List String := []) : ClassTable :=
  t.declare .ordinary name (superclass <|> defaultSuperclass name) parameters

def addInterface (t : ClassTable) (name : String) (parameters : List String := []) : ClassTable :=
  t.declare .interface name none parameters

/-- Declares an interface whose implementors render themselves in a format. -/
def addRenderable (t : ClassTable) (name : String) : ClassTable := t.addInterface name ["F"]

def supertypesOf (t : ClassTable) (name : String) : Supertypes := (t.supertypes.lookup name).getD {}

/-- Adds an interface to those of a type, which need not have been declared. -/
def implement (t : ClassTable) (name : String) (interface : JavaType) : ClassTable :=
  let s := t.supertypesOf name
  { t with
    supertypes := (name, { s with interfaces := s.interfaces ++ [interface] }) :: t.supertypes }

/-- Files a member under its declaring type. -/
def addMember (t : ClassTable) (m : Member) : ClassTable := { t with members := t.members ++ [m] }

/-- Adds a public instance field. -/
def addField (t : ClassTable) (owner name : String) (type : JavaType) : ClassTable :=
  t.addMember { name, kind := .field, declaringType := owner, type, modifiers := ["public"] }

/-- Adds a public instance method. -/
def addMethod (t : ClassTable) (owner name : String) (type : JavaType)
    (parameters : List (String × JavaType) := []) (throws : List JavaType := []) : ClassTable :=
  t.addMember
    { name, kind := .method, declaringType := owner, type, parameters := some parameters,
      modifiers := ["public"], throws }

/-! ### As a type system -/

theorem mem_of_lookup {α : Type} {name : String} {a : α} :
    ∀ {entries : List (String × α)}, entries.lookup name = some a → (name, a) ∈ entries
  | (key, b) :: rest, h => by
    rw [List.lookup_cons] at h
    by_cases hk : name = key
    · subst hk
      simp only [beq_self_eq_true, Option.some.injEq] at h
      simp [h]
    · rw [beq_false_of_ne hk] at h
      exact List.mem_cons_of_mem _ (mem_of_lookup h)

def toTypeSystem (t : ClassTable) : TypeSystem where
  typeInfo? name := t.types.find? (·.name = name)
  superclass? name := (t.supertypesOf name).superclass
  interfaces name := (t.supertypesOf name).interfaces
  members name := t.members.filter (·.declaringType = name)
  supertypeNames := t.supertypes.flatMap fun entry => entry.2.all.filterMap JavaType.baseName?
  mem_supertypeNames := by
    intro name ty hty base hbase
    rw [List.mem_flatMap]
    cases h : t.supertypes.lookup name with
    | none => simp [supertypesOf, h] at hty
    | some s =>
      refine ⟨(name, s), mem_of_lookup h, List.mem_filterMap.mpr ⟨ty, ?_, hbase⟩⟩
      simpa [supertypesOf, h, Supertypes.all] using hty

end ClassTable

end TypedMustache
