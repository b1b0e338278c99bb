import TypedMustache.Proofs.Lookup
import TypedMustache.Proofs.Variables
import TypedMustache.Proofs.Views

/-! What a type can do depends on its erasure. The arguments of a type can matter in one place
only, where it is compared to the renderable interface with every argument left open. A view of
the type as the interface meets that if it is raw or has as many arguments as the interface has
parameters, and views keep what the declared uses of the interface have. All other objects are
found by name, and an array is looked at through its element only if it might be the array of a
scalar. There erasure can go too far: what is left of a primitive type with arguments, which is
no scalar, is the scalar. -/

namespace TypedMustache

namespace JavaType

theorem sameType_scalarType {ty : JavaType} (kind : Scalar) (isArray : Bool) :
    ty.sameType (Capability.scalarType kind isArray) =
      decide (ty = Capability.scalarType kind isArray) := by
  apply sameType_eq_decide <;> cases isArray <;> simp [Capability.scalarType, Scalar.type,
    arrayOf, hasWildcard]

end JavaType

open JavaType

namespace TypeSystem

variable {ts : TypeSystem}

/-! ### Uses of a generic type -/

theorem genericType_of_eq_nil {name : String} (h : ts.parameters name = []) :
    ts.genericType name = .declared name := by
  rw [genericType, h]
  rfl

theorem genericType_of_ne_nil {name : String} (h : ts.parameters name ≠ []) :
    ts.genericType name = applied name ((ts.parameters name).map fun _ => .wildcard .upper) := by
  obtain ⟨p, ps, hps⟩ := List.exists_cons_of_ne_nil h
  rw [genericType, hps]
  rfl

/-- Whether a type, if it is a use of `name`, is raw or has an argument for every parameter. -/
def UsesParameters (ts : TypeSystem) (name : String) (ty : JavaType) : Prop :=
  ty.baseName? = some name → ty = .declared name ∨ ty.args.length = (ts.parameters name).length

theorem UsesParameters.apply {target : String} {s : Substitution} {ty : JavaType}
    (hty : ts.UsesParameters target ty) (h : ∀ name, ty = .declared name → s.get? name = none) :
    ts.UsesParameters target (s.apply ty) := by
  intro hname
  rw [Substitution.baseName?_apply h] at hname
  cases ty with
  | declared name => simpa [Substitution.apply, h name rfl] using hty hname
  | generic base args =>
    rcases hty hname with hraw | hlength
    · cases hraw
    · right
      rw [Substitution.apply, ← hlength]
      exact Substitution.length_applyAll args
  | _ => cases hname

section Views

variable {target : String} (hts : ts.InheritsDeclared)
  (huses : ∀ name, ∀ sup ∈ ts.directSupertypes name, ts.UsesParameters target sup)
include hts huses

theorem InheritsDeclared.usesParameters_supertypeWithin (steps : Nat) {ty view : JavaType}
    (hty : ts.UsesParameters target ty) (h : ts.supertypeWithin target steps ty = some view) :
    ts.UsesParameters target view := by
  induction steps generalizing ty view with
  | zero => cases h
  | succ steps ih =>
    obtain ⟨name, -, ⟨-, rfl⟩ | ⟨sup, hsup, found, hfound, rfl⟩⟩ := supertypeWithin_cases h
    · exact hty
    · obtain ⟨declared, hdeclared, rfl⟩ := List.mem_map.1 hsup
      split
      · -- above a raw type the view is erased, and so it is raw itself
        intro _
        exact .inl (erasure_of_baseName? found (baseName?_supertypeWithin steps hfound))
      · refine ih (UsesParameters.apply (huses name declared hdeclared) ?_) hfound
        exact hts.get?_eq_none hdeclared _

/-- What is below a generic type with all arguments left open is what has a view as it. -/
theorem InheritsDeclared.isSubtype_genericType_eq_isSome (hparameters : ts.parameters target ≠ [])
    {ty : JavaType} {name : String} (hname : ty.baseName? = some name)
    (hty : ts.UsesParameters target ty) :
    ts.isSubtype ty (ts.genericType target) = (ts.asSupertype ty target).isSome := by
  rw [genericType_of_ne_nil hparameters]
  refine isSubtype_applied_of_isUnbounded hname (by simp [isUnbounded]) (by simpa) ?_
  intro view hview
  have huse := hts.usesParameters_supertypeWithin huses _ hty hview
  simpa using huse (baseName?_supertypeWithin _ hview)

theorem InheritsDeclared.isSubtype_genericType {ty : JavaType} {name : String}
    (hname : ty.baseName? = some name) (hty : ts.UsesParameters target ty) :
    ts.isSubtype ty (ts.genericType target) =
      ts.isSubtype (.declared name) (ts.genericType target) := by
  have hraw : (JavaType.declared name).baseName? = some name := rfl
  by_cases hparameters : ts.parameters target = []
  · rw [genericType_of_eq_nil hparameters, isSubtype_declared hname, isSubtype_declared hraw]
  · have huse : ts.UsesParameters target (.declared name) :=
      fun h => .inl (congrArg JavaType.declared (Option.some.inj h))
    rw [hts.isSubtype_genericType_eq_isSome huses hparameters hname hty,
      hts.isSubtype_genericType_eq_isSome huses hparameters hraw huse,
      Bool.eq_iff_iff, hts.asSupertype_isSome_iff hname, hts.asSupertype_isSome_iff hraw]

end Views

end TypeSystem

namespace Model

variable {m : Model}

theorem resolve_eq_of_hasCapability {a b : JavaType} (ha : a.isWildcard = false)
    (hb : b.isWildcard = false)
    (h : ∀ capability, m.hasCapability a capability = m.hasCapability b capability) :
    m.resolve a = m.resolve b := by
  rw [resolve, resolve, effectiveType_of_isWildcard ha, effectiveType_of_isWildcard hb]
  exact congrArg (fun f => Except.ok (Capability.registry.find? f)) (funext h)

theorem hasCapability_of_baseName? (hts : m.types.InheritsDeclared)
    (huses : ∀ name, ∀ sup ∈ m.types.directSupertypes name,
      m.types.UsesParameters (m.className .renderable) sup)
    {ty : JavaType} {name : String} (hname : ty.baseName? = some name)
    (hty : m.types.UsesParameters (m.className .renderable) ty) (capability : Capability) :
    m.hasCapability ty capability = m.hasCapability (.declared name) capability := by
  cases capability with
  | renderable => exact hts.isSubtype_genericType huses hname hty
  | scalar kind isArray =>
    have hscalar (a : JavaType) (ha : a.baseName? = some name) :
        a ≠ Capability.scalarType kind isArray := by
      rintro rfl
      cases isArray <;> cases ha
    simp [hasCapability, sameType_scalarType, hscalar ty hname, hscalar (.declared name) rfl]
  | object role =>
    have hraw : (JavaType.declared name).baseName? = some name := rfl
    simp only [hasCapability]
    rw [TypeSystem.isSubtype_declared hname, TypeSystem.isSubtype_declared hraw]

theorem hasCapability_array {element other : JavaType} {dimensions : Nat}
    (hscalar : dimensions = 1 → ∀ kind : Scalar, element = kind.type ↔ other = kind.type)
    (capability : Capability) :
    m.hasCapability (.array element dimensions) capability =
      m.hasCapability (.array other dimensions) capability := by
  cases capability with
  | renderable =>
    simp only [hasCapability, TypeSystem.genericType, declaredWith]
    split
    · rw [TypeSystem.isSubtype_array_declared, TypeSystem.isSubtype_array_declared]
    · rw [applied, TypeSystem.isSubtype_array_generic, TypeSystem.isSubtype_array_generic]
  | scalar kind isArray =>
    simp only [hasCapability, sameType_scalarType, decide_eq_decide]
    cases isArray with
    | false => simp [Capability.scalarType, Scalar.type]
    | true =>
      have harray : Capability.scalarType kind true = .array kind.type 1 := rfl
      simp only [harray, array.injEq]
      exact ⟨fun h => ⟨(hscalar h.2 kind).1 h.1, h.2⟩, fun h => ⟨(hscalar h.2 kind).2 h.1, h.2⟩⟩
  | object role =>
    simp only [hasCapability, TypeSystem.isSubtype_array_declared]

/-- A type is resolved like its erasure. Every use of the renderable interface is raw or has an
argument for every parameter, and the type is a declared one or an array that erasure does not
make the array of a scalar. -/
theorem resolve_erasure (hts : m.types.InheritsDeclared)
    (huses : ∀ name, ∀ sup ∈ m.types.directSupertypes name,
      m.types.UsesParameters (m.className .renderable) sup)
    {ty : JavaType} (hty : m.types.UsesParameters (m.className .renderable) ty)
    (hform : (∃ name, ty.baseName? = some name) ∨
      ∃ element dimensions, ty = .array element dimensions ∧
        (dimensions = 1 → ∀ kind : Scalar, element.erasure = kind.type → element = kind.type)) :
    m.resolve ty = m.resolve ty.erasure := by
  rcases hform with ⟨name, hname⟩ | ⟨element, dimensions, rfl, hscalar⟩
  · rw [erasure_of_baseName? ty hname]
    exact resolve_eq_of_hasCapability (isWildcard_of_baseName? hname) rfl
      (hasCapability_of_baseName? hts huses hname hty)
  · have helement : dimensions = 1 →
        ∀ kind : Scalar, element = kind.type ↔ element.erasure = kind.type :=
      fun h kind => ⟨fun hkind => by rw [hkind]; rfl, hscalar h kind⟩
    exact resolve_eq_of_hasCapability rfl rfl (hasCapability_array helement)

end Model

/-! ### Badges

A generic class that renders itself for what it is a badge of. -/

namespace Badges

def renderable : String := ({} : Config).renderableInterface

def table : ClassTable :=
  ((ClassTable.standard renderable).addClass "Badge" none ["T"]).implement "Badge"
    (applied renderable [.declared "T"])

def model : Model := { types := table.toTypeSystem }

theorem inheritsDeclared : model.types.InheritsDeclared :=
  ClassTable.inheritsDeclared_toTypeSystem (by decide +kernel)

theorem usesParameters (name : String) (sup : JavaType)
    (h : sup ∈ model.types.directSupertypes name) : model.types.UsesParameters renderable sup := by
  have hall : ∀ entry ∈ table.supertypes, ∀ ty ∈ entry.2.all, ty.baseName? = some renderable →
      ty = .declared renderable ∨ ty.args.length = (model.types.parameters renderable).length := by
    decide +kernel
  exact ClassTable.forall_directSupertypes
    (P := fun _ ty => model.types.UsesParameters renderable ty) hall name sup h

end Badges

namespace Model

/-- A badge of a string renders itself, and so does a raw badge. -/
theorem resolve_erasure_badge :
    Badges.model.types.InheritsDeclared ∧
      (∀ name, ∀ sup ∈ Badges.model.types.directSupertypes name,
        Badges.model.types.UsesParameters (Badges.model.className .renderable) sup) ∧
      (applied "Badge" [.declared "java.lang.String"]).baseName? = some "Badge" ∧
      Badges.model.resolve (applied "Badge" [.declared "java.lang.String"]) =
        .ok (some .renderable) ∧
      Badges.model.resolve (.declared "Badge") = .ok (some .renderable) := by
  have hresolve : Badges.model.resolve (.declared "Badge") = .ok (some .renderable) := by
    decide +kernel
  have hname : (applied "Badge" [.declared "java.lang.String"]).baseName? = some "Badge" := rfl
  have huse : Badges.model.types.UsesParameters (Badges.model.className .renderable)
      (applied "Badge" [.declared "java.lang.String"]) := fun h => by
    rw [hname] at h
    exact absurd h (by decide)
  refine ⟨Badges.inheritsDeclared, Badges.usesParameters, hname, ?_, hresolve⟩
  rw [resolve_erasure Badges.inheritsDeclared Badges.usesParameters huse (.inl ⟨"Badge", hname⟩)]
  exact hresolve

/-- The model of a type system that knows nothing. -/
def empty : Model := { types := .empty }

/-- The array of a primitive type with arguments is the array of no scalar, and its erasure is. -/
theorem resolve_erasure_applied_primitive :
    empty.types.InheritsDeclared ∧
      (∀ name, ∀ sup ∈ empty.types.directSupertypes name,
        empty.types.UsesParameters (empty.className .renderable) sup) ∧
      empty.types.UsesParameters (empty.className .renderable)
        (.array (.generic (.primitive "int") []) 1) ∧
      empty.resolve (.array (.generic (.primitive "int") []) 1) = .ok (some (.object .declared)) ∧
      empty.resolve (JavaType.array (.generic (.primitive "int") []) 1).erasure =
        .ok (some (.scalar .int true)) := by
  refine ⟨?_, ?_, ?_, ?_, ?_⟩
  · intro name ty hty
    cases hty
  · intro name sup hsup
    cases hsup
  · intro hname
    cases hname
  · decide +kernel
  · decide +kernel

end Model

end TypedMustache
