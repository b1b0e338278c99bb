import TypedMustache.Proofs.Erasure
import TypedMustache.Proofs.Settling

/-! Classification against subclassing. A declared type has the capabilities of its name, and
whatever its name inherits it hands down to the names below, so a subtype has all capabilities
that its supertype has. The first of them in the registry can only come earlier. One thing is
not handed down: every reference is below the class of all objects, whether a declaration says
so or not. If that class is generic and is itself what renders itself, then it is told by its
views, which only a chain of declarations leads to, and a reference without such a chain falls
behind. -/

namespace TypedMustache

open JavaType

namespace Capability

theorem idxOf_of_find? {p : Capability → Bool} {c : Capability} :
    ∀ {l : List Capability}, l.find? p = some c → l.idxOf c = l.findIdx p
  | d :: rest, h => by
    rw [List.idxOf_cons, List.findIdx_cons]
    cases hd : p d with
    | true =>
      rw [List.find?_cons_of_pos hd] at h
      obtain rfl := Option.some.inj h
      simp
    | false =>
      rw [List.find?_cons_of_neg (by simp [hd])] at h
      have hne : d ≠ c := by
        rintro rfl
        simp [List.find?_some h] at hd
      rw [beq_false_of_ne hne, idxOf_of_find? h]

/-- The place of an outcome of classification: the renderable interface comes first, then the
other capabilities in their order, and last that there is none. -/
def position : Option Capability → Nat
  | some c => registry.idxOf c
  | none => registry.length

theorem position_find? (p : Capability → Bool) :
    position (registry.find? p) = registry.findIdx p := by
  cases h : registry.find? p with
  | none =>
    have hnone : ∀ c ∈ registry, p c = false := by simpa using h
    exact (List.findIdx_eq_length_of_false hnone).symm
  | some c => exact idxOf_of_find? h

theorem position_find?_eq_zero {p : Capability → Bool} :
    position (registry.find? p) = 0 ↔ p .renderable = true := by
  rw [position_find?, registry, List.findIdx_cons]
  cases p .renderable <;> simp

end Capability

namespace TypeSystem

variable {ts : TypeSystem}

theorem inherits_iff {name target : String} :
    ts.inherits name target = true ↔ ∃ n, ts.Above n name target := by
  simp [inherits, ← eq_or_mem_ancestors_iff]

/-- Every name that is declared below another is known. -/
def KnowsSubtypes (ts : TypeSystem) : Prop :=
  ∀ name, ts.directSupertypes name ≠ [] → (ts.typeInfo? name).isSome = true

theorem KnowsSubtypes.isSubtype_declared_of_above (hts : ts.KnowsSubtypes) {a b : JavaType}
    {name upper target : String} {n : Nat} (ha : a.baseName? = some name)
    (hb : b.baseName? = some upper) (habove : ts.Above n name upper)
    (h : ts.isSubtype b (.declared target) = true) :
    ts.isSubtype a (.declared target) = true := by
  rw [isSubtype_declared hb] at h
  rw [isSubtype_declared ha]
  split at h
  · next hobject =>
    rw [if_pos hobject]
    cases habove with
    | refl => exact h
    | step hnext =>
      have hsupertypes : ts.directSupertypes name ≠ [] := by
        obtain ⟨sup, hsup, -⟩ := mem_directSupertypeNames.1 hnext
        exact List.ne_nil_of_mem hsup
      simp [hts name hsupertypes]
  · next hobject =>
    rw [if_neg hobject]
    obtain ⟨k, hrest⟩ := inherits_iff.1 h
    exact inherits_iff.2 ⟨n + k, habove.trans hrest⟩

theorem Met.asSupertype_isSome {a base : JavaType} {args : List JavaType} {name upper : String}
    (h : ts.Met (.subtype a (.generic base args))) (ha : a.baseName? = some name)
    (hb : (generic base args).baseName? = some upper) : (ts.asSupertype a upper).isSome = true := by
  have hbase : base.baseName? = some upper := hb
  cases hsame : a.sameType (.generic base args) with
  | true =>
    obtain rfl := eq_of_sameType hsame
    rw [asSupertype_self hb]
    rfl
  | false =>
    cases hview : ts.asSupertype a upper with
    | some view => rfl
    | none =>
      refine absurd ?_ h.ne_none
      rw [premises_of_baseName? ha hsame (by simp)]
      simp [declaredPremises, hbase, hview]

/-- A chain leads from a type to whatever it is below, but for the class of all objects. -/
theorem InheritsDeclared.exists_above_of_met (hts : ts.InheritsDeclared) {a b : JavaType}
    {name upper : String} (ha : a.baseName? = some name) (hb : b.baseName? = some upper)
    (h : ts.Met (.subtype a b)) (hobject : b ≠ .object) : ∃ n, ts.Above n name upper := by
  cases b with
  | declared target =>
    obtain rfl := Option.some.inj hb
    have hne : target ≠ objectName := fun heq => hobject (congrArg JavaType.declared heq)
    have hinherits := h.of_settled (premises_declared ha target)
    rw [if_neg hne] at hinherits
    exact inherits_iff.1 hinherits
  | generic base args =>
    obtain ⟨n, -, habove⟩ := (hts.asSupertype_isSome_iff ha upper).1 (h.asSupertype_isSome ha hb)
    exact ⟨n, habove⟩
  | _ => cases hb

end TypeSystem

namespace Model

variable {m : Model}

/-- What classification relies on: known names, chains that are not too long, uses of the
renderable interface that are raw or have an argument for every parameter, and a class of all
objects that has nothing above it. -/
structure Regular (m : Model) : Prop where
  inheritsDeclared : m.types.InheritsDeclared
  knowsSubtypes : m.types.KnowsSubtypes
  shallow : m.types.Shallow
  uses : ∀ name, ∀ sup ∈ m.types.directSupertypes name,
    m.types.UsesParameters (m.className .renderable) sup
  top : m.types.directSupertypes objectName = []

/-- Whether the renderable interface is the class of all objects, declared with parameters. -/
def RendersGenericObject (m : Model) : Prop :=
  m.className .renderable = objectName ∧ m.types.parameters objectName ≠ []

namespace Regular

variable (hm : m.Regular) {a b : JavaType} {name upper : String}
include hm

theorem hasCapability_renderable_iff
    (hparameters : m.types.parameters (m.className .renderable) ≠ [])
    (ha : a.baseName? = some name) (huse : m.types.UsesParameters (m.className .renderable) a) :
    m.hasCapability a .renderable = true ↔
      (m.types.asSupertype a (m.className .renderable)).isSome = true := by
  rw [hasCapability,
    hm.inheritsDeclared.isSubtype_genericType_eq_isSome hm.uses hparameters ha huse]

/-- Capabilities are handed down along chains. -/
theorem hasCapability_of_above {n : Nat} (ha : a.baseName? = some name)
    (hb : b.baseName? = some upper) (huse : m.types.UsesParameters (m.className .renderable) a)
    (habove : m.types.Above n name upper) {capability : Capability}
    (h : m.hasCapability b capability = true) : m.hasCapability a capability = true := by
  cases capability with
  | renderable =>
    by_cases hparameters : m.types.parameters (m.className .renderable) = []
    · simp only [hasCapability, TypeSystem.genericType_of_eq_nil hparameters] at h ⊢
      exact hm.knowsSubtypes.isSubtype_declared_of_above ha hb habove h
    · rw [hm.hasCapability_renderable_iff hparameters ha huse,
        hm.inheritsDeclared.asSupertype_isSome_of_shallow hm.shallow ha]
      rw [hasCapability, TypeSystem.genericType_of_ne_nil hparameters] at h
      have hview := (TypeSystem.met_of_isSubtype h).asSupertype_isSome hb rfl
      obtain ⟨k, -, hrest⟩ := (hm.inheritsDeclared.asSupertype_isSome_iff hb _).1 hview
      exact ⟨n + k, habove.trans hrest⟩
  | scalar kind isArray =>
    obtain rfl := eq_of_sameType h
    cases isArray <;> cases hb
  | object role => exact hm.knowsSubtypes.isSubtype_declared_of_above ha hb habove h

theorem eq_of_above_object {n : Nat} {target : String} (h : m.types.Above n objectName target) :
    target = objectName := by
  cases h with
  | refl => rfl
  | step hnext =>
    obtain ⟨sup, hsup, -⟩ := TypeSystem.mem_directSupertypeNames.1 hnext
    rw [hm.top] at hsup
    cases hsup

theorem isSubtype_object_declared {target : String}
    (h : m.types.isSubtype .object (.declared target) = true) : target = objectName := by
  rw [JavaType.object, TypeSystem.isSubtype_declared rfl] at h
  split at h
  · next hobject => exact hobject
  · obtain ⟨n, habove⟩ := TypeSystem.inherits_iff.1 h
    exact hm.eq_of_above_object habove

/-- A reference has what the class of all objects has. If that one is generic and renders
itself, this takes a view of it. -/
theorem hasCapability_of_object (ha : a.baseName? = some name)
    (huse : m.types.UsesParameters (m.className .renderable) a)
    (hbelow : m.types.isSubtype a .object = true)
    (hview : m.RendersGenericObject → m.types.asSupertype a objectName ≠ none)
    {capability : Capability} (h : m.hasCapability .object capability = true) :
    m.hasCapability a capability = true := by
  cases capability with
  | renderable =>
    by_cases hparameters : m.types.parameters (m.className .renderable) = []
    · simp only [hasCapability, TypeSystem.genericType_of_eq_nil hparameters] at h ⊢
      rwa [hm.isSubtype_object_declared h]
    · rw [hasCapability, TypeSystem.genericType_of_ne_nil hparameters] at h
      have hsome := (TypeSystem.met_of_isSubtype h).asSupertype_isSome rfl rfl
      obtain ⟨n, -, habove⟩ := (hm.inheritsDeclared.asSupertype_isSome_iff rfl _).1 hsome
      have hobject := hm.eq_of_above_object habove
      rw [hm.hasCapability_renderable_iff hparameters ha huse, hobject,
        Option.isSome_iff_ne_none]
      exact hview ⟨hobject, hobject ▸ hparameters⟩
  | scalar kind isArray =>
    have hscalar := eq_of_sameType h
    cases isArray <;> cases hscalar
  | object role =>
    simp only [hasCapability] at h ⊢
    rwa [hm.isSubtype_object_declared h]

theorem hasCapability_object_renderable (h : m.RendersGenericObject) :
    m.hasCapability .object .renderable = true := by
  obtain ⟨hobject, hparameters⟩ := h
  have huse : m.types.UsesParameters (m.className .renderable) .object := by
    intro _
    exact .inl (congrArg JavaType.declared hobject.symm)
  rw [hm.hasCapability_renderable_iff (hobject ▸ hparameters) rfl huse, hobject,
    TypeSystem.asSupertype_self rfl]
  rfl

end Regular

theorem resolve_of_baseName? {ty : JavaType} {name : String} (h : ty.baseName? = some name) :
    m.resolve ty = .ok (Capability.registry.find? (m.hasCapability ty)) := by
  rw [resolve, effectiveType_of_isWildcard (isWildcard_of_baseName? h)]
  rfl

/-- A subtype is classified no later in the registry than its supertype. The one exception is a
reference without a view of the class of all objects, where that class, used raw, is generic and
renders itself. -/
theorem position_resolve_le_iff (hm : m.Regular) {a b : JavaType} {name upper : String}
    (ha : a.baseName? = some name) (hb : b.baseName? = some upper)
    (huse : m.types.UsesParameters (m.className .renderable) a)
    (hbelow : m.types.Met (.subtype a b)) :
    ∃ lower higher, m.resolve a = .ok lower ∧ m.resolve b = .ok higher ∧
      (Capability.position lower ≤ Capability.position higher ↔
        ¬(m.RendersGenericObject ∧ b = .object ∧ m.types.asSupertype a objectName = none)) := by
  refine ⟨_, _, resolve_of_baseName? ha, resolve_of_baseName? hb, ?_⟩
  constructor
  · rintro hle ⟨hgeneric, rfl, hnone⟩
    have hfirst := Capability.position_find?_eq_zero.2 (hm.hasCapability_object_renderable hgeneric)
    rw [hfirst, Nat.le_zero, Capability.position_find?_eq_zero] at hle
    obtain ⟨hobject, hparameters⟩ := hgeneric
    rw [hm.hasCapability_renderable_iff (hobject ▸ hparameters) ha huse, hobject, hnone] at hle
    cases hle
  · intro hregular
    have hcapability : ∀ c ∈ Capability.registry, m.hasCapability b c = true →
        m.hasCapability a c = true := by
      intro c _ hc
      by_cases hobject : b = .object
      · subst hobject
        have hanswer : m.types.isSubtype a .object = true :=
          (TypeSystem.isSubtype_declared ha objectName).trans
            (hbelow.of_settled (TypeSystem.premises_declared ha objectName))
        exact hm.hasCapability_of_object ha huse hanswer
          (fun hgeneric hnone => hregular ⟨hgeneric, rfl, hnone⟩) hc
      · obtain ⟨n, habove⟩ := hm.inheritsDeclared.exists_above_of_met ha hb hbelow hobject
        exact hm.hasCapability_of_above ha hb huse habove hc
    rw [Capability.position_find?, Capability.position_find?]
    exact List.findIdx_le_findIdx hcapability

end Model

theorem ClassTable.knowsSubtypes_toTypeSystem {t : ClassTable}
    (h : ∀ entry ∈ t.supertypes, entry.1 ∈ t.types.map TypeInfo.name) :
    t.toTypeSystem.KnowsSubtypes := by
  intro name hsupertypes
  obtain ⟨ty, hty⟩ := List.exists_mem_of_ne_nil _ hsupertypes
  obtain ⟨s, hs, -⟩ := exists_of_mem_directSupertypes hty
  obtain ⟨info, hinfo, hname⟩ := List.mem_map.1 (h (name, s) hs)
  exact List.find?_isSome.2 ⟨info, hinfo, decide_eq_true hname⟩

namespace Badges

theorem regular : model.Regular where
  inheritsDeclared := inheritsDeclared
  knowsSubtypes := ClassTable.knowsSubtypes_toTypeSystem (by decide +kernel)
  shallow := ClassTable.shallow_toTypeSystem (table.types.reverse.map TypeInfo.name)
    (by decide +kernel) (by decide +kernel)
  uses := usesParameters
  top := by decide +kernel

end Badges

namespace Model

/-- A badge of a string renders itself, which is more than an object can do. -/
theorem position_resolve_le_iff_badge :
    Badges.model.Regular ∧
      (applied "Badge" [.declared "java.lang.String"]).baseName? = some "Badge" ∧
      JavaType.object.baseName? = some objectName ∧
      Badges.model.types.UsesParameters (Badges.model.className .renderable)
        (applied "Badge" [.declared "java.lang.String"]) ∧
      Badges.model.types.Met (.subtype (applied "Badge" [.declared "java.lang.String"]) .object) ∧
      ∃ lower higher,
        Badges.model.resolve (applied "Badge" [.declared "java.lang.String"]) = .ok lower ∧
        Badges.model.resolve .object = .ok higher ∧
        Capability.position lower ≤ Capability.position higher := by
  have hname : (applied "Badge" [.declared "java.lang.String"]).baseName? = some "Badge" := rfl
  have huse : Badges.model.types.UsesParameters (Badges.model.className .renderable)
      (applied "Badge" [.declared "java.lang.String"]) := fun h => by
    rw [hname] at h
    exact absurd h (by decide)
  have hbelow : Badges.model.types.Met
      (.subtype (applied "Badge" [.declared "java.lang.String"]) .object) :=
    TypeSystem.met_of_isSubtype (by decide +kernel)
  obtain ⟨lower, higher, hlower, hhigher, hle⟩ :=
    position_resolve_le_iff Badges.regular hname (rfl : JavaType.object.baseName? = _) huse hbelow
  have hobject : ¬Badges.model.RendersGenericObject := fun h => absurd h.1 (by decide)
  exact ⟨Badges.regular, hname, rfl, huse, hbelow, lower, higher, hlower, hhigher,
    hle.2 fun h => hobject h.1⟩

end Model

/-! ### Objects that render themselves

A generic class of all objects, configured as the renderable interface, and an interface, which
has no superclass. -/

namespace RenderableObjects

def table : ClassTable := (({} : ClassTable).addClass objectName none ["F"]).addInterface "Shape"

def model : Model where
  types := table.toTypeSystem
  config := { renderableInterface := objectName }

theorem directSupertypes_eq_nil (name : String) : model.types.directSupertypes name = [] := by
  by_contra hne
  obtain ⟨ty, hty⟩ := List.exists_mem_of_ne_nil _ hne
  have hnone : ∀ entry ∈ table.supertypes, ∀ ty ∈ entry.2.all, False := by decide +kernel
  exact ClassTable.forall_directSupertypes (P := fun _ _ => False) hnone name ty hty

theorem regular : model.Regular where
  inheritsDeclared := by
    intro name ty hty
    rw [directSupertypes_eq_nil] at hty
    cases hty
  knowsSubtypes := fun name h => absurd (directSupertypes_eq_nil name) h
  shallow := ClassTable.shallow_toTypeSystem [] (Nat.zero_le _) (by decide +kernel)
  uses := by
    intro name sup hsup
    rw [directSupertypes_eq_nil] at hsup
    cases hsup
  top := directSupertypes_eq_nil objectName

end RenderableObjects

namespace Model

/-- A shape is an object, and only objects that are said to be so render themselves. -/
theorem position_resolve_shape :
    RenderableObjects.model.Regular ∧
      (RenderableObjects.model.types.typeInfo? "Shape").isSome = true ∧
      (RenderableObjects.model.types.typeInfo? objectName).isSome = true ∧
      RenderableObjects.model.types.UsesParameters
        (RenderableObjects.model.className .renderable) (.declared "Shape") ∧
      RenderableObjects.model.types.isSubtype (.declared "Shape") .object = true ∧
      RenderableObjects.model.resolve (.declared "Shape") = .ok (some (.object .declared)) ∧
      RenderableObjects.model.resolve .object = .ok (some .renderable) ∧
      ¬Capability.position (some (.object .declared)) ≤ Capability.position (some .renderable) :=
  ⟨RenderableObjects.regular, by decide +kernel, by decide +kernel, fun h => absurd h (by decide),
    by decide +kernel, by decide +kernel, by decide +kernel, by decide⟩

end Model

end TypedMustache
