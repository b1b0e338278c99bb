import TypedMustache.Proofs.Lookup
import TypedMustache.Proofs.WildcardPlaces

/-! The types of members on receivers with wildcard arguments. Declarations of a
well-formed type system have wildcards only where they may stand. What a receiver sees of
them has so, too, as long as no declaration exposes one of its parameters. -/

namespace TypedMustache

open Outcome JavaType

namespace TypeSystem

/-- The declared supertypes and the members' types have wildcards only where they may. -/
structure WellFormed (ts : TypeSystem) : Prop where
  supertypes : ∀ name, ∀ ty ∈ ts.directSupertypes name, ty.fits .elsewhere = true
  members : ∀ name, ∀ d ∈ ts.members name, d.type.fits .elsewhere = true

/-- No declared supertype and no member's type exposes a parameter of its declaration. -/
structure Unexposed (ts : TypeSystem) : Prop where
  supertypes : ∀ name, ∀ ty ∈ ts.directSupertypes name, ty.exposes (ts.parameterNames name) = false
  members : ∀ name, ∀ d ∈ ts.members name,
    d.type.exposes (ts.parameterNames d.declaringType) = false

variable {ts : TypeSystem}

/-- On the way up from a type every wildcard stays where it may stand. -/
theorem fits_supertypeWithin (hts : ts.WellFormed) (hexposes : ts.Unexposed) {target : String} :
    ∀ (steps : Nat) {ty found : JavaType}, ty.fits .argument = true →
      ts.supertypeWithin target steps ty = some found → found.fits .elsewhere = true
  | 0, _, _, _, h => by cases h
  | steps + 1, ty, found, hty, h => by
    obtain ⟨name, hname, ⟨-, rfl⟩ | ⟨sup, hsup, above, hfound, rfl⟩⟩ := supertypeWithin_cases h
    · exact fits_anywhere (isWildcard_of_baseName? hname) hty .elsewhere
    · obtain ⟨declared, hdeclared, rfl⟩ := List.mem_map.1 hsup
      have hargs := Substitution.arguments_ofParameters (ts.parameterNames name) (fitAll_args hty)
      have hfits := hargs.fits_apply (hts.supertypes name declared hdeclared)
        (hexposes.supertypes name declared hdeclared)
      split
      · exact fits_erasure above
      · exact fits_supertypeWithin hts hexposes steps hfits hfound

theorem fits_asSupertype (hts : ts.WellFormed) (hexposes : ts.Unexposed) {ty found : JavaType}
    {target : String} (hty : ty.fits .argument = true)
    (h : ts.asSupertype ty target = some found) : found.fits .elsewhere = true :=
  fits_supertypeWithin hts hexposes (maxChain + 1) hty h

theorem fits_asMemberOf (hts : ts.WellFormed) (hexposes : ts.Unexposed) {receiver : JavaType}
    {owner : String} {d : Member} (hreceiver : receiver.fits .argument = true)
    (hd : d ∈ ts.members owner) : (ts.asMemberOf receiver d).fits .argument = true := by
  have hmember := hts.members owner d hd
  unfold asMemberOf
  split
  · exact fits_argument hmember
  · exact fits_argument hmember
  · next base args hview _ =>
    have hview' := fits_asSupertype hts hexposes hreceiver hview
    have hargs := Substitution.arguments_ofParameters (ts.parameterNames d.declaringType)
      (fitAll_args hview')
    exact hargs.fits_apply hmember (hexposes.members owner d hd)
  · exact fits_argument (fits_erasure _)

end TypeSystem

/-- A table is a well-formed type system if all that is written in it is well-formed. -/
theorem ClassTable.wellFormed_toTypeSystem {t : ClassTable}
    (hsupertypes : ∀ entry ∈ t.supertypes, ∀ ty ∈ entry.2.all, ty.fits .elsewhere = true)
    (hmembers : ∀ d ∈ t.members, d.type.fits .elsewhere = true) :
    t.toTypeSystem.WellFormed where
  supertypes := forall_directSupertypes hsupertypes
  members := by
    intro name d hd
    exact hmembers d (List.mem_filter.1 hd).1

namespace Model

variable {m : Model}

/-- The argument at a place of the parameterization of a role that a type inherits. -/
def inherited? (m : Model) (ty : JavaType) (role : Role) (index : Nat) : Option JavaType :=
  (m.types.asSupertype ty (m.className role)).bind fun view => view.args[index]?

theorem typeArgument_eq (ty : JavaType) (role : Role) (index : Nat) :
    m.typeArgument ty role index =
      match m.inherited? ty role index with
      | none => .object
      | some arg => if arg.isWildcard then arg.upperBound?.getD .object else arg := rfl

theorem fits_typeArgument (hts : m.types.WellFormed) (hexposes : m.types.Unexposed)
    {ty : JavaType} (hty : ty.fits .argument = true) (role : Role) (index : Nat) :
    (m.typeArgument ty role index).fits .elsewhere = true := by
  rw [typeArgument_eq]
  cases h : m.inherited? ty role index with
  | none => rfl
  | some arg =>
    obtain ⟨view, hview, harg⟩ := Option.bind_eq_some_iff.1 h
    have hfits := fits_of_mem (fitAll_args (TypeSystem.fits_asSupertype hts hexposes hty hview))
      (List.mem_of_getElem? harg)
    cases hwildcard : arg.isWildcard with
    | false => simpa [hwildcard] using fits_anywhere hwildcard hfits .elsewhere
    | true =>
      simp only [hwildcard, if_true]
      cases hbound : arg.upperBound? with
      | none => rfl
      | some bound => exact fits_upperBound? hfits hbound

theorem fits_effectiveType {ty : JavaType} : ∀ {type : JavaType} {place : Place},
    type.fits place = true → effectiveType type = .ok ty → ty.fits .elsewhere = true
  | .bounded .upper bound, _, h, hty => by
    simp only [fits, Bool.and_eq_true] at h
    exact fits_effectiveType h.2 hty
  | .bounded .lower _, _, _, hty => by cases hty
  | .wildcard _, _, _, hty => by cases hty
  | .generic _ _, _, h, hty => by cases hty; exact h
  | .array _ _, _, h, hty => by cases hty; exact h
  | .primitive _, _, _, hty => by cases hty; rfl
  | .declared _, _, _, hty => by cases hty; rfl
  | .unknown, _, _, hty => by cases hty; rfl

theorem fits_findMember (hts : m.types.WellFormed) (hexposes : m.types.Unexposed)
    {value found : Expression} {name : String} (hvalue : value.type.fits .argument = true)
    (h : m.findMember value name = .ok (some found)) : found.type.fits .argument = true := by
  obtain ⟨ty, hty, hfound⟩ := findMember_cases h
  have hfits := fits_argument (fits_effectiveType hvalue hty)
  rcases hfound with ⟨-, -, rfl⟩ | ⟨role, -, rfl | haccessor⟩
  · rfl
  · exact fits_argument (fits_typeArgument hts hexposes hfits .map 1)
  · obtain ⟨form, owner, d, hd, -, -, rfl⟩ := accessor?_cases haccessor
    exact TypeSystem.fits_asMemberOf hts hexposes hfits hd

end Model

end TypedMustache
