import TypedMustache.Model.Member
import TypedMustache.Proofs.Outcome
import TypedMustache.Proofs.Subtyping

/-! What a name that is found on a value says about the value. Its type, read through the
upper bounds of wildcards, is an array, a map or another object, and never primitive: a
primitive type is below no declared one, so no object's capability fits it. -/

namespace TypedMustache

open Outcome

namespace TypeSystem

variable {ts : TypeSystem}

theorem exists_of_mem_membersInHierarchy {owner name : String} {d : Member}
    (h : d ∈ ts.membersInHierarchy owner name) :
    ∃ owner', d ∈ ts.members owner' ∧ d.name = name := by
  unfold membersInHierarchy at h
  generalize hresult : List.findSome? _ _ = result at h
  cases result with
  | none => cases h
  | some found =>
    obtain ⟨owner', -, howner'⟩ := List.exists_of_findSome?_eq_some hresult
    split at howner'
    · cases howner'
    · cases howner'
      exact ⟨owner', by simpa [membersNamed] using h⟩

end TypeSystem

namespace Model

variable {m : Model}

theorem isWildcard_of_effectiveType {ty : JavaType} :
    ∀ type : JavaType, effectiveType type = .ok ty → ty.isWildcard = false
  | .bounded .upper bound, h => isWildcard_of_effectiveType bound h
  | .bounded .lower _, h => by cases h
  | .wildcard _, h => by cases h
  | .primitive _, h => by cases h; rfl
  | .declared _, h => by cases h; rfl
  | .generic _ _, h => by cases h; rfl
  | .array _ _, h => by cases h; rfl
  | .unknown, h => by cases h; rfl

theorem effectiveType_of_isWildcard {ty : JavaType} (h : ty.isWildcard = false) :
    effectiveType ty = .ok ty := by
  cases ty with
  | wildcard side => cases h
  | bounded side bound => cases h
  | _ => rfl

theorem hasCapability_of_resolve {type : JavaType} {capability : Capability}
    (h : m.resolve type = .ok (some capability)) :
    ∃ ty, effectiveType type = .ok ty ∧ m.hasCapability ty capability = true := by
  obtain ⟨ty, hty, hfind⟩ := map_eq_ok.1 h
  exact ⟨ty, hty, List.find?_some hfind⟩

/-- The ways in which a name can be found on a value. -/
theorem findMember_cases {value found : Expression} {name : String}
    (h : m.findMember value name = .ok (some found)) :
    ∃ ty, effectiveType value.type = .ok ty ∧
      ((ty.isArray = true ∧ name = "length" ∧
          found = value.member (value.text ++ ".length") Scalar.int.type name) ∨
        (∃ role, m.resolve ty = .ok (some (.object role)) ∧
          (found = m.mapEntry value ty name ∨ m.accessor? value ty name = some found))) := by
  obtain ⟨ty, hty, h⟩ := bind_eq_ok.1 h
  refine ⟨ty, hty, ?_⟩
  cases harray : ty.isArray with
  | true =>
    simp only [harray, if_true] at h
    split at h
    · next hname =>
      cases h
      exact .inl ⟨rfl, hname, rfl⟩
    · cases h
  | false =>
    simp only [harray, Bool.false_eq_true, if_false] at h
    obtain ⟨capability, hcapability, h⟩ := bind_eq_ok.1 h
    right
    split at h
    · cases h
      exact ⟨.map, hcapability, .inl rfl⟩
    · next role _ =>
      exact ⟨role, hcapability, .inr (Except.ok.inj h)⟩
    · cases h

/-- An accessor reads a declared member in one of the forms. -/
theorem accessor?_cases {value found : Expression} {ty : JavaType} {name : String}
    (h : m.accessor? value ty name = some found) :
    ∃ form owner d, d ∈ m.types.members owner ∧ d.name = form.memberName name ∧
      m.acceptsMember form d = true ∧
      found = value.member (value.text ++ form.suffix name) (m.types.asMemberOf ty d) name := by
  obtain ⟨owner, -, h⟩ := Option.bind_eq_some_iff.1 h
  obtain ⟨form, -, h⟩ := List.exists_of_findSome?_eq_some h
  obtain ⟨type, htype, rfl⟩ := Option.map_eq_some_iff.1 h
  obtain ⟨d, hd, rfl⟩ := List.mem_map.1 (List.mem_of_find?_eq_some htype)
  obtain ⟨hmem, haccepts⟩ := List.mem_filter.1 hd
  obtain ⟨owner', howner', hname⟩ := TypeSystem.exists_of_mem_membersInHierarchy hmem
  exact ⟨form, owner', d, howner', hname, haccepts, rfl⟩

theorem isPrimitive_of_findMember {value found : Expression} {name : String} {ty : JavaType}
    (h : m.findMember value name = .ok (some found)) (hty : effectiveType value.type = .ok ty) :
    ty.isPrimitive = false := by
  obtain ⟨ty', hty', hfound⟩ := findMember_cases h
  obtain rfl : ty = ty' := Except.ok.inj (hty.symm.trans hty')
  cases ty with
  | primitive keyword =>
    rcases hfound with ⟨harray, -⟩ | ⟨role, hresolve, -⟩
    · cases harray
    · obtain ⟨ty, hty, hobject⟩ := hasCapability_of_resolve hresolve
      cases hty
      simp [hasCapability, TypeSystem.isSubtype_primitive_declared] at hobject
  | _ => rfl

end Model

end TypedMustache
