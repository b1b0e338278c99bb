import TypedMustache.Proofs.InheritedAccessors

/-! What is read where a name is found on an object. Each form of reading looks at the members of
its own name in the nearest type that declares any, and the first form to find one that it accepts
decides. So the expression calls a method without parameters or reads a field that the object's
class or a type above it declares, both open to a template, and no earlier form had anything to
read in the nearest type that declares its name. -/

namespace TypedMustache

open Outcome

/-- Whether the form reads the declaration from a value of type `ty`: a method that can be called
without more ado, for a truth value if the form asks for one, or a field. -/
def AccessorForm.Reads (m : Model) (ty : JavaType) (d : Member) : AccessorForm → Prop
  | .get => m.IsGetter ty d
  | .is => m.IsGetter ty d ∧ (m.types.asMemberOf ty d = .primitive "boolean" ∨
      m.types.asMemberOf ty d = .declared "java.lang.Boolean")
  | .plain => m.IsGetter ty d
  | .field => d.kind = .field ∧ d.isStatic = false ∧ d.isPrivate = false

theorem JavaType.isBoolean_iff {ty : JavaType} :
    ty.isBoolean = true ↔ ty = .primitive "boolean" ∨ ty = .declared "java.lang.Boolean" := by
  simp only [isBoolean, Bool.or_eq_true, decide_eq_true_eq]
  rfl

namespace Model

variable {m : Model}

theorem isGetter_iff {ty : JavaType} {d : Member} :
    m.IsGetter ty d ↔ (d.kind = .method ∧ d.arity = 0 ∧ d.isAccessible = true ∧
      d.throws.all m.isUnchecked = true) ∧ m.types.asMemberOf ty d ≠ .void := by
  constructor
  · rintro ⟨hkind, harity, hstatic, hprivate, hthrows, htype⟩
    simp only [Member.isAccessible, hstatic, hprivate, List.all_eq_true, isUnchecked_iff]
    exact ⟨⟨hkind, harity, rfl, hthrows⟩, htype⟩
  · rintro ⟨⟨hkind, harity, haccess, hthrows⟩, htype⟩
    simp only [Member.isAccessible, Bool.and_eq_true, Bool.not_eq_true'] at haccess
    simp only [List.all_eq_true, isUnchecked_iff] at hthrows
    exact ⟨hkind, harity, haccess.1, haccess.2, hthrows, htype⟩

theorem reads_iff {form : AccessorForm} {ty : JavaType} {d : Member} :
    form.Reads m ty d ↔
      m.acceptsMember form d = true ∧ form.acceptsType (m.types.asMemberOf ty d) = true := by
  cases form with
  | field =>
    simp [AccessorForm.Reads, acceptsMember, AccessorForm.acceptsType, Member.isAccessible]
  | _ =>
    simp [AccessorForm.Reads, isGetter_iff, acceptsMember, AccessorForm.acceptsType,
      JavaType.isBoolean_iff, and_assoc]

theorem accessorType?_eq_none_iff {owner name : String} {ty : JavaType} {form : AccessorForm} :
    m.accessorType? owner ty name form = none ↔
      ∀ d ∈ m.types.nearestMembers (form.memberName name) (owner :: m.types.ancestors owner),
        ¬form.Reads m ty d := by
  rw [← Option.not_isSome_iff_eq_none, accessorType?_isSome, TypeSystem.membersInHierarchy_eq]
  simp only [← reads_iff, not_exists, not_and]

theorem exists_reads_of_accessorType? {owner name : String} {ty type : JavaType}
    {form : AccessorForm} (h : m.accessorType? owner ty name form = some type) :
    ∃ d ∈ m.types.nearestMembers (form.memberName name) (owner :: m.types.ancestors owner),
      form.Reads m ty d ∧ type = m.types.asMemberOf ty d := by
  rw [accessorType?, TypeSystem.membersInHierarchy_eq] at h
  obtain ⟨d, hd, rfl⟩ := List.mem_map.1 (List.mem_of_find?_eq_some h)
  obtain ⟨hmem, haccepts⟩ := List.mem_filter.1 hd
  exact ⟨d, hmem, reads_iff.2 ⟨haccepts, List.find?_some h⟩, rfl⟩

theorem accessor?_eq_some {value found : Expression} {ty : JavaType} {name : String}
    (h : m.accessor? value ty name = some found) :
    ∃ owner earlier form later type, ty.baseName? = some owner ∧
      AccessorForm.all = earlier ++ form :: later ∧
      (∀ other ∈ earlier, m.accessorType? owner ty name other = none) ∧
      m.accessorType? owner ty name form = some type ∧
      found = value.member (value.text ++ form.suffix name) type name := by
  obtain ⟨owner, howner, h⟩ := Option.bind_eq_some_iff.1 h
  obtain ⟨earlier, form, later, hforms, hform, hearlier⟩ := List.findSome?_eq_some_iff.1 h
  obtain ⟨type, htype, rfl⟩ := Option.map_eq_some_iff.1 hform
  refine ⟨owner, earlier, form, later, type, howner, hforms, ?_, htype, rfl⟩
  exact fun other hother => Option.map_eq_none_iff.1 (hearlier other hother)

/-- A name is read from a value that is neither an array nor a map by an accessor. -/
theorem accessor?_of_findMember {value found : Expression} {name : String} {ty : JavaType}
    (hty : effectiveType value.type = .ok ty) (harray : ty.isArray = false)
    (hmap : m.resolve ty ≠ .ok (some (.object .map)))
    (h : m.findMember value name = .ok (some found)) :
    ∃ role, m.resolve ty = .ok (some (.object role)) ∧
      m.accessor? value ty name = some found := by
  simp only [findMember, hty, harray, ok_bind, Bool.false_eq_true, if_false] at h
  obtain ⟨capability, hcapability, h⟩ := bind_eq_ok.1 h
  split at h
  · exact absurd hcapability hmap
  · next role _ => exact ⟨role, hcapability, Except.ok.inj h⟩
  · cases h

theorem name_of_mem_membersNamed {ts : TypeSystem} {type name : String} {d : Member}
    (h : d ∈ ts.membersNamed type name) : d.name = name := by
  simpa using (List.mem_filter.1 h).2

theorem kind_eq_field_iff {form : AccessorForm} {ty : JavaType} {d : Member}
    (h : form.Reads m ty d) : d.kind = .field ↔ form = .field := by
  cases form with
  | get => simp [IsGetter.kind h]
  | is => simp [IsGetter.kind h.1]
  | plain => simp [IsGetter.kind h]
  | field => simp [h.1]

theorem suffix_of_reads {form : AccessorForm} {name : String} {ty : JavaType} {d : Member}
    (hname : d.name = form.memberName name) (h : form.Reads m ty d) :
    form.suffix name = "." ++ d.name ++ (if d.kind = .field then "" else "()") := by
  simp only [AccessorForm.suffix, hname, kind_eq_field_iff h]

/-- What is found on a value that is neither an array nor a map is read from an object. It is the
member of a form's name in the nearest type that declares any, and the form reads it. No form
before that one reads a member of its own name in the nearest type that declares any. -/
theorem findMember_reads_nearest {value found : Expression} {name : String} {ty : JavaType}
    (hty : effectiveType value.type = .ok ty) (harray : ty.isArray = false)
    (hmap : m.resolve ty ≠ .ok (some (.object .map)))
    (h : m.findMember value name = .ok (some found)) :
    (∃ role, m.resolve ty = .ok (some (.object role))) ∧
      ∃ owner earlier form later before declaring after d,
        ty.baseName? = some owner ∧ AccessorForm.all = earlier ++ form :: later ∧
        owner :: m.types.ancestors owner = before ++ declaring :: after ∧
        (∀ t ∈ before, m.types.membersNamed t (form.memberName name) = []) ∧
        d ∈ m.types.membersNamed declaring (form.memberName name) ∧ form.Reads m ty d ∧
        found.text = value.text ++ ("." ++ d.name ++ if d.kind = .field then "" else "()") ∧
        found.type = m.types.asMemberOf ty d ∧ found.path = value.path ++ [name] ∧
        ∀ other ∈ earlier,
          ∀ e ∈ m.types.nearestMembers (other.memberName name) (owner :: m.types.ancestors owner),
            ¬other.Reads m ty e := by
  obtain ⟨role, hrole, haccessor⟩ := accessor?_of_findMember hty harray hmap h
  refine ⟨⟨role, hrole⟩, ?_⟩
  obtain ⟨owner, earlier, form, later, type, howner, hforms, hearlier, htype, rfl⟩ :=
    accessor?_eq_some haccessor
  obtain ⟨d, hd, hreads, rfl⟩ := exists_reads_of_accessorType? htype
  obtain ⟨before, declaring, after, horder, hbefore, hd⟩ :=
    TypeSystem.exists_split_of_mem_nearestMembers hd
  have hname := name_of_mem_membersNamed hd
  refine ⟨owner, earlier, form, later, before, declaring, after, d, howner, hforms, horder,
    hbefore, hd, hreads, ?_, rfl, rfl, ?_⟩
  · exact congrArg (value.text ++ ·) (suffix_of_reads hname hreads)
  · exact fun other hother => accessorType?_eq_none_iff.1 (hearlier other hother)

/-- Whoever is a clerk has the wage of a person. -/
theorem findMember_reads_nearest_clerk :
    effectiveType (.bounded .upper (.declared "Clerk")) = .ok (.declared "Clerk") ∧
      (JavaType.declared "Clerk").isArray = false ∧
      Staff.model.resolve (.declared "Clerk") ≠ .ok (some (.object .map)) ∧
      Staff.model.findMember ⟨"data", .bounded .upper (.declared "Clerk"), ["person"]⟩ "wage" =
        .ok (some ⟨"data.getWage()", .primitive "int", ["person", "wage"]⟩) ∧
      ∃ (form : AccessorForm) (before after : List String) (declaring : String) (d : Member),
        "Clerk" :: Staff.model.types.ancestors "Clerk" = before ++ declaring :: after ∧
        d ∈ Staff.model.types.membersNamed declaring (form.memberName "wage") ∧
        form.Reads Staff.model (.declared "Clerk") d ∧
        "data.getWage()" = "data" ++ ("." ++ d.name ++ if d.kind = .field then "" else "()") := by
  have hrole : Staff.model.resolve (.declared "Clerk") ≠ .ok (some (.object .map)) := by
    decide +kernel
  have hfound : Staff.model.findMember
      ⟨"data", .bounded .upper (.declared "Clerk"), ["person"]⟩ "wage" =
        .ok (some ⟨"data.getWage()", .primitive "int", ["person", "wage"]⟩) := by
    decide +kernel
  obtain ⟨-, owner, -, form, -, before, declaring, after, d, howner, -, horder, -, hd, hreads,
    htext, -⟩ := findMember_reads_nearest rfl rfl hrole hfound
  obtain rfl : "Clerk" = owner := Option.some.inj howner
  exact ⟨rfl, rfl, hrole, hfound, form, before, after, declaring, d, horder, hd, hreads, htext⟩

end Model

end TypedMustache
