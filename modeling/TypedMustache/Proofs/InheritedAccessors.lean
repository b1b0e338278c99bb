import TypedMustache.ClassTable.Standard
import TypedMustache.Proofs.Lookup

/-! Accessors that an object inherits. A name is looked for in the object's class and then in
the types above it, and the search ends at the first type that declares anything of that name:
only then is it asked whether the member can be read. So a getter is found exactly if no type
before its own has another member of its name, such as an overload with parameters, a private
field or a constructor, that ends the search too early. Otherwise the name is there only if it
is read in another form. -/

namespace TypedMustache

open Outcome

namespace TypeSystem

variable {ts : TypeSystem} {name : String}

/-- The members of a name in the first of some types that declares any. -/
def nearestMembers (ts : TypeSystem) (name : String) : List String → List Member
  | [] => []
  | t :: rest =>
    if ts.membersNamed t name = [] then nearestMembers ts name rest else ts.membersNamed t name

theorem membersInHierarchy_eq (type name : String) :
    ts.membersInHierarchy type name = ts.nearestMembers name (type :: ts.ancestors type) := by
  unfold membersInHierarchy
  generalize type :: ts.ancestors type = types
  induction types with
  | nil => rfl
  | cons t rest ih =>
    cases hmembers : ts.membersNamed t name with
    | nil => simp [nearestMembers, hmembers, ih]
    | cons d ds => simp [nearestMembers, hmembers]

theorem nearestMembers_eq_nil {types : List String} :
    ts.nearestMembers name types = [] ↔ ∀ t ∈ types, ts.membersNamed t name = [] := by
  induction types with
  | nil => simp [nearestMembers]
  | cons t rest ih =>
    by_cases hmembers : ts.membersNamed t name = [] <;> simp [nearestMembers, hmembers, ih]

theorem exists_split_of_mem_nearestMembers {types : List String} {d : Member}
    (h : d ∈ ts.nearestMembers name types) : ∃ before t after, types = before ++ t :: after ∧
      (∀ t' ∈ before, ts.membersNamed t' name = []) ∧ d ∈ ts.membersNamed t name := by
  induction types with
  | nil => cases h
  | cons t rest ih =>
    by_cases hmembers : ts.membersNamed t name = []
    · rw [nearestMembers, if_pos hmembers] at h
      obtain ⟨before, t', after, rfl, hbefore, hd⟩ := ih h
      exact ⟨t :: before, t', after, rfl, List.forall_mem_cons.2 ⟨hmembers, hbefore⟩, hd⟩
    · rw [nearestMembers, if_neg hmembers] at h
      exact ⟨[], t, rest, rfl, List.forall_mem_nil _, h⟩

theorem exists_of_mem_nearestMembers {types : List String} {d : Member}
    (h : d ∈ ts.nearestMembers name types) : ∃ t ∈ types, d ∈ ts.membersNamed t name := by
  obtain ⟨before, t, after, rfl, -, hd⟩ := exists_split_of_mem_nearestMembers h
  exact ⟨t, by simp, hd⟩

theorem nearestMembers_append_of_eq_nil {before : List String}
    (h : ts.nearestMembers name before = []) (after : List String) :
    ts.nearestMembers name (before ++ after) = ts.nearestMembers name after := by
  induction before with
  | nil => rfl
  | cons t rest ih =>
    obtain ⟨ht, hrest⟩ := List.forall_mem_cons.1 (nearestMembers_eq_nil.1 h)
    rw [List.cons_append, nearestMembers, if_pos ht, ih (nearestMembers_eq_nil.2 hrest)]

theorem nearestMembers_append_of_ne_nil {before : List String}
    (h : ts.nearestMembers name before ≠ []) (after : List String) :
    ts.nearestMembers name (before ++ after) = ts.nearestMembers name before := by
  induction before with
  | nil => exact absurd rfl h
  | cons t rest ih =>
    rw [List.cons_append, nearestMembers, nearestMembers]
    by_cases hmembers : ts.membersNamed t name = []
    · rw [nearestMembers, if_pos hmembers] at h
      rw [if_pos hmembers, if_pos hmembers, ih h]
    · rw [if_neg hmembers, if_neg hmembers]

end TypeSystem

theorem AccessorForm.mem_all (form : AccessorForm) : form ∈ all := by
  cases form <;> decide

namespace Model

variable {m : Model}

theorem isUnchecked_iff {ty : JavaType} :
    m.isUnchecked ty = true ↔
      m.types.isSubtype ty (.declared "java.lang.Error") = true ∨
        m.types.isSubtype ty (.declared "java.lang.RuntimeException") = true := by
  simp [isUnchecked, className, Role.className]

/-- Whether a method can be read by its name alone from a value of type `ty`: it takes nothing,
throws nothing that has to be declared and returns something. -/
structure IsGetter (m : Model) (ty : JavaType) (d : Member) : Prop where
  kind : d.kind = .method
  arity : d.arity = 0
  isStatic : d.isStatic = false
  isPrivate : d.isPrivate = false
  throws : ∀ e ∈ d.throws, m.types.isSubtype e (.declared "java.lang.Error") = true ∨
    m.types.isSubtype e (.declared "java.lang.RuntimeException") = true
  type : m.types.asMemberOf ty d ≠ .primitive "void"

theorem IsGetter.all_isUnchecked {ty : JavaType} {d : Member} (h : m.IsGetter ty d) :
    d.throws.all m.isUnchecked = true :=
  List.all_eq_true.2 fun e he => isUnchecked_iff.2 (h.throws e he)

theorem IsGetter.acceptsMember {ty : JavaType} {d : Member} (h : m.IsGetter ty d)
    {form : AccessorForm} (hform : form = .get ∨ form = .plain) :
    m.acceptsMember form d = true ∧ form.acceptsType (m.types.asMemberOf ty d) = true := by
  rcases hform with rfl | rfl <;>
    simp [Model.acceptsMember, AccessorForm.acceptsType, Member.isAccessible, JavaType.void, h.kind,
      h.arity, h.isStatic, h.isPrivate, h.all_isUnchecked, h.type]

theorem isMethod_of_acceptsMember {form : AccessorForm} (hform : form ≠ .field) {d : Member}
    (h : m.acceptsMember form d = true) : d.kind = .method ∧ d.arity = 0 := by
  simp only [acceptsMember, if_neg hform, Bool.and_eq_true, decide_eq_true_eq] at h
  exact h.1.1

theorem accessorType?_isSome {owner name : String} {ty : JavaType} {form : AccessorForm} :
    (m.accessorType? owner ty name form).isSome = true ↔
      ∃ d ∈ m.types.membersInHierarchy owner (form.memberName name),
        m.acceptsMember form d = true ∧ form.acceptsType (m.types.asMemberOf ty d) = true := by
  simp [accessorType?, List.find?_isSome]

theorem findMember_isSome_iff {value : Expression} {owner name : String} {role : Role}
    (howner : value.type.baseName? = some owner)
    (hrole : m.resolve value.type = .ok (some (.object role))) (hmap : role ≠ .map) :
    (∃ found, m.findMember value name = .ok (some found)) ↔
      ∃ form, (m.accessorType? owner value.type name form).isSome = true := by
  have hty := effectiveType_of_isWildcard (JavaType.isWildcard_of_baseName? howner)
  have harray := JavaType.isArray_of_baseName? howner
  have hfind : m.findMember value name = .ok (m.accessor? value value.type name) := by
    simp only [findMember, hty, harray, hrole, ok_bind, Bool.false_eq_true, if_false]
    rfl
  simp only [hfind, Except.ok.injEq, ← Option.isSome_iff_exists, accessor?, howner,
    Option.bind_some, List.findSome?_isSome_iff, Option.isSome_map]
  exact exists_congr fun form => and_iff_right form.mem_all

section Getter

variable {owner name declaring : String} {ty : JavaType} {form : AccessorForm}
  {before after : List String} {d : Member}
  (horder : owner :: m.types.ancestors owner = before ++ declaring :: after)
include horder

/-- A getter is found if no type before its own has members of its name. -/
theorem accessorType?_isSome_of_nearest (hform : form = .get ∨ form = .plain)
    (hd : d ∈ m.types.membersNamed declaring (form.memberName name)) (hgetter : m.IsGetter ty d)
    (hbefore : ∀ t ∈ before, m.types.membersNamed t (form.memberName name) = []) :
    (m.accessorType? owner ty name form).isSome = true := by
  rw [accessorType?_isSome]
  refine ⟨d, ?_, hgetter.acceptsMember hform⟩
  have hnearest := TypeSystem.nearestMembers_eq_nil.2 hbefore
  rw [TypeSystem.membersInHierarchy_eq, horder,
    TypeSystem.nearestMembers_append_of_eq_nil hnearest, TypeSystem.nearestMembers,
    if_neg (List.ne_nil_of_mem hd)]
  exact hd

/-- A form that reads methods finds nothing if the first members of its name come before the
type that is meant and none of them is a method without parameters. -/
theorem accessorType?_isNone_of_hidden (hform : form ≠ .field)
    (hbefore : ∀ t ∈ before, ∀ e ∈ m.types.membersNamed t (form.memberName name),
      ¬(e.kind = .method ∧ e.arity = 0))
    (hhidden : ¬∀ t ∈ before, m.types.membersNamed t (form.memberName name) = []) :
    (m.accessorType? owner ty name form).isSome = false := by
  rw [← Bool.not_eq_true, accessorType?_isSome]
  rintro ⟨e, he, haccepts, -⟩
  have hnearest : m.types.nearestMembers (form.memberName name) before ≠ [] :=
    fun h => hhidden (TypeSystem.nearestMembers_eq_nil.1 h)
  rw [TypeSystem.membersInHierarchy_eq, horder,
    TypeSystem.nearestMembers_append_of_ne_nil hnearest] at he
  obtain ⟨t, ht, he⟩ := TypeSystem.exists_of_mem_nearestMembers he
  exact hbefore t ht e he (isMethod_of_acceptsMember hform haccepts)

end Getter

/-- A getter that the object's class or a type above it declares, and that no type before its own
overrides, is read exactly if no type before its own has any other member of its name, unless
the name is read in another form. -/
theorem findMember_isSome_iff_not_hidden {value : Expression} {owner name declaring : String}
    {role : Role} {form : AccessorForm} {before after : List String} {d : Member}
    (howner : value.type.baseName? = some owner)
    (hrole : m.resolve value.type = .ok (some (.object role))) (hmap : role ≠ .map)
    (hform : form = .get ∨ form = .plain)
    (horder : owner :: m.types.ancestors owner = before ++ declaring :: after)
    (hd : d ∈ m.types.membersNamed declaring (form.memberName name))
    (hgetter : m.IsGetter value.type d)
    (hbefore : ∀ t ∈ before, ∀ e ∈ m.types.membersNamed t (form.memberName name),
      ¬(e.kind = .method ∧ e.arity = 0)) :
    (∃ found, m.findMember value name = .ok (some found)) ↔
      (∀ t ∈ before, m.types.membersNamed t (form.memberName name) = []) ∨
        ∃ other ≠ form, (m.accessorType? owner value.type name other).isSome = true := by
  rw [findMember_isSome_iff howner hrole hmap]
  constructor
  · rintro ⟨other, hother⟩
    by_cases hsame : other = form
    · subst hsame
      left
      by_contra hhidden
      have hfield : other ≠ .field := by rcases hform with rfl | rfl <;> decide
      rw [accessorType?_isNone_of_hidden horder hfield hbefore hhidden] at hother
      cases hother
    · exact .inr ⟨other, hsame, hother⟩
  · rintro (hnearest | ⟨other, -, hother⟩)
    · exact ⟨form, accessorType?_isSome_of_nearest horder hform hd hgetter hnearest⟩
    · exact ⟨other, hother⟩

end Model

/-! ### A staff

A person has a name and a wage, which may not be there to be read. An employee has a name in a
language, too. -/

namespace Staff

def table : ClassTable :=
  (ClassTable.standard "stachec.runtime.Renderable").addClass "Person"
    |>.addMethod "Person" "getName" (.declared "java.lang.String")
    |>.addMethod "Person" "getWage" (.primitive "int") []
      [.declared "java.lang.Error", .declared "java.lang.RuntimeException"]
    |>.addClass "Clerk" (some (.declared "Person"))
    |>.addClass "Employee" (some (.declared "Person"))
    |>.addMethod "Employee" "getName" (.declared "java.lang.String")
      [("language", .declared "java.lang.String")]

def model : Model := { types := table.toTypeSystem }

def getName : Member :=
  { name := "getName", kind := .method, declaringType := "Person",
    type := .declared "java.lang.String", parameters := some [], modifiers := ["public"] }

def getWage : Member :=
  { name := "getWage", kind := .method, declaringType := "Person", type := .primitive "int",
    parameters := some [], modifiers := ["public"],
    throws := [.declared "java.lang.Error", .declared "java.lang.RuntimeException"] }

end Staff

namespace Model

/-- A clerk has the wage of a person. -/
theorem findMember_isSome_iff_not_hidden_clerk :
    Staff.model.resolve (.declared "Clerk") = .ok (some (.object .declared)) ∧
      "Clerk" :: Staff.model.types.ancestors "Clerk" =
        ["Clerk"] ++ "Person" :: ["java.lang.Object"] ∧
      Staff.getWage ∈ Staff.model.types.membersNamed "Person" (AccessorForm.get.memberName "wage") ∧
      Staff.model.IsGetter (.declared "Clerk") Staff.getWage ∧
      (∀ t ∈ ["Clerk"],
        Staff.model.types.membersNamed t (AccessorForm.get.memberName "wage") = []) ∧
      ∃ found,
        Staff.model.findMember ⟨"data", .declared "Clerk", []⟩ "wage" = .ok (some found) := by
  have hrole : Staff.model.resolve (.declared "Clerk") = .ok (some (.object .declared)) := by
    decide +kernel
  have horder : "Clerk" :: Staff.model.types.ancestors "Clerk" =
      ["Clerk"] ++ "Person" :: ["java.lang.Object"] := by
    decide +kernel
  have hd : Staff.getWage ∈
      Staff.model.types.membersNamed "Person" (AccessorForm.get.memberName "wage") := by
    decide +kernel
  have hgetter : Staff.model.IsGetter (.declared "Clerk") Staff.getWage :=
    ⟨rfl, rfl, by decide, by decide, by decide +kernel, by decide +kernel⟩
  have hnearest : ∀ t ∈ ["Clerk"],
      Staff.model.types.membersNamed t (AccessorForm.get.memberName "wage") = [] := by
    decide +kernel
  refine ⟨hrole, horder, hd, hgetter, hnearest, ?_⟩
  refine (findMember_isSome_iff_not_hidden rfl hrole (by decide) (.inl rfl) horder hd hgetter ?_).2
    (.inl hnearest)
  intro t ht e he
  rw [hnearest t ht] at he
  cases he

/-- An employee has no name, although a person has one and an employee overrides nothing: the
name in a language comes first. -/
theorem findMember_hidden_employee :
    Staff.model.resolve (.declared "Employee") = .ok (some (.object .declared)) ∧
      "Employee" :: Staff.model.types.ancestors "Employee" =
        ["Employee"] ++ "Person" :: ["java.lang.Object"] ∧
      Staff.getName ∈ Staff.model.types.membersNamed "Person" (AccessorForm.get.memberName "name") ∧
      Staff.model.IsGetter (.declared "Employee") Staff.getName ∧
      (∀ t ∈ ["Employee"],
        ∀ e ∈ Staff.model.types.membersNamed t (AccessorForm.get.memberName "name"),
          ¬(e.kind = .method ∧ e.arity = 0)) ∧
      Staff.model.findMember ⟨"data", .declared "Employee", []⟩ "name" = .ok none :=
  ⟨by decide +kernel, by decide +kernel, by decide +kernel,
    ⟨rfl, rfl, by decide, by decide, List.forall_mem_nil _, by decide +kernel⟩,
    by decide +kernel, by decide +kernel⟩

end Model

end TypedMustache
