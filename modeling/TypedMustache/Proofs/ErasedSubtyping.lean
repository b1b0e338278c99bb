import TypedMustache.Proofs.Unparameterized

/-! Subtyping of parameterized types against subtyping of their erasures. Erasure goes along with
every way to be a subtype. A wildcard is told by its bound, and so is its erasure. An array is
told by its components, and the erasure of an array is an array of what erasure leaves of them. A
declared type is below a parameterized one only if it has a view of it, and then a chain of
supertypes leads to its name. What is lost are the arguments, which could only say no. -/

namespace TypedMustache

namespace JavaType

/-- Whether erasure leaves a type without arguments: nothing unknown is left, a parameterized
type is one of a declared type, and an array has a dimension and an element that is neither an
array nor a wildcard. -/
def HasErasure : JavaType → Prop
  | .generic base _ => ∃ name, base = .declared name
  | .array element dimensions =>
    1 ≤ dimensions ∧ element.isArray = false ∧ element.isWildcard = false ∧ HasErasure element
  | .bounded .upper bound => HasErasure bound
  | .unknown => False
  | _ => True

namespace HasErasure

theorem isArray_erasure {ty : JavaType} (h : ty.HasErasure) (hwildcard : ty.isWildcard = false) :
    ty.erasure.isArray = ty.isArray := by
  cases ty with
  | generic base args =>
    obtain ⟨name, rfl⟩ := h
    rfl
  | wildcard side => cases hwildcard
  | bounded side bound => cases hwildcard
  | _ => rfl

theorem isPrimitive_erasure {ty : JavaType} (h : ty.HasErasure)
    (hwildcard : ty.isWildcard = false) : ty.erasure.isPrimitive = ty.isPrimitive := by
  cases ty with
  | generic base args =>
    obtain ⟨name, rfl⟩ := h
    rfl
  | wildcard side => cases hwildcard
  | bounded side bound => cases hwildcard
  | _ => rfl

theorem unparameterized : ∀ ty : JavaType, ty.HasErasure → ty.erasure.Unparameterized
  | .primitive keyword, _ => .primitive keyword
  | .declared name, _ => .declared name
  | .generic _ _, ⟨name, hbase⟩ => hbase ▸ .declared name
  | .array element _, ⟨hdimensions, hflat, hwildcard, h⟩ =>
    unparameterized_array_iff.2
      ⟨hdimensions, (h.isArray_erasure hwildcard).trans hflat, unparameterized element h⟩
  | .wildcard _, _ => .declared objectName
  | .bounded .upper bound, h => unparameterized bound h
  | .bounded .lower _, _ => .declared objectName
  | .unknown, h => h.elim

theorem ne_unknown {ty : JavaType} (h : ty.HasErasure) : ty ≠ .unknown := by
  rintro rfl
  exact h

theorem exists_component {element : JavaType} {dimensions : Nat}
    (h : (array element dimensions).HasErasure) :
    ∃ component, (array element dimensions).component? = some component ∧ component.HasErasure ∧
      component.isWildcard = false ∧ component.size < (array element dimensions).size ∧
      (array element dimensions).erasure = component.erasure.deepen := by
  obtain ⟨hdimensions, hflat, hwildcard, helement⟩ := h
  match dimensions with
  | 1 =>
    have harray : element.erasure.isArray = false :=
      (helement.isArray_erasure hwildcard).trans hflat
    refine ⟨element, rfl, helement, hwildcard, by simp only [size]; omega, ?_⟩
    rw [erasure]
    cases herasure : element.erasure with
    | array inner n => rw [herasure] at harray; cases harray
    | _ => rfl
  | n + 2 =>
    exact ⟨array element (n + 1), rfl, ⟨Nat.succ_pos n, hflat, hwildcard, helement⟩, rfl,
      by simp only [size]; omega, rfl⟩

end HasErasure

end JavaType

open JavaType

namespace TypeSystem

variable {ts : TypeSystem}

/-- Arrays are below one another if they are arrays of the same or if what they are arrays of is
below one another and not primitive. -/
theorem Met.components {a b x y : JavaType} (h : ts.Met (.subtype a b))
    (ha : a.component? = some x) (hb : b.component? = some y) :
    x = y ∨ x.isPrimitive = false ∧ y.isPrimitive = false ∧ ts.Met (.subtype x y) := by
  cases hsame : a.sameType b with
  | true =>
    rw [eq_of_sameType hsame, hb] at ha
    exact .inl (Option.some.inj ha).symm
  | false =>
    have hpremises : ts.premises (.subtype a b) = _ := premises_arrays ha hb hsame
    split at hpremises
    · exact .inl (of_decide_eq_true (h.of_settled hpremises))
    · next hprimitive =>
      obtain ⟨hx, hy⟩ : x.isPrimitive = false ∧ y.isPrimitive = false := by simpa using hprimitive
      exact .inr ⟨hx, hy, h.of_premises hpremises⟩

theorem Met.declared_or_generic {a b : JavaType} {name : String} (h : ts.Met (.subtype a b))
    (ha : a.baseName? = some name) :
    (∃ target, b = .declared target) ∨ ∃ base args, b = .generic base args := by
  cases b with
  | declared target => exact .inl ⟨target, rfl⟩
  | generic base args => exact .inr ⟨base, args, rfl⟩
  | _ =>
    refine absurd ?_ h.ne_none
    cases a with
    | declared name => simp [premises, subtypePremises, sameType, declaredPremises]
    | generic base args => simp [premises, subtypePremises, sameType, declaredPremises]
    | _ => cases ha

section

variable (hts : ts.InheritsDeclared) (hknows : ts.KnowsSubtypes)
include hts hknows

theorem isSubtype_names_of_met {a b : JavaType} {name upper : String}
    (ha : a.baseName? = some name) (hb : b.baseName? = some upper) (h : ts.Met (.subtype a b)) :
    ts.isSubtype (.declared name) (.declared upper) = true := by
  by_cases hobject : b = .object
  · obtain rfl : upper = objectName := by
      rw [hobject] at hb
      exact (Option.some.inj hb).symm
    rw [isSubtype_declared rfl]
    exact h.of_settled (hobject ▸ premises_declared ha objectName)
  · obtain ⟨n, habove⟩ := hts.exists_above_of_met ha hb h hobject
    exact hknows.isSubtype_declared_of_above rfl rfl habove (isSubtype_self (.declared upper))

theorem isSubtype_erasure_of_baseName? {a b : JavaType} {name : String}
    (ha : a.baseName? = some name) (hb : b.HasErasure) (h : ts.Met (.subtype a b)) :
    ts.isSubtype a.erasure b.erasure = true := by
  obtain ⟨upper, hupper⟩ : ∃ upper, b.baseName? = some upper := by
    rcases h.declared_or_generic ha with ⟨target, rfl⟩ | ⟨base, args, rfl⟩
    · exact ⟨target, rfl⟩
    · obtain ⟨target, rfl⟩ := hb
      exact ⟨target, rfl⟩
  rw [erasure_of_baseName? a ha, erasure_of_baseName? b hupper]
  exact isSubtype_names_of_met hts hknows ha hupper h

/-- The erasure of what is below a type is below its erasure. -/
theorem isSubtype_erasure {a b : JavaType} (ha : a.HasErasure) (hb : b.HasErasure)
    (h : ts.Met (.subtype a b)) : ts.isSubtype a.erasure b.erasure = true := by
  have hobject (hpremises : ts.premises (.subtype a b) = settled (b = .object)) :
      ts.isSubtype .object b.erasure = true := by
    obtain rfl := of_decide_eq_true (h.of_settled hpremises)
    exact isSubtype_self (.declared objectName)
  cases a with
  | primitive small =>
    cases b with
    | primitive large =>
      exact (isSubtype_primitive_primitive small large).trans
        (h.of_settled (premises_primitive small large))
    | _ => exact absurd (by simp [premises, subtypePremises, sameType]) h.ne_none
  | declared name => exact isSubtype_erasure_of_baseName? hts hknows rfl hb h
  | generic base args =>
    obtain ⟨name, rfl⟩ := ha
    exact isSubtype_erasure_of_baseName? hts hknows rfl hb h
  | array element dimensions =>
    cases b with
    | declared target =>
      exact (isSubtype_array_declared element.erasure dimensions target).trans
        (h.of_settled (premises_array_declared element dimensions target))
    | array other n =>
      obtain ⟨x, hx, hxe, hxw, hsize, hax⟩ := ha.exists_component
      obtain ⟨y, hy, hye, hyw, -, hby⟩ := hb.exists_component
      rw [hax, hby, isSubtype_deepen_iff (hxe.unparameterized x) (hye.unparameterized y),
        hxe.isPrimitive_erasure hxw, hye.isPrimitive_erasure hyw]
      rcases h.components hx hy with rfl | ⟨hx', hy', hxy⟩
      · exact .inl rfl
      · exact .inr ⟨hx', hy', isSubtype_erasure hxe hye hxy⟩
    | _ => exact absurd (by simp [premises, subtypePremises, sameType, arrayPremises]) h.ne_none
  | wildcard side => exact hobject (premises_wildcard side b)
  | bounded side bound =>
    cases side with
    | lower => exact hobject (premises_bounded_lower bound b)
    | upper =>
      have hbound : bound.HasErasure := ha
      have hsize : bound.size < (bounded .upper bound).size := Nat.lt_succ_self bound.size
      have hmet : ts.Met (.subtype bound b) :=
        h.of_premises (premises_bounded_upper bound hb.ne_unknown)
      have hleft : ts.isSubtype bound.erasure b.erasure = true :=
        isSubtype_erasure hbound hb hmet
      exact hleft
  | unknown => exact ha.elim
  termination_by a.size

end

/-- Array lists of strings are collections of some kind of character sequences, and so are arrays
of them. -/
theorem isSubtype_erasure_lists :
    (ClassTable.standard "Renderable").toTypeSystem.InheritsDeclared ∧
      (ClassTable.standard "Renderable").toTypeSystem.KnowsSubtypes ∧
      (array (applied "java.util.ArrayList" [declared "java.lang.String"]) 1).HasErasure ∧
      (array (applied "java.util.Collection"
        [bounded .upper (declared "java.lang.CharSequence")]) 1).HasErasure ∧
      (ClassTable.standard "Renderable").toTypeSystem.Met
        (.subtype (array (applied "java.util.ArrayList" [declared "java.lang.String"]) 1)
          (array (applied "java.util.Collection"
            [bounded .upper (declared "java.lang.CharSequence")]) 1)) ∧
      (ClassTable.standard "Renderable").toTypeSystem.isSubtype
        (array (declared "java.util.ArrayList") 1) (array (declared "java.util.Collection") 1) =
          true := by
  have hts : (ClassTable.standard "Renderable").toTypeSystem.InheritsDeclared :=
    ClassTable.inheritsDeclared_toTypeSystem (by decide +kernel)
  have hknows : (ClassTable.standard "Renderable").toTypeSystem.KnowsSubtypes :=
    ClassTable.knowsSubtypes_toTypeSystem (by decide +kernel)
  have harray (name : String) (arg : JavaType) : (array (applied name [arg]) 1).HasErasure :=
    ⟨Nat.le_refl 1, rfl, rfl, name, rfl⟩
  have hbelow : (ClassTable.standard "Renderable").toTypeSystem.Met
      (.subtype (array (applied "java.util.ArrayList" [declared "java.lang.String"]) 1)
        (array (applied "java.util.Collection"
          [bounded .upper (declared "java.lang.CharSequence")]) 1)) :=
    met_of_isSubtype (by decide +kernel)
  exact ⟨hts, hknows, harray _ _, harray _ _, hbelow,
    isSubtype_erasure hts hknows (harray _ _) (harray _ _) hbelow⟩

end TypeSystem

end TypedMustache
