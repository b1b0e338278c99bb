import TypedMustache.ClassTable.Standard
import TypedMustache.Proofs.Settling
import TypedMustache.Proofs.WildcardPlaces

/-! Types that are subtypes of themselves. A type without wildcards is, since it is the same as
itself. A type with wildcards stands for no particular type and is not the same as any, so it
is taken apart: the components of arrays, the arguments of a parameterized type one by one, and
what bounds a wildcard. A wildcard lies within itself. An argument that is no wildcard lies within
the same type only, and so within itself only if there is no wildcard in it. -/

namespace TypedMustache

namespace JavaType

mutual

/-- Whether nothing in a type is unknown and all that have arguments are declared types. -/
def isNamed : JavaType → Bool
  | .generic (.declared _) args => allNamed args
  | .generic _ _ => false
  | .array element _ => isNamed element
  | .bounded _ bound => isNamed bound
  | .unknown => false
  | _ => true

def allNamed : List JavaType → Bool
  | [] => true
  | a :: as => isNamed a && allNamed as

end

mutual

/-- Whether some type argument in a type is no wildcard and has a wildcard in it. -/
def hidesWildcard : JavaType → Bool
  | .generic _ args => anyHidesWildcard args
  | .array element _ => hidesWildcard element
  | .bounded _ bound => hidesWildcard bound
  | _ => false

def anyHidesWildcard : List JavaType → Bool
  | [] => false
  | a :: as =>
    (if a.isWildcard then hidesWildcard a else a.hasWildcard) || anyHidesWildcard as

end

theorem isWildcard_of_hasWildcard {ty : JavaType} (h : ty.hasWildcard = false) :
    ty.isWildcard = false := by
  cases ty with
  | wildcard side => cases h
  | bounded side bound => cases h
  | _ => rfl

mutual

theorem hidesWildcard_of_hasWildcard : ∀ ty : JavaType, ty.hasWildcard = false →
    ty.hidesWildcard = false
  | .generic _ args, h => anyHidesWildcard_of_anyWildcard args h
  | .array element _, h => hidesWildcard_of_hasWildcard element h
  | .primitive _, _ => rfl
  | .declared _, _ => rfl
  | .unknown, _ => rfl

theorem anyHidesWildcard_of_anyWildcard : ∀ as : List JavaType, anyWildcard as = false →
    anyHidesWildcard as = false
  | [], _ => rfl
  | a :: as, h => by
    simp only [anyWildcard, Bool.or_eq_false_iff] at h
    simp [anyHidesWildcard, isWildcard_of_hasWildcard h.1, h.1,
      anyHidesWildcard_of_anyWildcard as h.2]

end

theorem isNamed_component? {ty component : JavaType} (h : ty.component? = some component) :
    component.isNamed = ty.isNamed := by
  cases ty with
  | array element dimensions => rcases dimensions with _ | _ | n <;> cases h <;> rfl
  | _ => cases h

theorem hidesWildcard_component? {ty component : JavaType} (h : ty.component? = some component) :
    component.hidesWildcard = ty.hidesWildcard := by
  cases ty with
  | array element dimensions => rcases dimensions with _ | _ | n <;> cases h <;> rfl
  | _ => cases h

theorem hasWildcard_component? {ty component : JavaType} (h : ty.component? = some component) :
    component.hasWildcard = ty.hasWildcard := by
  cases ty with
  | array element dimensions => rcases dimensions with _ | _ | n <;> cases h <;> rfl
  | _ => cases h

theorem ne_unknown_of_isNamed {ty : JavaType} (h : ty.isNamed = true) : ty ≠ .unknown := by
  rintro rfl
  cases h

end JavaType

open JavaType

namespace TypeSystem

variable {ts : TypeSystem}

theorem settle?_self_of_hasWildcard {ty : JavaType} (hnamed : ty.isNamed = true)
    (h : ty.hasWildcard = false) :
    ts.settle? (2 * ty.size) (.subtype ty ty) = some !ty.hidesWildcard := by
  have hsame : ty.sameType ty = true := by simp [sameType, h, ne_unknown_of_isNamed hnamed]
  have hpos := one_le_size ty
  rw [hidesWildcard_of_hasWildcard ty h]
  exact settle?_of_settled (premises_of_sameType hsame) (by omega)

theorem premises_self_generic {name : String} {args : List JavaType}
    (h : (generic (.declared name) args).hasWildcard = true) :
    ts.premises (.subtype (.generic (.declared name) args) (.generic (.declared name) args)) =
      some (List.zipWith Goal.within args args) := by
  have hsame : (generic (.declared name) args).sameType (.generic (.declared name) args) =
      false := by
    simp [sameType, h]
  have hview : ts.asSupertype (.generic (.declared name) args) name =
      some (.generic (.declared name) args) := asSupertype_self rfl
  rw [premises_of_baseName? rfl hsame (by simp)]
  simp only [declaredPremises, baseName?, Option.bind_some, hview, if_true]

theorem premises_self_array {ty component : JavaType} (hcomponent : ty.component? = some component)
    (h : ty.hasWildcard = true) :
    ts.premises (.subtype ty ty) = some [.subtype component component] := by
  have hsame : ty.sameType ty = false := by simp [sameType, h]
  have hprimitive : component.isPrimitive = false := by
    rw [← hasWildcard_component? hcomponent] at h
    cases component with
    | primitive keyword => cases h
    | _ => rfl
  simp [premises_arrays hcomponent hcomponent hsame, hprimitive]

theorem premises_within_self {arg : JavaType} (hnamed : arg.isNamed = true)
    (hwildcard : arg.isWildcard = false) :
    ts.premises (.within arg arg) = settled !arg.hasWildcard := by
  have hsame : arg.sameType arg = !arg.hasWildcard := by
    simp [sameType, ne_unknown_of_isNamed hnamed]
  cases arg with
  | wildcard side => cases hwildcard
  | bounded side bound => cases hwildcard
  | _ => exact congrArg settled hsame

mutual

/-- A question whether a type is a subtype of itself is nested no deeper than twice for each of
its parts. -/
theorem settle?_self (ty : JavaType) (hplace : ty.fits .elsewhere = true)
    (hnamed : ty.isNamed = true) :
    ts.settle? (2 * ty.size) (.subtype ty ty) = some !ty.hidesWildcard := by
  cases hwildcard : ty.hasWildcard with
  | false => exact settle?_self_of_hasWildcard hnamed hwildcard
  | true =>
    cases ty with
    | generic base args =>
      cases base with
      | declared name =>
        have hpremises : ts.premises (.subtype (.generic (.declared name) args)
            (.generic (.declared name) args)) = some (List.zipWith Goal.within args args) :=
          premises_self_generic hwildcard
        have hsize : sizes args < (generic (.declared name) args).size := by
          simp only [size]
          omega
        have hargs := settle?_within_all_self args (fitAll_args hplace) hnamed
        exact settle?_mono (settle?_of_premises hpremises hargs) (by omega)
      | _ => cases hnamed
    | array element dimensions =>
      have harray : (array element dimensions).isArray = true := rfl
      obtain ⟨x, hx⟩ := exists_component? harray
      have hpremises : ts.premises (.subtype (.array element dimensions)
          (.array element dimensions)) = some [.subtype x x] := premises_self_array hx hwildcard
      have hsize := size_component?_lt hx
      have hcomponents := settle?_self x (fits_component? hplace hx)
        ((isNamed_component? hx).trans hnamed)
      rw [hidesWildcard_component? hx] at hcomponents
      exact settle?_mono ((settle?_one_premise hpremises _).trans hcomponents) (by omega)
    | wildcard side => simp [fits] at hplace
    | bounded side bound => simp [fits] at hplace
    | _ => cases hwildcard
  termination_by 2 * ty.size

theorem settle?_within_self (arg : JavaType) (hplace : arg.fits .argument = true)
    (hnamed : arg.isNamed = true) :
    ts.settle? (2 * arg.size) (.within arg arg) =
      some !(if arg.isWildcard then arg.hidesWildcard else arg.hasWildcard) := by
  have hpos := one_le_size arg
  cases hwildcard : arg.isWildcard with
  | false => exact settle?_of_settled (premises_within_self hnamed hwildcard) (by omega)
  | true =>
    cases arg with
    | wildcard side =>
      have hwithin : ts.premises (.within (.wildcard side) (.wildcard side)) = settled true := rfl
      exact settle?_of_settled hwithin (by omega)
    | bounded side bound =>
      simp only [fits, decide_true, Bool.true_and] at hplace
      have hsize : bound.size < (bounded side bound).size := Nat.lt_succ_self bound.size
      have hbound := settle?_self bound hplace hnamed
      cases side with
      | upper =>
        have hwithin : ts.premises (.within (.bounded .upper bound) (.bounded .upper bound)) =
            some [.subtype (.bounded .upper bound) bound] := rfl
        have hknown : bound ≠ .unknown := ne_unknown_of_isNamed hnamed
        have hupper : ts.premises (.subtype (.bounded .upper bound) bound) =
            some [.subtype bound bound] := premises_bounded_upper bound hknown
        exact (settle?_one_premise hwithin _).trans ((settle?_one_premise hupper _).trans hbound)
      | lower =>
        have hwithin : ts.premises (.within (.bounded .lower bound) (.bounded .lower bound)) =
            some [.subtype bound bound] := rfl
        exact settle?_mono ((settle?_one_premise hwithin _).trans hbound) (by omega)
    | _ => cases hwildcard
  termination_by 2 * arg.size

theorem settle?_within_all_self (args : List JavaType) (hplace : fitAll args = true)
    (hnamed : allNamed args = true) :
    (List.zipWith Goal.within args args).allM (ts.settle? (2 * sizes args)) =
      some !anyHidesWildcard args := by
  cases args with
  | nil => rfl
  | cons a as =>
    simp only [fitAll, allNamed, Bool.and_eq_true] at hplace hnamed
    have hpos := one_le_size a
    have hsizes : sizes (a :: as) = a.size + sizes as := rfl
    have hhead := settle?_mono (settle?_within_self a hplace.1 hnamed.1)
      (show 2 * a.size ≤ 2 * sizes (a :: as) by omega)
    rw [List.zipWith_cons_cons, anyHidesWildcard]
    cases hhides : (if a.isWildcard then a.hidesWildcard else a.hasWildcard) with
    | false =>
      rw [hhides] at hhead
      rw [allM_cons_of_true hhead]
      exact allM_settle?_mono (settle?_within_all_self as hplace.2 hnamed.2) (by omega)
    | true =>
      rw [hhides] at hhead
      exact allM_cons_of_false hhead
  termination_by 2 * sizes args + 1

end

/-- A type is a subtype of itself exactly if no type argument in it is one that is no wildcard and
has a wildcard in it. -/
theorem isSubtype_self_eq {ty : JavaType} (hplace : ty.fits .elsewhere = true)
    (hnamed : ty.isNamed = true) : ts.isSubtype ty ty = !ty.hidesWildcard := by
  refine isSubtype_eq_of_settle? (settle?_self ty hplace hnamed) ?_
  unfold depthLimit
  omega

/-- A map from some kind of lists of strings to anything is a subtype of itself. -/
theorem isSubtype_self_eq_map :
    (applied "java.util.Map" [bounded .upper (applied "java.util.List"
      [declared "java.lang.String"]), wildcard .upper]).fits .elsewhere = true ∧
    (applied "java.util.Map" [bounded .upper (applied "java.util.List"
      [declared "java.lang.String"]), wildcard .upper]).isNamed = true ∧
    (ClassTable.standard "Renderable").toTypeSystem.isSubtype
      (applied "java.util.Map" [bounded .upper (applied "java.util.List"
        [declared "java.lang.String"]), wildcard .upper])
      (applied "java.util.Map" [bounded .upper (applied "java.util.List"
        [declared "java.lang.String"]), wildcard .upper]) = true := by
  have hplace : (applied "java.util.Map" [bounded .upper (applied "java.util.List"
      [declared "java.lang.String"]), wildcard .upper]).fits .elsewhere = true := by
    decide
  have hnamed : (applied "java.util.Map" [bounded .upper (applied "java.util.List"
      [declared "java.lang.String"]), wildcard .upper]).isNamed = true := by
    decide
  exact ⟨hplace, hnamed, isSubtype_self_eq hplace hnamed⟩

/-- A list of lists of anything is no subtype of itself, and a list of anything is. -/
theorem isSubtype_self_lists :
    (applied "java.util.List" [applied "java.util.List" [wildcard .upper]]).fits .elsewhere =
        true ∧
      (applied "java.util.List" [applied "java.util.List" [wildcard .upper]]).isNamed = true ∧
      (ClassTable.standard "Renderable").toTypeSystem.isSubtype
        (applied "java.util.List" [applied "java.util.List" [wildcard .upper]])
        (applied "java.util.List" [applied "java.util.List" [wildcard .upper]]) = false ∧
      (ClassTable.standard "Renderable").toTypeSystem.isSubtype
        (applied "java.util.List" [wildcard .upper])
        (applied "java.util.List" [wildcard .upper]) = true := by
  decide +kernel

end TypeSystem

end TypedMustache
