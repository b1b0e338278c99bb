import TypedMustache.Proofs.Supertypes
import TypedMustache.TypeSystem.Subtyping

/-! Answers to questions of subtyping. Many questions are decided on the spot: a declared type is
below another by its name, and an array or a primitive type is below next to none. Against a
generic type with every argument left open there is a goal for each argument, and all of them
are met at once. -/

namespace TypedMustache

namespace JavaType

theorem one_le_size (ty : JavaType) : 1 ≤ ty.size := by
  cases ty <;> simp [size]

theorem eq_of_sameType {a b : JavaType} (h : a.sameType b = true) : a = b := by
  simp only [sameType, Bool.and_eq_true, beq_iff_eq] at h
  exact h.2

theorem sameType_eq_decide {a b : JavaType} (hwildcard : b.hasWildcard = false)
    (hknown : b ≠ .unknown) : a.sameType b = decide (a = b) := by
  by_cases h : a = b
  · subst h
    simp [sameType, hwildcard, hknown]
  · rw [decide_eq_false h, Bool.eq_false_iff]
    exact fun hsame => h (eq_of_sameType hsame)

end JavaType

open JavaType

namespace TypeSystem

variable {ts : TypeSystem}

/-! ### Questions and their premises -/

theorem isSubtype_of_premises_none {a b : JavaType} (h : ts.premises (.subtype a b) = none) :
    ts.isSubtype a b = false := by
  obtain ⟨depth, hdepth⟩ : ∃ depth, depthLimit a b = depth + 1 := ⟨_, rfl⟩
  simp [isSubtype, hdepth, settle?, h]

theorem isSubtype_of_premises_met {a b : JavaType} {goals : List Goal}
    (h : ts.premises (.subtype a b) = some goals)
    (hgoals : ∀ goal ∈ goals, ts.premises goal = some []) : ts.isSubtype a b = true := by
  obtain ⟨depth, hdepth⟩ : ∃ depth, depthLimit a b = depth + 2 := ⟨_, rfl⟩
  have hmet : ∀ goals : List Goal, (∀ goal ∈ goals, ts.premises goal = some []) →
      goals.allM (ts.settle? (depth + 1)) = some true := by
    intro goals hgoals
    induction goals with
    | nil => rfl
    | cons goal rest ih =>
      obtain ⟨hgoal, hrest⟩ := List.forall_mem_cons.1 hgoals
      rw [List.allM_cons, settle?, hgoal]
      exact ih hrest
  rw [isSubtype, hdepth, settle?, h]
  exact beq_iff_eq.2 (hmet goals hgoals)

theorem isSubtype_of_premises_settled {a b : JavaType} {holds : Bool}
    (h : ts.premises (.subtype a b) = settled holds) : ts.isSubtype a b = holds := by
  cases holds with
  | false => exact isSubtype_of_premises_none h
  | true => exact isSubtype_of_premises_met h (by simp)

theorem premises_of_baseName? {a b : JavaType} {name : String} (hname : a.baseName? = some name)
    (hsame : a.sameType b = false) (hknown : b ≠ .unknown) :
    ts.premises (.subtype a b) = ts.declaredPremises a b := by
  cases a with
  | declared name => simp [premises, subtypePremises, hsame, hknown]
  | generic base args => simp [premises, subtypePremises, hsame, hknown]
  | _ => cases hname

theorem premises_of_sameType {a b : JavaType} (hsame : a.sameType b = true) :
    ts.premises (.subtype a b) = settled true := by
  simp [premises, subtypePremises, hsame, settled]

theorem premises_wildcard (side : Side) (b : JavaType) :
    ts.premises (.subtype (.wildcard side) b) = settled (b = .object) := by
  by_cases hb : b = .unknown <;>
    simp [premises, subtypePremises, sameType, hasWildcard, hb, settled, object]

theorem premises_bounded_lower (bound b : JavaType) :
    ts.premises (.subtype (.bounded .lower bound) b) = settled (b = .object) := by
  by_cases hb : b = .unknown <;>
    simp [premises, subtypePremises, sameType, hasWildcard, hb, settled, object]

theorem premises_bounded_upper (bound : JavaType) {b : JavaType} (hb : b ≠ .unknown) :
    ts.premises (.subtype (.bounded .upper bound) b) = some [.subtype bound b] := by
  simp [premises, subtypePremises, sameType, hasWildcard, hb]

theorem premises_arrays {a b x y : JavaType} (ha : a.component? = some x)
    (hb : b.component? = some y) (hsame : a.sameType b = false) :
    ts.premises (.subtype a b) =
      if x.isPrimitive || y.isPrimitive then settled (x = y) else some [.subtype x y] := by
  cases a with
  | array e m =>
    cases b with
    | array f n => simp [premises, subtypePremises, hsame, arrayPremises, ha, hb]
    | _ => cases hb
  | _ => cases ha

theorem isKnown_eq {ty : JavaType} {name : String} (hname : ty.baseName? = some name) :
    ts.isKnown ty = (name = objectName || (ts.typeInfo? name).isSome) := by
  simp only [isKnown, hname]

/-! ### Declared types, arrays and primitive types -/

theorem premises_declared {ty : JavaType} {name : String} (hname : ty.baseName? = some name)
    (target : String) : ts.premises (.subtype ty (.declared target)) =
      settled (if target = objectName then name = objectName || (ts.typeInfo? name).isSome
        else ts.inherits name target) := by
  rw [← isKnown_eq hname]
  cases hsame : ty.sameType (.declared target) with
  | false =>
    rw [premises_of_baseName? hname hsame (by simp), declaredPremises]
    split <;> simp [hname]
  | true =>
    obtain rfl := eq_of_sameType hsame
    obtain rfl : target = name := Option.some.inj hname
    rw [premises_of_sameType hsame]
    split
    · next hobject => simp [isKnown, baseName?, hobject]
    · simp [inherits]

/-- A declared type is below another if its name is, and below the objects if it is known. -/
theorem isSubtype_declared {ty : JavaType} {name : String} (hname : ty.baseName? = some name)
    (target : String) :
    ts.isSubtype ty (.declared target) =
      if target = objectName then name = objectName || (ts.typeInfo? name).isSome
      else ts.inherits name target :=
  isSubtype_of_premises_settled (premises_declared hname target)

theorem premises_array_declared (element : JavaType) (dimensions : Nat) (target : String) :
    ts.premises (.subtype (.array element dimensions) (.declared target)) =
      settled (target = objectName || arrayInterfaces.contains target) := by
  simp [premises, subtypePremises, sameType, arrayPremises]

/-- An array is an object and little else, whatever its elements are. -/
theorem isSubtype_array_declared (element : JavaType) (dimensions : Nat) (target : String) :
    ts.isSubtype (.array element dimensions) (.declared target) =
      (target = objectName || arrayInterfaces.contains target) :=
  isSubtype_of_premises_settled (premises_array_declared element dimensions target)

theorem isSubtype_array_generic (element base : JavaType) (dimensions : Nat)
    (args : List JavaType) :
    ts.isSubtype (.array element dimensions) (.generic base args) = false := by
  apply isSubtype_of_premises_none
  simp [premises, subtypePremises, sameType, arrayPremises]

theorem isSubtype_primitive_declared (keyword name : String) :
    ts.isSubtype (.primitive keyword) (.declared name) = false := by
  apply isSubtype_of_premises_none
  simp [premises, subtypePremises, sameType]

/-! ### Open arguments -/

/-- An argument lies within any that is left open. -/
theorem premises_within_of_isUnbounded (arg : JavaType) {bound : JavaType}
    (h : bound.isUnbounded = true) : ts.premises (.within arg bound) = some [] := by
  cases bound with
  | wildcard side => rfl
  | _ => cases h

theorem anyWildcard_of_isUnbounded {ws : List JavaType} (hws : ∀ w ∈ ws, w.isUnbounded = true)
    (hne : ws ≠ []) : anyWildcard ws = true := by
  cases ws with
  | nil => exact absurd rfl hne
  | cons w ws =>
    have hw := hws w List.mem_cons_self
    cases w with
    | wildcard side => rfl
    | _ => cases hw

/-- A generic type with every argument left open is above what has a view as it that is raw or
has as many arguments. -/
theorem isSubtype_applied_of_isUnbounded {ty : JavaType} {name target : String} {ws : List JavaType}
    (hname : ty.baseName? = some name) (hws : ∀ w ∈ ws, w.isUnbounded = true) (hne : ws ≠ [])
    (hview : ∀ view, ts.asSupertype ty target = some view →
      view = .declared target ∨ view.args.length = ws.length) :
    ts.isSubtype ty (applied target ws) = (ts.asSupertype ty target).isSome := by
  have hsame : ty.sameType (applied target ws) = false := by
    simp [sameType, applied, hasWildcard, anyWildcard_of_isUnbounded hws hne]
  have hpremises : ts.premises (.subtype ty (applied target ws)) =
      ts.declaredPremises ty (applied target ws) :=
    premises_of_baseName? hname hsame (by simp [applied])
  cases hfound : ts.asSupertype ty target with
  | none =>
    apply isSubtype_of_premises_none
    rw [hpremises]
    simp [applied, declaredPremises, baseName?, hfound]
  | some view =>
    have hbase := baseName?_supertypeWithin _ hfound
    cases view with
    | declared raw =>
      apply isSubtype_of_premises_settled
      have hall : ws.all isUnbounded = true := List.all_eq_true.2 hws
      rw [hpremises]
      simp [applied, declaredPremises, baseName?, hfound, hall]
    | generic base own =>
      have hlength : own.length = ws.length := (hview _ hfound).resolve_left (by simp)
      have hgoals : ts.premises (.subtype ty (applied target ws)) =
          some (List.zipWith Goal.within own ws) := by
        rw [hpremises]
        simp [applied, declaredPremises, baseName?, hfound, hlength]
      refine isSubtype_of_premises_met hgoals ?_
      intro goal hgoal
      rw [← List.map_uncurry_zip_eq_zipWith] at hgoal
      obtain ⟨⟨arg, w⟩, hmem, rfl⟩ := List.mem_map.1 hgoal
      exact premises_within_of_isUnbounded arg (hws w (List.of_mem_zip hmem).2)
    | _ => cases hbase

end TypeSystem

end TypedMustache
