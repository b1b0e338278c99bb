import TypedMustache.Proofs.CollapsedArrays
import TypedMustache.Proofs.Settling
import TypedMustache.Proofs.Subclassing

/-! Types without arguments: primitive types, names and arrays of these. A question about two of
them leaves at most one premise, about the components of two arrays, so the answer for the arrays
is the answer for their components. Subtyping of such types is transitive. The names above a type
are above all below it, widening goes on, arrays take over what their components do, and above
the few names that all arrays are below there is nothing but the class of all objects. -/

namespace TypedMustache

namespace JavaType

/-- Primitive types, names and arrays of these. -/
inductive Unparameterized : JavaType → Prop where
  | primitive (keyword : String) : Unparameterized (.primitive keyword)
  | declared (name : String) : Unparameterized (.declared name)
  | arrayOf {component : JavaType} (h : Unparameterized component) :
    Unparameterized component.deepen

/-! ### Arrays and their components -/

theorem exists_deepen (component : JavaType) :
    ∃ element dimensions, component.deepen = .array element (dimensions + 1) := by
  cases component with
  | array element dimensions => exact ⟨element, dimensions, rfl⟩
  | _ => exact ⟨_, 0, rfl⟩

/-- An array has a dimension and an element that is no array if it is built up from the element
one dimension after the other. -/
theorem unparameterized_array_iff {element : JavaType} {dimensions : Nat} :
    (array element dimensions).Unparameterized ↔
      1 ≤ dimensions ∧ element.isArray = false ∧ element.Unparameterized := by
  constructor
  · intro h
    generalize hty : array element dimensions = ty at h
    induction h generalizing element dimensions with
    | primitive keyword => cases hty
    | declared name => cases hty
    | @arrayOf component h ih =>
      cases component with
      | array inner n =>
        obtain ⟨rfl, rfl⟩ := array.inj hty
        exact ⟨Nat.succ_pos n, (ih rfl).2⟩
      | _ =>
        obtain ⟨rfl, rfl⟩ := array.inj hty
        exact ⟨Nat.le_refl 1, rfl, h⟩
  · rintro ⟨hdimensions, hflat, h⟩
    obtain ⟨n, rfl⟩ : ∃ n, dimensions = n + 1 := Nat.exists_eq_add_of_le' hdimensions
    induction n with
    | zero =>
      have harray : array element 1 = element.deepen := by
        cases element with
        | array inner n => cases hflat
        | _ => rfl
      exact harray ▸ .arrayOf h
    | succ n ih => exact .arrayOf (ih (Nat.succ_pos n))

namespace Unparameterized

variable {ty other : JavaType}

theorem hasWildcard (h : ty.Unparameterized) : ty.hasWildcard = false := by
  induction h with
  | primitive keyword => rfl
  | declared name => rfl
  | @arrayOf component _ ih => cases component <;> exact ih

theorem ne_unknown (h : ty.Unparameterized) : ty ≠ .unknown := by
  cases h with
  | primitive keyword => nofun
  | declared name => nofun
  | @arrayOf component =>
    obtain ⟨element, dimensions, harray⟩ := exists_deepen component
    rw [harray]
    nofun

theorem sameType_self (h : ty.Unparameterized) : ty.sameType ty = true := by
  simp [sameType, h.hasWildcard, h.ne_unknown]

theorem isCollapsed (h : ty.Unparameterized) : ty.isCollapsed = true := by
  induction h with
  | primitive keyword => rfl
  | declared name => rfl
  | arrayOf _ ih => exact isCollapsed_deepen ih

theorem size_lt_deepen (ty : JavaType) : ty.size < ty.deepen.size := by
  cases ty with
  | array element dimensions => simp [JavaType.deepen, size]
  | _ => simp [JavaType.deepen, size]

end Unparameterized

end JavaType

open JavaType

namespace TypeSystem

variable {ts : TypeSystem}

/-! ### Answers for types without arguments -/

theorem widens_trans {small middle large : String} (h : widens small middle = true)
    (h' : widens middle large = true) : widens small large = true := by
  unfold widens at h
  split at h <;> simp at h
  all_goals grind [widens]

theorem isSubtype_self {ty : JavaType} (h : ty.Unparameterized) : ts.isSubtype ty ty = true :=
  isSubtype_of_premises_settled (premises_of_sameType h.sameType_self)

theorem premises_primitive (small large : String) :
    ts.premises (.subtype (.primitive small) (.primitive large)) =
      settled (small = large || widens small large) := by
  by_cases h : small = large
  · subst h
    simp [premises_of_sameType (Unparameterized.primitive small).sameType_self]
  · simp [premises, subtypePremises, sameType, h]

theorem isSubtype_primitive_primitive (small large : String) :
    ts.isSubtype (.primitive small) (.primitive large) = (small = large || widens small large) :=
  isSubtype_of_premises_settled (premises_primitive small large)

theorem exists_of_isSubtype_primitive {small : String} {b : JavaType} (hb : b.Unparameterized)
    (h : ts.isSubtype (.primitive small) b = true) : ∃ large, b = .primitive large := by
  cases hb with
  | primitive large => exact ⟨large, rfl⟩
  | declared name => rw [isSubtype_primitive_declared] at h; cases h
  | @arrayOf y =>
    obtain ⟨element, dimensions, harray⟩ := exists_deepen y
    rw [harray, isSubtype_of_premises_none] at h
    · cases h
    · simp [premises, subtypePremises, sameType]

theorem exists_of_isSubtype_declared {name : String} {b : JavaType} (hb : b.Unparameterized)
    (h : ts.isSubtype (.declared name) b = true) : ∃ target, b = .declared target := by
  cases hb with
  | primitive large =>
    rw [isSubtype_of_premises_none] at h
    · cases h
    · simp [premises, subtypePremises, sameType, declaredPremises]
  | declared target => exact ⟨target, rfl⟩
  | @arrayOf y =>
    obtain ⟨element, dimensions, harray⟩ := exists_deepen y
    rw [harray, isSubtype_of_premises_none] at h
    · cases h
    · simp [premises, subtypePremises, sameType, declaredPremises]

theorem isSubtype_deepen_primitive (component : JavaType) (keyword : String) :
    ts.isSubtype component.deepen (.primitive keyword) = false := by
  obtain ⟨element, dimensions, harray⟩ := exists_deepen component
  apply isSubtype_of_premises_none
  simp [harray, premises, subtypePremises, sameType, arrayPremises]

theorem isSubtype_deepen_declared (component : JavaType) (target : String) :
    ts.isSubtype component.deepen (.declared target) =
      (objectName :: arrayInterfaces).contains target := by
  obtain ⟨element, dimensions, harray⟩ := exists_deepen component
  rw [harray, isSubtype_array_declared, List.contains_cons]
  simp [beq_eq_decide]

/-! ### Arrays -/

theorem premises_deepen {x y : JavaType} (hx : x.Unparameterized) (hy : y.Unparameterized)
    (hne : x ≠ y) : ts.premises (.subtype x.deepen y.deepen) =
      if x.isPrimitive || y.isPrimitive then none else some [.subtype x y] := by
  have hx' := component?_deepen hx.isCollapsed
  have hy' := component?_deepen hy.isCollapsed
  have hdistinct : x.deepen ≠ y.deepen := by
    intro heq
    rw [heq, hy'] at hx'
    exact hne (Option.some.inj hx').symm
  have hsame : x.deepen.sameType y.deepen = false := by
    rw [sameType_eq_decide hy.arrayOf.hasWildcard hy.arrayOf.ne_unknown, decide_eq_false hdistinct]
  rw [premises_arrays hx' hy' hsame, decide_eq_false hne]
  rfl

/-- A question about types without arguments is decided on the spot or is about two arrays and
comes down to their components. -/
theorem premises_of_unparameterized {a b : JavaType} (ha : a.Unparameterized)
    (hb : b.Unparameterized) : (∃ holds, ts.premises (.subtype a b) = settled holds) ∨
      ∃ x y, a = x.deepen ∧ b = y.deepen ∧ x.Unparameterized ∧ y.Unparameterized ∧
        ts.premises (.subtype a b) = some [.subtype x y] := by
  by_cases heq : a = b
  · exact .inl ⟨true, premises_of_sameType (heq ▸ ha.sameType_self)⟩
  have hsame : a.sameType b = false := by
    rw [sameType_eq_decide hb.hasWildcard hb.ne_unknown, decide_eq_false heq]
  have hunknown := hb.ne_unknown
  cases ha with
  | primitive small =>
    left
    cases b with
    | primitive large => exact ⟨widens small large, by simp [premises, subtypePremises, hsame]⟩
    | _ => exact ⟨false, by simp [premises, subtypePremises, hsame, settled]⟩
  | declared name =>
    left
    cases hb with
    | primitive keyword =>
      exact ⟨false, by rw [premises_of_baseName? rfl hsame hunknown]; rfl⟩
    | declared target => exact ⟨_, premises_declared rfl target⟩
    | @arrayOf y =>
      obtain ⟨element, dimensions, harray⟩ := exists_deepen y
      exact ⟨false, by rw [premises_of_baseName? rfl hsame hunknown, harray]; rfl⟩
  | @arrayOf x hx =>
    obtain ⟨element, dimensions, harray⟩ := exists_deepen x
    cases hb with
    | primitive keyword =>
      left
      exact ⟨false, by simp [harray, premises, subtypePremises, sameType, arrayPremises, settled]⟩
    | declared target =>
      exact .inl ⟨_, harray ▸ premises_array_declared element dimensions.succ target⟩
    | @arrayOf y hy =>
      have hne : x ≠ y := fun hxy => heq (congrArg JavaType.deepen hxy)
      rw [premises_deepen hx hy hne]
      split
      · exact .inl ⟨false, rfl⟩
      · exact .inr ⟨x, y, rfl, rfl, hx, hy, rfl⟩

theorem exists_settle?_of_unparameterized {a b : JavaType} (ha : a.Unparameterized)
    (hb : b.Unparameterized) : ∃ holds, ts.settle? a.size (.subtype a b) = some holds := by
  rcases premises_of_unparameterized ha hb with ⟨holds, h⟩ | ⟨x, y, hax, -, hx, hy, h⟩
  · exact ⟨holds, settle?_of_settled h (one_le_size a)⟩
  · have hsize : x.size < a.size := hax ▸ Unparameterized.size_lt_deepen x
    obtain ⟨holds, hholds⟩ := exists_settle?_of_unparameterized hx hy
    exact ⟨holds, settle?_mono ((settle?_one_premise h _).trans hholds) hsize⟩
  termination_by a.size

/-- An array is below another if its components are. Arrays of primitive types are below no
others. -/
theorem isSubtype_deepen_iff {x y : JavaType} (hx : x.Unparameterized) (hy : y.Unparameterized) :
    ts.isSubtype x.deepen y.deepen = true ↔
      x = y ∨ x.isPrimitive = false ∧ y.isPrimitive = false ∧ ts.isSubtype x y = true := by
  by_cases heq : x = y
  · simp [heq, isSubtype_self hy.arrayOf]
  · have hpremises : ts.premises _ = _ := premises_deepen hx hy heq
    by_cases hprimitive : (x.isPrimitive || y.isPrimitive) = true
    · rw [if_pos hprimitive] at hpremises
      rw [isSubtype_of_premises_none hpremises]
      rw [Bool.or_eq_true] at hprimitive
      rcases hprimitive with h | h <;> simp [heq, h]
    · rw [if_neg hprimitive] at hpremises
      obtain ⟨hx', hy'⟩ : x.isPrimitive = false ∧ y.isPrimitive = false := by
        simpa using hprimitive
      obtain ⟨holds, hholds⟩ : ∃ holds, ts.settle? x.size (.subtype x y) = some holds :=
        exists_settle?_of_unparameterized hx hy
      have hcomponents : ts.isSubtype x y = holds :=
        isSubtype_eq_of_settle? hholds (by unfold depthLimit; omega)
      have harrays : ts.isSubtype x.deepen y.deepen = holds := by
        refine isSubtype_eq_of_settle? ((settle?_one_premise hpremises _).trans hholds) ?_
        have hsize := Unparameterized.size_lt_deepen x
        unfold depthLimit
        omega
      simp [heq, hx', hy', hcomponents, harrays]

/-! ### Transitivity -/

/-- Whether nothing but the class of all objects is declared above it and above the other types
that all arrays are below. -/
def FlatTop (ts : TypeSystem) : Prop :=
  ∀ name ∈ objectName :: arrayInterfaces, ∀ next ∈ ts.directSupertypeNames name, next = objectName

theorem FlatTop.eq_or_object_of_above (hts : ts.FlatTop) {name target : String} {n : Nat}
    (hname : name ∈ objectName :: arrayInterfaces) (h : ts.Above n name target) :
    target = name ∨ target = objectName := by
  induction h with
  | refl name => exact .inl rfl
  | step hnext _ ih =>
    obtain rfl := hts _ hname _ hnext
    exact .inr ((ih List.mem_cons_self).elim id id)

/-- Above what all arrays are below there is the class of all objects and nothing else. -/
theorem FlatTop.eq_or_object_of_isSubtype (hts : ts.FlatTop) {name target : String}
    (hname : name ∈ objectName :: arrayInterfaces)
    (h : ts.isSubtype (.declared name) (.declared target) = true) :
    target = name ∨ target = objectName := by
  rw [isSubtype_declared rfl] at h
  split at h
  · next hobject => exact .inr hobject
  · obtain ⟨n, habove⟩ := inherits_iff.1 h
    exact hts.eq_or_object_of_above hname habove

section

variable (hknows : ts.KnowsSubtypes) (htop : ts.FlatTop)
include hknows htop

theorem isSubtype_trans_declared {name middle target : String}
    (h : ts.isSubtype (.declared name) (.declared middle) = true)
    (h' : ts.isSubtype (.declared middle) (.declared target) = true) :
    ts.isSubtype (.declared name) (.declared target) = true := by
  by_cases hmiddle : middle = objectName
  · -- being an object is no matter of chains, and so nothing else can follow from it
    subst hmiddle
    obtain rfl : target = objectName :=
      (htop.eq_or_object_of_isSubtype List.mem_cons_self h').elim id id
    exact h
  · rw [isSubtype_declared rfl, if_neg hmiddle] at h
    obtain ⟨n, habove⟩ := inherits_iff.1 h
    exact hknows.isSubtype_declared_of_above rfl rfl habove h'

/-- Subtyping of types without arguments is transitive. -/
theorem isSubtype_trans {a b c : JavaType} (ha : a.Unparameterized) (hb : b.Unparameterized)
    (hc : c.Unparameterized) (hab : ts.isSubtype a b = true) (hbc : ts.isSubtype b c = true) :
    ts.isSubtype a c = true := by
  induction ha generalizing b c with
  | primitive small =>
    obtain ⟨middle, rfl⟩ := exists_of_isSubtype_primitive hb hab
    obtain ⟨large, rfl⟩ := exists_of_isSubtype_primitive hc hbc
    simp only [isSubtype_primitive_primitive, Bool.or_eq_true, decide_eq_true_eq] at hab hbc ⊢
    rcases hab with rfl | hab
    · exact hbc
    · rcases hbc with rfl | hbc
      · exact .inr hab
      · exact .inr (widens_trans hab hbc)
  | declared name =>
    obtain ⟨middle, rfl⟩ := exists_of_isSubtype_declared hb hab
    obtain ⟨target, rfl⟩ := exists_of_isSubtype_declared hc hbc
    exact isSubtype_trans_declared hknows htop hab hbc
  | @arrayOf x hx ih =>
    cases hb with
    | primitive keyword => rw [isSubtype_deepen_primitive] at hab; cases hab
    | declared middle =>
      obtain ⟨target, rfl⟩ := exists_of_isSubtype_declared hc hbc
      rw [isSubtype_deepen_declared, List.contains_iff_mem] at hab ⊢
      rcases htop.eq_or_object_of_isSubtype hab hbc with rfl | rfl
      · exact hab
      · exact List.mem_cons_self
    | @arrayOf y hy =>
      cases hc with
      | primitive keyword => rw [isSubtype_deepen_primitive] at hbc; cases hbc
      | declared target => rwa [isSubtype_deepen_declared] at hbc ⊢
      | @arrayOf z hz =>
        rw [isSubtype_deepen_iff hx hy] at hab
        rw [isSubtype_deepen_iff hy hz] at hbc
        rw [isSubtype_deepen_iff hx hz]
        rcases hab with rfl | ⟨hx', hy', hab⟩
        · exact hbc
        · rcases hbc with rfl | ⟨-, hz', hbc⟩
          · exact .inr ⟨hx', hy', hab⟩
          · exact .inr ⟨hx', hz', ih hy hz hab hbc⟩

end

/-- A matrix of strings is a matrix of character sequences, which is an array of objects. -/
theorem isSubtype_trans_matrix :
    (ClassTable.standard "Renderable").toTypeSystem.KnowsSubtypes ∧
      (ClassTable.standard "Renderable").toTypeSystem.FlatTop ∧
      (array (declared "java.lang.String") 2).Unparameterized ∧
      (array (declared "java.lang.CharSequence") 2).Unparameterized ∧
      (array object 1).Unparameterized ∧
      (ClassTable.standard "Renderable").toTypeSystem.isSubtype
        (array (declared "java.lang.String") 2) (array (declared "java.lang.CharSequence") 2) =
          true ∧
      (ClassTable.standard "Renderable").toTypeSystem.isSubtype
        (array (declared "java.lang.CharSequence") 2) (array object 1) = true ∧
      (ClassTable.standard "Renderable").toTypeSystem.isSubtype
        (array (declared "java.lang.String") 2) (array object 1) = true := by
  have hknows : (ClassTable.standard "Renderable").toTypeSystem.KnowsSubtypes :=
    ClassTable.knowsSubtypes_toTypeSystem (by decide +kernel)
  have htop : (ClassTable.standard "Renderable").toTypeSystem.FlatTop := by
    unfold FlatTop
    decide +kernel
  have hmatrix (name : String) : (array (declared name) 2).Unparameterized :=
    .arrayOf (.arrayOf (.declared name))
  have hobjects : (array object 1).Unparameterized := .arrayOf (.declared objectName)
  have hstrings : (ClassTable.standard "Renderable").toTypeSystem.isSubtype
      (array (declared "java.lang.String") 2) (array (declared "java.lang.CharSequence") 2) =
        true := by
    decide +kernel
  have hsequences : (ClassTable.standard "Renderable").toTypeSystem.isSubtype
      (array (declared "java.lang.CharSequence") 2) (array object 1) = true := by
    decide +kernel
  exact ⟨hknows, htop, hmatrix _, hmatrix _, hobjects, hstrings, hsequences,
    isSubtype_trans hknows htop (hmatrix _) (hmatrix _) hobjects hstrings hsequences⟩

end TypeSystem

end TypedMustache
