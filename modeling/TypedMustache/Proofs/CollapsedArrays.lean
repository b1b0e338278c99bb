import TypedMustache.Proofs.Variables

/-! Arrays of arrays. One can be written as an array with more dimensions or as an array whose
element is an array, and equality tells the two forms apart. So arrays are kept collapsed, which is
the first form. An array that is built of something is collapsed, and so are the components of one.
Replacing variables keeps arrays collapsed, since an array takes in the dimensions of what comes to
stand as its element. Both hold as long as dimensions can be counted: the sum that is one larger
than all numbers of 64 bits is none of them, and an array without dimensions is left there. Erasure
puts the bound of a wildcard in its place, too, but leaves the array around it as it is. So it keeps
arrays collapsed exactly if it goes through one of them at most. -/

namespace TypedMustache

namespace JavaType

mutual

/-- Whether every array in a type has a dimension and an element that is no array. -/
def isCollapsed : JavaType → Bool
  | .generic base args => isCollapsed base && allCollapsed args
  | .array element dimensions =>
    decide (1 ≤ dimensions) && !element.isArray && isCollapsed element
  | .bounded _ bound => isCollapsed bound
  | _ => true

def allCollapsed : List JavaType → Bool
  | [] => true
  | a :: as => isCollapsed a && allCollapsed as

end

theorem isCollapsed_array_iff {element : JavaType} {dimensions : Nat} :
    (array element dimensions).isCollapsed = true ↔
      1 ≤ dimensions ∧ element.isArray = false ∧ element.isCollapsed = true := by
  simp [isCollapsed, and_assoc]

theorem allCollapsed_eq_all (as : List JavaType) : allCollapsed as = as.all isCollapsed := by
  induction as with
  | nil => rfl
  | cons a as ih => rw [allCollapsed, ih, List.all_cons]

theorem allDimensionsFit_eq_all (as : List JavaType) :
    allDimensionsFit as = as.all dimensionsFit := by
  induction as with
  | nil => rfl
  | cons a as ih => rw [allDimensionsFit, ih, List.all_cons]

/-! ### Arrays and their components -/

/-- The array type with one more dimension, however many there are. -/
def deepen : JavaType → JavaType
  | .array element dimensions => .array element (dimensions + 1)
  | element => .array element 1

/-- The number of dimensions. What is no array has none. -/
def dimensions : JavaType → Nat
  | .array _ n => n
  | _ => 0

theorem arrayOf_eq_deepen {ty : JavaType} (h : ty.dimensions + 1 < UInt64.size) :
    ty.arrayOf = ty.deepen := by
  cases ty with
  | array element n =>
    have hsum : addDimensions n 1 = n + 1 := Nat.mod_eq_of_lt h
    rw [arrayOf, hsum, deepen]
  | _ => rfl

/-- There is no count for one more dimension than all counts allow. -/
theorem arrayOf_of_overflow (element : JavaType) :
    (array element (UInt64.size - 1)).arrayOf = array element 0 := rfl

theorem dimensions_lt_of_fit {ty : JavaType} (h : ty.dimensionsFit = true) :
    ty.dimensions < UInt64.size := by
  cases ty with
  | array element n =>
    simp only [dimensionsFit, Bool.and_eq_true, decide_eq_true_eq] at h
    exact h.2
  | _ => exact Nat.zero_lt_succ _

theorem isCollapsed_deepen {ty : JavaType} (h : ty.isCollapsed = true) :
    ty.deepen.isCollapsed = true := by
  cases ty with
  | array element dimensions =>
    obtain ⟨-, hflat, helement⟩ := isCollapsed_array_iff.1 h
    exact isCollapsed_array_iff.2 ⟨Nat.succ_pos dimensions, hflat, helement⟩
  | _ => exact isCollapsed_array_iff.2 ⟨Nat.le_refl 1, rfl, h⟩

theorem component?_deepen {ty : JavaType} (h : ty.isCollapsed = true) :
    ty.deepen.component? = some ty := by
  cases ty with
  | array element dimensions =>
    obtain ⟨hdimensions, -, -⟩ := isCollapsed_array_iff.1 h
    obtain ⟨n, rfl⟩ := Nat.exists_eq_add_of_le' hdimensions
    rfl
  | _ => rfl

theorem component?_of_isCollapsed {ty component : JavaType} (h : ty.isCollapsed = true)
    (hcomponent : ty.component? = some component) :
    component.isCollapsed = true ∧ component.deepen = ty := by
  cases ty with
  | array element dimensions =>
    obtain ⟨hdimensions, hflat, helement⟩ := isCollapsed_array_iff.1 h
    match dimensions with
    | 1 =>
      obtain rfl := Option.some.inj hcomponent
      refine ⟨helement, ?_⟩
      cases element with
      | array inner n => cases hflat
      | _ => rfl
    | n + 2 =>
      obtain rfl := Option.some.inj hcomponent
      exact ⟨isCollapsed_array_iff.2 ⟨Nat.succ_pos n, hflat, helement⟩, rfl⟩
  | _ => cases hcomponent

theorem dimensions_deepen (ty : JavaType) : ty.deepen.dimensions = ty.dimensions + 1 := by
  cases ty <;> rfl

/-- A count that fits has a successor that does or is the last one. -/
theorem eq_array_of_overflow {ty : JavaType} (hfit : ty.dimensionsFit = true)
    (h : ¬ ty.dimensions + 1 < UInt64.size) :
    ∃ element, ty = array element (UInt64.size - 1) := by
  have hlt := dimensions_lt_of_fit hfit
  cases ty with
  | array element n =>
    obtain rfl : n = UInt64.size - 1 := by
      simp only [dimensions] at h hlt
      omega
    exact ⟨element, rfl⟩
  | _ => exact absurd (show 0 + 1 < UInt64.size by decide) h

theorem isCollapsed_arrayOf_iff {ty : JavaType} (h : ty.isCollapsed = true)
    (hfit : ty.dimensionsFit = true) :
    ty.arrayOf.isCollapsed = true ↔ ty.dimensions + 1 < UInt64.size := by
  by_cases hroom : ty.dimensions + 1 < UInt64.size
  · rw [arrayOf_eq_deepen hroom]
    exact iff_of_true (isCollapsed_deepen h) hroom
  · obtain ⟨element, rfl⟩ := eq_array_of_overflow hfit hroom
    refine iff_of_false ?_ hroom
    rw [arrayOf_of_overflow, isCollapsed_array_iff]
    exact fun harray => absurd harray.1 (by decide)

theorem component?_arrayOf_iff {ty : JavaType} (h : ty.isCollapsed = true)
    (hfit : ty.dimensionsFit = true) :
    ty.arrayOf.component? = some ty ↔ ty.dimensions + 1 < UInt64.size := by
  by_cases hroom : ty.dimensions + 1 < UInt64.size
  · rw [arrayOf_eq_deepen hroom]
    exact iff_of_true (component?_deepen h) hroom
  · obtain ⟨element, rfl⟩ := eq_array_of_overflow hfit hroom
    refine iff_of_false ?_ hroom
    -- the component is the element, which is no array
    intro hcomponent
    have helement : element = array element (UInt64.size - 1) := Option.some.inj hcomponent
    have hflat := (isCollapsed_array_iff.1 h).2.1
    rw [helement] at hflat
    cases hflat

theorem arrayOf_of_component? {ty component : JavaType} (h : ty.isCollapsed = true)
    (hfit : ty.dimensionsFit = true) (hcomponent : ty.component? = some component) :
    component.isCollapsed = true ∧ component.arrayOf = ty := by
  obtain ⟨hcollapsed, rfl⟩ := component?_of_isCollapsed h hcomponent
  have hroom := dimensions_lt_of_fit hfit
  rw [dimensions_deepen] at hroom
  exact ⟨hcollapsed, arrayOf_eq_deepen hroom⟩

/-! ### Erasure -/

/-- The number of arrays that erasure goes through, on its way from a parameterized type to its
base, from an array to its element and from a wildcard to its upper bound. -/
def arraysErased : JavaType → Nat
  | .generic base _ => arraysErased base
  | .array element _ => arraysErased element + 1
  | .bounded .upper bound => arraysErased bound
  | _ => 0

theorem isArray_erasure : ∀ ty : JavaType, ty.erasure.isArray = decide (1 ≤ ty.arraysErased)
  | .generic base _ => isArray_erasure base
  | .array element _ => by simp [erasure, isArray, arraysErased]
  | .bounded .upper bound => isArray_erasure bound
  | .bounded .lower _ => rfl
  | .wildcard _ => rfl
  | .primitive _ => rfl
  | .declared _ => rfl
  | .unknown => rfl

theorem isCollapsed_erasure_iff : ∀ ty : JavaType, ty.isCollapsed = true →
    (ty.erasure.isCollapsed = true ↔ ty.arraysErased ≤ 1)
  | .generic base args, h => by
    simp only [isCollapsed, Bool.and_eq_true] at h
    exact isCollapsed_erasure_iff base h.1
  | .array element dimensions, h => by
    obtain ⟨hdimensions, -, helement⟩ := isCollapsed_array_iff.1 h
    have hrest : element.erasure.isCollapsed = true ↔ element.arraysErased ≤ 1 :=
      isCollapsed_erasure_iff element helement
    -- the element is no array, but its erasure is one if there is another array on the way
    rw [erasure, isCollapsed_array_iff, isArray_erasure, hrest, arraysErased,
      decide_eq_false_iff_not]
    omega
  | .bounded .upper bound, h => isCollapsed_erasure_iff bound h
  | .bounded .lower _, _ => iff_of_true rfl (Nat.zero_le 1)
  | .wildcard _, _ => iff_of_true rfl (Nat.zero_le 1)
  | .primitive _, _ => iff_of_true rfl (Nat.zero_le 1)
  | .declared _, _ => iff_of_true rfl (Nat.zero_le 1)
  | .unknown, _ => iff_of_true rfl (Nat.zero_le 1)

/-- Where wildcards are type arguments and bases are names, erasure comes to no array from anything
else. -/
theorem arraysErased_eq_zero {ty : JavaType} (hfits : ty.fits .elsewhere = true)
    (hbases : ∀ base ∈ ty.bases, ∃ name, base = .declared name) (hflat : ty.isArray = false) :
    ty.arraysErased = 0 := by
  have hwildcard : ty.isWildcard = false := isWildcard_of_fits hfits
  cases ty with
  | generic base args =>
    obtain ⟨name, rfl⟩ := hbases base List.mem_cons_self
    rfl
  | array element dimensions => cases hflat
  | wildcard side => cases hwildcard
  | bounded side bound => cases hwildcard
  | _ => rfl

theorem arraysErased_le_one : ∀ (ty : JavaType) {place : Place}, ty.isCollapsed = true →
    ty.fits place = true → (∀ base ∈ ty.bases, ∃ name, base = .declared name) →
      ty.arraysErased ≤ 1
  | .generic base args, _, _, _, hbases => by
    obtain ⟨name, rfl⟩ := hbases base List.mem_cons_self
    exact Nat.zero_le 1
  | .array element dimensions, _, h, hfits, hbases => by
    obtain ⟨-, hflat, -⟩ := isCollapsed_array_iff.1 h
    have hrest : element.arraysErased = 0 := arraysErased_eq_zero hfits hbases hflat
    simp [arraysErased, hrest]
  | .bounded .upper bound, _, h, hfits, hbases => by
    simp only [fits, Bool.and_eq_true] at hfits
    exact arraysErased_le_one bound h hfits.2 hbases
  | .bounded .lower _, _, _, _, _ => Nat.zero_le 1
  | .wildcard _, _, _, _, _ => Nat.zero_le 1
  | .primitive _, _, _, _, _ => Nat.zero_le 1
  | .declared _, _, _, _, _ => Nat.zero_le 1
  | .unknown, _, _, _, _ => Nat.zero_le 1

end JavaType

open JavaType

namespace Substitution

/-- Whether only types with collapsed arrays take the places of variables. -/
def Collapsed (s : Substitution) : Prop :=
  ∀ x arg, s.get? x = some arg → arg.isCollapsed = true

theorem collapsed_ofParameters (names : List String) {args : List JavaType}
    (h : allCollapsed args = true) : (ofParameters names args).Collapsed := by
  intro x arg hget
  have hmem := mem_of_get?_ofParameters hget
  rw [allCollapsed_eq_all, List.all_eq_true] at h
  exact h arg hmem.2

/-- Whether the dimensions of the types that take the places of variables can be counted. -/
def Fit (s : Substitution) : Prop := ∀ x arg, s.get? x = some arg → arg.dimensionsFit = true

theorem fit_ofParameters (names : List String) {args : List JavaType}
    (h : allDimensionsFit args = true) : (ofParameters names args).Fit := by
  intro x arg hget
  have hmem := mem_of_get?_ofParameters hget
  rw [allDimensionsFit_eq_all, List.all_eq_true] at h
  exact h arg hmem.2

theorem isCollapsed_arrayOver_iff {element : JavaType} {dimensions : Nat}
    (h : element.isCollapsed = true) (hfit : element.dimensions < UInt64.size)
    (hdimensions : 1 ≤ dimensions) (hfit' : dimensions < UInt64.size) :
    (arrayOver element dimensions).isCollapsed = true ↔
      dimensions + element.dimensions ≠ UInt64.size := by
  cases element with
  | array inner n =>
    obtain ⟨-, hflat, hinner⟩ := isCollapsed_array_iff.1 h
    have hsum : 1 ≤ addDimensions dimensions n ↔ dimensions + n ≠ UInt64.size := by
      simp only [JavaType.dimensions] at hfit
      unfold addDimensions UInt64.size at *
      omega
    simp only [arrayOver, isCollapsed_array_iff, hflat, hinner, and_self, and_true]
    exact hsum
  | _ => exact iff_of_true (isCollapsed_array_iff.2 ⟨hdimensions, rfl, h⟩) (Nat.ne_of_lt hfit')

theorem arrayOver_of_isArray {element : JavaType} (h : element.isArray = false)
    (dimensions : Nat) : arrayOver element dimensions = .array element dimensions := by
  cases element with
  | array inner n => cases h
  | _ => rfl

variable {s : Substitution}

mutual

/-- What the dimensions of the arrays in a type add up to when variables are replaced. -/
def sums (s : Substitution) : JavaType → List Nat
  | .generic _ args => sumsAll s args
  | .array element dimensions => (dimensions + (s.apply element).dimensions) :: sums s element
  | .bounded _ bound => sums s bound
  | _ => []

def sumsAll (s : Substitution) : List JavaType → List Nat
  | [] => []
  | a :: as => sums s a ++ sumsAll s as

end

theorem apply_of_isArray (hs : s.Collapsed) (hfit : s.Fit) {ty : JavaType}
    (h : ty.isArray = false) : (s.apply ty).isArray = false ∨
      (s.apply ty).isCollapsed = true ∧ (s.apply ty).dimensions < UInt64.size := by
  cases ty with
  | declared name =>
    rw [apply]
    cases hget : s.get? name with
    | none => exact .inl rfl
    | some arg => exact .inr ⟨hs name arg hget, dimensions_lt_of_fit (hfit name arg hget)⟩
  | array element n => cases h
  | _ => exact .inl rfl

mutual

/-- Replacing variables leaves arrays collapsed unless some dimensions add up to one more than can
be counted. -/
theorem isCollapsed_apply_iff (hs : s.Collapsed) (hfit : s.Fit) : ∀ ty : JavaType,
    ty.isCollapsed = true → ty.dimensionsFit = true →
      ((s.apply ty).isCollapsed = true ↔ UInt64.size ∉ s.sums ty)
  | .declared name, _, _ => by
    refine iff_of_true ?_ List.not_mem_nil
    rw [apply]
    cases hget : s.get? name with
    | none => rfl
    | some arg => exact hs name arg hget
  | .generic base args, h, hty => by
    simp only [isCollapsed, dimensionsFit, Bool.and_eq_true] at h hty
    simp only [apply, isCollapsed, h.1, Bool.true_and, sums]
    exact allCollapsed_applyAll_iff hs hfit args h.2 hty.2
  | .array element dimensions, h, hty => by
    obtain ⟨hdimensions, hflat, helement⟩ := isCollapsed_array_iff.1 h
    simp only [dimensionsFit, Bool.and_eq_true, decide_eq_true_eq] at hty
    have hrest := isCollapsed_apply_iff hs hfit element helement hty.1
    rw [apply, sums, List.mem_cons, not_or, ← hrest]
    -- what becomes of the element may be an array, whose dimensions are added then
    rcases apply_of_isArray hs hfit hflat with harray | ⟨hcollapsed, hlt⟩
    · have hnone : (s.apply element).dimensions = 0 := by
        cases happly : s.apply element with
        | array inner n => rw [happly] at harray; cases harray
        | _ => rfl
      rw [arrayOver_of_isArray harray, isCollapsed_array_iff, hnone]
      exact ⟨fun h => ⟨Nat.ne_of_gt hty.2, h.2.2⟩, fun h => ⟨hdimensions, harray, h.2⟩⟩
    · rw [isCollapsed_arrayOver_iff hcollapsed hlt hdimensions hty.2]
      exact ⟨fun hne => ⟨hne.symm, hcollapsed⟩, fun h => Ne.symm h.1⟩
  | .bounded _ bound, h, hty => isCollapsed_apply_iff hs hfit bound h hty
  | .primitive _, _, _ => iff_of_true rfl List.not_mem_nil
  | .wildcard _, _, _ => iff_of_true rfl List.not_mem_nil
  | .unknown, _, _ => iff_of_true rfl List.not_mem_nil

theorem allCollapsed_applyAll_iff (hs : s.Collapsed) (hfit : s.Fit) : ∀ as : List JavaType,
    allCollapsed as = true → allDimensionsFit as = true →
      (allCollapsed (s.applyAll as) = true ↔ UInt64.size ∉ s.sumsAll as)
  | [], _, _ => iff_of_true rfl List.not_mem_nil
  | a :: as, h, hty => by
    simp only [allCollapsed, allDimensionsFit, Bool.and_eq_true] at h hty
    simp only [applyAll, allCollapsed, Bool.and_eq_true, sumsAll, List.mem_append, not_or]
    exact and_congr (isCollapsed_apply_iff hs hfit a h.1 hty.1)
      (allCollapsed_applyAll_iff hs hfit as h.2 hty.2)

end

end Substitution

namespace JavaType

/-- Arrays stay collapsed where an array of something is built or taken apart, which undo one
another, and where variables are replaced. With one more dimension than can be counted, an array of
something has none, and so has an array whose variables are replaced by arrays of that many more.
Erasure keeps arrays collapsed exactly if it goes through one at most. That is the case wherever
wildcards are type arguments and bases are names. -/
theorem arrays_stay_collapsed {s : Substitution} (hs : s.Collapsed) (hsfit : s.Fit) {ty : JavaType}
    (h : ty.isCollapsed = true) (hfit : ty.dimensionsFit = true) :
    (ty.arrayOf.isCollapsed = true ↔ ty.dimensions + 1 < UInt64.size) ∧
      (ty.arrayOf.component? = some ty ↔ ty.dimensions + 1 < UInt64.size) ∧
      (∀ element, ty = .array element (UInt64.size - 1) → ty.arrayOf = .array element 0) ∧
      (∀ component, ty.component? = some component →
        component.isCollapsed = true ∧ component.arrayOf = ty) ∧
      ((s.apply ty).isCollapsed = true ↔ UInt64.size ∉ s.sums ty) ∧
      (ty.erasure.isCollapsed = true ↔ ty.arraysErased ≤ 1) ∧
      ∀ place, ty.fits place = true → (∀ base ∈ ty.bases, ∃ name, base = .declared name) →
        ty.erasure.isCollapsed = true := by
  have herasure := isCollapsed_erasure_iff ty h
  refine ⟨isCollapsed_arrayOf_iff h hfit, component?_arrayOf_iff h hfit, ?_, ?_,
    Substitution.isCollapsed_apply_iff hs hsfit ty h hfit, herasure, ?_⟩
  · rintro element rfl
    exact arrayOf_of_overflow element
  · intro component hcomponent
    exact arrayOf_of_component? h hfit hcomponent
  · intro place hfits hbases
    exact herasure.2 (arraysErased_le_one ty h hfits hbases)

end JavaType

/-! ### Grids

What is in a grid is an array of `T`, and `T` is a row of numbers or some kind of such rows. -/

namespace Grids

def row : JavaType := .array (.primitive "int") 1

/-- A grid of lists of arrays of `T`. -/
def lists : JavaType :=
  .array (applied "java.util.List" [.bounded .upper (.array (.declared "T") 1)]) 2

def ofRows : Substitution := .ofParameters ["T"] [row]

def ofSomeRows : Substitution := .ofParameters ["T"] [.bounded .upper row]

end Grids

open Grids

namespace JavaType

/-- A grid of lists of arrays becomes one of lists of grids, and is one of lists when erased. -/
theorem arrays_stay_collapsed_lists :
    ofRows.Collapsed ∧ ofRows.Fit ∧ lists.isCollapsed = true ∧ lists.dimensionsFit = true ∧
      lists.arrayOf.isCollapsed = true ∧
      lists.arrayOf.component? = some lists ∧
      (∃ component, lists.component? = some component ∧ component.isCollapsed = true ∧
        component.arrayOf = lists) ∧
      (ofRows.apply lists).isCollapsed = true ∧ lists.fits .elsewhere = true ∧
      (∀ base ∈ lists.bases, ∃ name, base = .declared name) ∧
      lists.erasure.isCollapsed = true := by
  have hrows : ofRows.Collapsed := Substitution.collapsed_ofParameters ["T"] rfl
  have hrowsfit : ofRows.Fit := Substitution.fit_ofParameters ["T"] rfl
  have hlists : lists.isCollapsed = true := rfl
  have hfit : lists.dimensionsFit = true := rfl
  have hfits : lists.fits .elsewhere = true := rfl
  have hbases : ∀ base ∈ lists.bases, ∃ name, base = .declared name :=
    List.forall_mem_singleton.2 ⟨"java.util.List", rfl⟩
  obtain ⟨harray, hback, -, hcomponents, hreplaced, -, herased⟩ :=
    arrays_stay_collapsed hrows hrowsfit hlists hfit
  have hsums : ofRows.sums lists = [2, 2] := by decide
  exact ⟨hrows, hrowsfit, hlists, hfit, harray.2 (by decide), hback.2 (by decide),
    ⟨_, rfl, hcomponents _ rfl⟩, hreplaced.2 (by rw [hsums]; decide), hfits, hbases,
    herased .elsewhere hfits hbases⟩

/-- With a wildcard for `T` an array of `T` is one of wildcards, and erased it is one of arrays. -/
theorem erasure_nests_some_rows :
    ofSomeRows.Collapsed ∧ (array (declared "T") 1).isCollapsed = true ∧
      ofSomeRows.apply (array (declared "T") 1) = array (bounded .upper row) 1 ∧
      (array (bounded .upper row) 1).isCollapsed = true ∧
      (array (bounded .upper row) 1).erasure = array (array (primitive "int") 1) 1 ∧
      (array (bounded .upper row) 1).erasure.isCollapsed = false := by
  refine ⟨Substitution.collapsed_ofParameters ["T"] rfl, rfl, ?_, rfl, rfl, rfl⟩
  decide

end JavaType

end TypedMustache
