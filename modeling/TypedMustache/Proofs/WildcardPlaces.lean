import TypedMustache.JavaType.Substitution

/-! Where wildcards stand in a type. In Java they stand as type arguments only, and no
wildcard is the bound of another. Erasure leaves a type without wildcards. Putting
arguments in place of type variables keeps wildcards where they belong, unless a variable
stands as the element of an array or as the bound of a wildcard, where it is exposed: an
argument may be a wildcard, and what is put there may not. -/

namespace TypedMustache

namespace JavaType

/-- A type stands as a type argument or anywhere else. -/
inductive Place where
  | argument
  | elsewhere
  deriving DecidableEq, Repr

mutual

/-- Whether all wildcards in a type stand where they may, if it stands in the given place. -/
def fits : Place → JavaType → Bool
  | _, .generic base args => fits .elsewhere base && fitAll args
  | _, .array element _ => fits .elsewhere element
  | place, .wildcard _ => place = .argument
  | place, .bounded _ bound => place = .argument && fits .elsewhere bound
  | _, _ => true

/-- Whether all of some type arguments may stand where they do. -/
def fitAll : List JavaType → Bool
  | [] => true
  | a :: as => fits .argument a && fitAll as

end

def isOneOf (names : List String) : JavaType → Bool
  | .declared name => names.contains name
  | _ => false

mutual

/-- Whether one of the names stands in the type as the element of an array or as the bound
of a wildcard. -/
def exposes (names : List String) : JavaType → Bool
  | .generic _ args => exposesAny names args
  | .array element _ => element.isOneOf names || exposes names element
  | .bounded _ bound => bound.isOneOf names || exposes names bound
  | _ => false

def exposesAny (names : List String) : List JavaType → Bool
  | [] => false
  | a :: as => exposes names a || exposesAny names as

end

theorem fits_of_mem {as : List JavaType} (h : fitAll as = true) {a : JavaType} (ha : a ∈ as) :
    a.fits .argument = true := by
  induction as with
  | nil => cases ha
  | cons b bs ih =>
    simp only [fitAll, Bool.and_eq_true] at h
    rcases List.mem_cons.1 ha with rfl | ha
    · exact h.1
    · exact ih h.2 ha

/-- Only a wildcard is at home in one place and not in the other. -/
theorem fits_anywhere {ty : JavaType} (hty : ty.isWildcard = false) {place : Place}
    (h : ty.fits place = true) (other : Place) : ty.fits other = true := by
  cases ty with
  | wildcard side => cases hty
  | bounded side bound => cases hty
  | generic base args => simpa only [fits] using h
  | array element dimensions => simpa only [fits] using h
  | _ => rfl

theorem isWildcard_of_fits {ty : JavaType} (h : ty.fits .elsewhere = true) :
    ty.isWildcard = false := by
  cases ty with
  | wildcard side => simp [fits] at h
  | bounded side bound => simp [fits] at h
  | _ => rfl

theorem fits_argument {ty : JavaType} (h : ty.fits .elsewhere = true) :
    ty.fits .argument = true := fits_anywhere (isWildcard_of_fits h) h .argument

theorem fitAll_args {ty : JavaType} {place : Place} (h : ty.fits place = true) :
    fitAll ty.args = true := by
  cases ty with
  | generic base args =>
    simp only [fits, Bool.and_eq_true] at h
    exact h.2
  | _ => rfl

theorem exists_component? {ty : JavaType} (h : ty.isArray = true) :
    ∃ element, ty.component? = some element := by
  cases ty with
  | array element dimensions => rcases dimensions with _ | _ | dimensions <;> exact ⟨_, rfl⟩
  | _ => cases h

theorem size_component?_lt {ty component : JavaType} (h : ty.component? = some component) :
    component.size < ty.size := by
  cases ty with
  | array element dimensions =>
    rcases dimensions with _ | _ | n <;> cases h <;> simp only [size] <;> omega
  | _ => cases h

theorem fits_component? {ty component : JavaType} {place : Place} (h : ty.fits place = true)
    (hcomponent : ty.component? = some component) : component.fits .elsewhere = true := by
  cases ty with
  | array element dimensions =>
    simp only [fits] at h
    rcases dimensions with _ | _ | dimensions <;> cases hcomponent
    · exact h
    · exact h
    · simpa only [fits] using h
  | _ => cases hcomponent

theorem fits_upperBound? {ty bound : JavaType} {place : Place} (h : ty.fits place = true)
    (hbound : ty.upperBound? = some bound) : bound.fits .elsewhere = true := by
  cases ty with
  | bounded side inner =>
    simp only [fits, Bool.and_eq_true] at h
    cases side <;> cases hbound
    exact h.2
  | _ => cases hbound

theorem fits_erasure : ∀ ty : JavaType, ty.erasure.fits .elsewhere = true
  | .generic base _ => fits_erasure base
  | .array element _ => by
    simp only [erasure, fits]
    exact fits_erasure element
  | .bounded .upper bound => fits_erasure bound
  | .bounded .lower _ => rfl
  | .wildcard _ => rfl
  | .primitive _ => rfl
  | .declared _ => rfl
  | .unknown => rfl

end JavaType

namespace Substitution

open JavaType

theorem fits_arrayOver {element : JavaType} (h : element.fits .elsewhere = true) (place : Place)
    (dimensions : Nat) : (arrayOver element dimensions).fits place = true := by
  cases element with
  | array inner n => simpa only [arrayOver, fits] using h
  | _ => exact h

/-- Type arguments for some names. -/
def Arguments (s : Substitution) (names : List String) : Prop :=
  ∀ name ty, s.get? name = some ty → name ∈ names ∧ ty.fits .argument = true

variable {s : Substitution} {names : List String}

theorem Arguments.apply_declared (hs : s.Arguments names) (name : String) :
    (s.apply (.declared name)).fits .argument = true := by
  simp only [apply]
  cases h : s.get? name with
  | none => rfl
  | some ty => exact (hs name ty h).2

theorem Arguments.apply_other (hs : s.Arguments names) {name : String}
    (h : (declared name).isOneOf names = false) : s.apply (.declared name) = .declared name := by
  simp only [apply]
  cases hget : s.get? name with
  | none => rfl
  | some ty =>
    have hmem := (hs name ty hget).1
    simp [isOneOf, hmem] at h

mutual

/-- Wildcards stay where they belong if no variable that takes an argument is exposed, or
is all there is. -/
theorem Arguments.fits_apply_of_not_isOneOf (hs : s.Arguments names) :
    ∀ (ty : JavaType) (place : Place), ty.fits place = true → ty.exposes names = false →
      ty.isOneOf names = false → (s.apply ty).fits place = true
  | .declared name, place, _, _, hname => by
    rw [hs.apply_other hname]
    rfl
  | .generic base args, place, h, hexposes, _ => by
    simp only [fits, exposes, Bool.and_eq_true] at h hexposes
    simp only [apply, fits, Bool.and_eq_true]
    exact ⟨h.1, hs.fitAll_applyAll args h.2 hexposes⟩
  | .array element dimensions, place, h, hexposes, _ => by
    simp only [fits, exposes, Bool.or_eq_false_iff] at h hexposes
    exact fits_arrayOver
      (hs.fits_apply_of_not_isOneOf element .elsewhere h hexposes.2 hexposes.1) place dimensions
  | .bounded side bound, place, h, hexposes, _ => by
    simp only [fits, exposes, Bool.and_eq_true, Bool.or_eq_false_iff] at h hexposes
    simp only [apply, fits, Bool.and_eq_true]
    exact ⟨h.1, hs.fits_apply_of_not_isOneOf bound .elsewhere h.2 hexposes.2 hexposes.1⟩
  | .wildcard _, _, h, _, _ => h
  | .primitive _, _, _, _, _ => rfl
  | .unknown, _, _, _, _ => rfl

theorem Arguments.fitAll_applyAll (hs : s.Arguments names) :
    ∀ as : List JavaType, fitAll as = true → exposesAny names as = false →
      fitAll (applyAll s as) = true
  | [], _, _ => rfl
  | a :: as, h, hexposes => by
    simp only [fitAll, exposesAny, Bool.and_eq_true, Bool.or_eq_false_iff] at h hexposes
    simp only [applyAll, fitAll, Bool.and_eq_true]
    refine ⟨?_, hs.fitAll_applyAll as h.2 hexposes.2⟩
    cases hname : a.isOneOf names with
    | false => exact hs.fits_apply_of_not_isOneOf a .argument h.1 hexposes.1 hname
    | true =>
      cases a with
      | declared name => exact hs.apply_declared name
      | _ => cases hname

end

/-- A type that exposes no variable becomes one that may stand as an argument. -/
theorem Arguments.fits_apply (hs : s.Arguments names) {ty : JavaType}
    (h : ty.fits .elsewhere = true) (hexposes : ty.exposes names = false) :
    (s.apply ty).fits .argument = true := by
  have hlist := hs.fitAll_applyAll [ty] (by simp [fitAll, fits_argument h])
    (by simp [exposesAny, hexposes])
  simpa [applyAll, fitAll] using hlist

theorem entries_foldl_insert (pairs : List (String × JavaType)) (s : Substitution) :
    (pairs.foldl (fun s pair => s.insert pair.1 pair.2) s).entries =
      pairs.reverse ++ s.entries := by
  induction pairs generalizing s with
  | nil => rfl
  | cons pair pairs ih =>
    rw [List.foldl_cons, ih, List.reverse_cons, List.append_assoc]
    rfl

theorem mem_of_get? {name : String} {ty : JavaType} (h : s.get? name = some ty) :
    (name, ty) ∈ s.entries := by
  obtain ⟨before, after, hentries, -⟩ := List.lookup_eq_some_iff.1 h
  simp [hentries]

theorem mem_zip_of_get?_ofParameters {args : List JavaType} {name : String} {ty : JavaType}
    (h : (ofParameters names args).get? name = some ty) : (name, ty) ∈ names.zip args := by
  have hmem := mem_of_get? h
  rw [ofParameters, entries_foldl_insert] at hmem
  simpa using hmem

theorem mem_of_get?_ofParameters {args : List JavaType} {name : String} {ty : JavaType}
    (h : (ofParameters names args).get? name = some ty) : name ∈ names ∧ ty ∈ args :=
  List.of_mem_zip (mem_zip_of_get?_ofParameters h)

theorem get?_ofParameters_eq_none {name : String} (h : name ∉ names) (args : List JavaType) :
    (ofParameters names args).get? name = none :=
  Option.eq_none_iff_forall_ne_some.2 fun _ hget => h (mem_of_get?_ofParameters hget).1

theorem arguments_ofParameters (names : List String) {args : List JavaType}
    (h : fitAll args = true) : (ofParameters names args).Arguments names := by
  intro name ty hget
  have hmem := mem_of_get?_ofParameters hget
  exact ⟨hmem.1, fits_of_mem h hmem.2⟩

end Substitution

end TypedMustache
