import TypedMustache.ClassTable.Basic
import TypedMustache.TypeSystem.Supertype

/-! Steps up a hierarchy. The direct supertypes of a type are those that are written down for it,
and a view of the type is the type itself or comes from one of them, a step nearer. -/

namespace TypedMustache

namespace JavaType

theorem isWildcard_of_baseName? {ty : JavaType} {name : String} (h : ty.baseName? = some name) :
    ty.isWildcard = false := by
  cases ty with
  | wildcard side => cases h
  | bounded side bound => cases h
  | _ => rfl

theorem isArray_of_baseName? {ty : JavaType} {name : String} (h : ty.baseName? = some name) :
    ty.isArray = false := by
  cases ty with
  | array element dimensions => cases h
  | _ => rfl

theorem erasure_of_baseName? {name : String} :
    ∀ ty : JavaType, ty.baseName? = some name → ty.erasure = .declared name
  | .declared _, h => congrArg declared (Option.some.inj h)
  | .generic base _, h => erasure_of_baseName? base h
  | .primitive _, h => by cases h
  | .array _ _, h => by cases h
  | .wildcard _, h => by cases h
  | .bounded _ _, h => by cases h
  | .unknown, h => by cases h

end JavaType

open JavaType

namespace TypeSystem

variable {ts : TypeSystem}

theorem supertypeWithin_of_baseName?_eq_none {target : String} (steps : Nat) {ty : JavaType}
    (h : ty.baseName? = none) : ts.supertypeWithin target steps ty = none := by
  cases steps with
  | zero => rfl
  | succ steps => simp only [supertypeWithin, h]

theorem supertypeWithin_succ {target name : String} (steps : Nat) {ty : JavaType}
    (h : ty.baseName? = some name) :
    ts.supertypeWithin target (steps + 1) ty =
      if name = target then some ty
      else ((ts.supertypesOf name ty.args).findSome? (ts.supertypeWithin target steps)).map
        fun found => if ts.isRaw ty then found.erasure else found := by
  simp only [supertypeWithin, h]

/-- A view is the type itself or the view of one of its supertypes, erased above a raw type. -/
theorem supertypeWithin_cases {target : String} {steps : Nat} {ty view : JavaType}
    (h : ts.supertypeWithin target (steps + 1) ty = some view) :
    ∃ name, ty.baseName? = some name ∧ (name = target ∧ view = ty ∨
      ∃ sup ∈ ts.supertypesOf name ty.args, ∃ found,
        ts.supertypeWithin target steps sup = some found ∧
          view = if ts.isRaw ty then found.erasure else found) := by
  cases hname : ty.baseName? with
  | none => rw [supertypeWithin_of_baseName?_eq_none _ hname] at h; cases h
  | some name =>
    refine ⟨name, rfl, ?_⟩
    rw [supertypeWithin_succ steps hname] at h
    split at h
    · next htarget => exact .inl ⟨htarget, (Option.some.inj h).symm⟩
    · obtain ⟨found, hfound, rfl⟩ := Option.map_eq_some_iff.1 h
      obtain ⟨sup, hsup, hview⟩ := List.exists_of_findSome?_eq_some hfound
      exact .inr ⟨sup, hsup, found, hview, rfl⟩

theorem baseName?_supertypeWithin {target : String} (steps : Nat) {ty view : JavaType}
    (h : ts.supertypeWithin target steps ty = some view) : view.baseName? = some target := by
  induction steps generalizing ty view with
  | zero => cases h
  | succ steps ih =>
    obtain ⟨name, hname, ⟨rfl, rfl⟩ | ⟨sup, -, found, hfound, rfl⟩⟩ := supertypeWithin_cases h
    · exact hname
    · have hbase := ih hfound
      split
      · rw [erasure_of_baseName? found hbase]
        rfl
      · exact hbase

theorem asSupertype_self {ty : JavaType} {name : String} (h : ty.baseName? = some name) :
    ts.asSupertype ty name = some ty := by
  rw [asSupertype, supertypeWithin_succ maxChain h, if_pos rfl]

end TypeSystem

theorem ClassTable.exists_of_mem_directSupertypes {t : ClassTable} {name : String}
    {ty : JavaType} (h : ty ∈ t.toTypeSystem.directSupertypes name) :
    ∃ s, (name, s) ∈ t.supertypes ∧ ty ∈ s.all := by
  have hmem : ty ∈ (t.supertypesOf name).all := h
  cases hfound : t.supertypes.lookup name with
  | none => simp [supertypesOf, hfound, Supertypes.all] at hmem
  | some s =>
    rw [supertypesOf, hfound] at hmem
    exact ⟨s, mem_of_lookup hfound, hmem⟩

/-- What holds of all supertypes that are written down holds of all direct supertypes. -/
theorem ClassTable.forall_directSupertypes {t : ClassTable} {P : String → JavaType → Prop}
    (h : ∀ entry ∈ t.supertypes, ∀ ty ∈ entry.2.all, P entry.1 ty) (name : String) :
    ∀ ty ∈ t.toTypeSystem.directSupertypes name, P name ty := by
  intro ty hty
  obtain ⟨s, hs, hmem⟩ := exists_of_mem_directSupertypes hty
  exact h (name, s) hs ty hmem

end TypedMustache
