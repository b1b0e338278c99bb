import TypedMustache.ClassTable.Standard
import TypedMustache.Proofs.Ancestry
import TypedMustache.Proofs.Supertypes
import TypedMustache.Proofs.WildcardPlaces

/-! A type seen as one of its supertypes, against the names above it. The view takes the type's
arguments along and follows chains of a bounded length, and the names above a type are found
without arguments and without a bound. Arguments cannot lead a chain astray: they take the
place of parameters, and no type is declared below one of its own parameters. So a view is
there exactly if a chain within the bound leads to its name, and the two disagree only about
names that are further up. -/

namespace TypedMustache

open JavaType

namespace Substitution

variable {s : Substitution}

theorem baseName?_apply {ty : JavaType} (h : ∀ name, ty = .declared name → s.get? name = none) :
    (s.apply ty).baseName? = ty.baseName? := by
  cases ty with
  | declared name => simp [apply, h name rfl]
  | array element dimensions =>
    simp only [apply]
    cases s.apply element <;> rfl
  | _ => rfl

theorem args_apply {ty : JavaType} (h : ∀ name, ty = .declared name → s.get? name = none) :
    (s.apply ty).args = s.applyAll ty.args := by
  cases ty with
  | declared name =>
    rw [apply, h name rfl]
    rfl
  | array element dimensions =>
    simp only [apply]
    cases s.apply element <;> rfl
  | _ => rfl

end Substitution

namespace TypeSystem

variable {ts : TypeSystem}

/-- No type is declared below one of its own parameters. -/
def InheritsDeclared (ts : TypeSystem) : Prop :=
  ∀ name, ∀ ty ∈ ts.directSupertypes name, ∀ p ∈ ts.parameterNames name, ty ≠ .declared p

/-- Whatever the arguments are, they do not take the place of a direct supertype. -/
theorem InheritsDeclared.get?_eq_none (hts : ts.InheritsDeclared) {name : String} {ty : JavaType}
    (hty : ty ∈ ts.directSupertypes name) (args : List JavaType) (p : String)
    (hp : ty = .declared p) :
    (Substitution.ofParameters (ts.parameterNames name) args).get? p = none :=
  Substitution.get?_ofParameters_eq_none (fun hparameter => hts name ty hty p hparameter hp) args

theorem InheritsDeclared.baseName?_supertypesOf (hts : ts.InheritsDeclared) {name next : String}
    {args : List JavaType} :
    (∃ sup ∈ ts.supertypesOf name args, sup.baseName? = some next) ↔
      next ∈ ts.directSupertypeNames name := by
  rw [mem_directSupertypeNames]
  constructor
  · rintro ⟨sup, hsup, hnext⟩
    obtain ⟨ty, hty, rfl⟩ := List.mem_map.1 hsup
    rw [Substitution.baseName?_apply (hts.get?_eq_none hty args)] at hnext
    exact ⟨ty, hty, hnext⟩
  · rintro ⟨ty, hty, hnext⟩
    refine ⟨_, List.mem_map.2 ⟨ty, hty, rfl⟩, ?_⟩
    rwa [Substitution.baseName?_apply (hts.get?_eq_none hty args)]

/-! ### Views -/

theorem InheritsDeclared.supertypeWithin_isSome_iff (hts : ts.InheritsDeclared) {target : String}
    (steps : Nat) {ty : JavaType} {name : String} (hname : ty.baseName? = some name) :
    (ts.supertypeWithin target steps ty).isSome = true ↔ ∃ n < steps, ts.Above n name target := by
  induction steps generalizing ty name with
  | zero => simp [supertypeWithin]
  | succ steps ih =>
    rw [supertypeWithin_succ steps hname]
    by_cases htarget : name = target
    · rw [if_pos htarget]
      exact ⟨fun _ => ⟨0, by omega, above_zero.2 htarget⟩, fun _ => rfl⟩
    · rw [if_neg htarget, Option.isSome_map, List.findSome?_isSome_iff]
      constructor
      · rintro ⟨sup, hsup, hfound⟩
        cases hbase : sup.baseName? with
        | none =>
          rw [supertypeWithin_of_baseName?_eq_none steps hbase] at hfound
          cases hfound
        | some next =>
          obtain ⟨n, hn, habove⟩ := (ih hbase).1 hfound
          have hnext := hts.baseName?_supertypesOf.1 ⟨sup, hsup, hbase⟩
          exact ⟨n + 1, by omega, .step hnext habove⟩
      · rintro ⟨n, hn, habove⟩
        cases n with
        | zero => exact absurd (above_zero.1 habove) htarget
        | succ n =>
          obtain ⟨next, hnext, hrest⟩ := above_succ.1 habove
          obtain ⟨sup, hsup, hbase⟩ := hts.baseName?_supertypesOf.2 hnext
          exact ⟨sup, hsup, (ih hbase).2 ⟨n, by omega, hrest⟩⟩

theorem InheritsDeclared.asSupertype_isSome_iff (hts : ts.InheritsDeclared) {ty : JavaType}
    {name : String} (hname : ty.baseName? = some name) (target : String) :
    (ts.asSupertype ty target).isSome = true ↔ ∃ n ≤ maxChain, ts.Above n name target := by
  rw [asSupertype, hts.supertypeWithin_isSome_iff _ hname]
  simp only [Nat.lt_succ_iff]

/-- No chain of supertypes leads from a type back to it. -/
def Acyclic (ts : TypeSystem) : Prop := ∀ name n, ¬ts.Above (n + 1) name name

/-- No chain of supertypes is longer than those that are followed. -/
def Shallow (ts : TypeSystem) : Prop := ∀ name target n, ts.Above n name target → n ≤ maxChain

/-- A chain that leads back could be gone through again and again. -/
theorem Shallow.acyclic (hshallow : ts.Shallow) : ts.Acyclic := by
  intro name n hcycle
  have hrounds : ∀ rounds, ts.Above (rounds * (n + 1)) name name := by
    intro rounds
    induction rounds with
    | zero =>
      rw [Nat.zero_mul]
      exact .refl name
    | succ rounds ih =>
      rw [Nat.succ_mul]
      exact ih.trans hcycle
  have hlong : (maxChain + 1) * (n + 1) ≤ maxChain := hshallow name name _ (hrounds (maxChain + 1))
  rw [maxChain] at hlong
  omega

/-- Where no chain is too long to be followed, a view is there if any chain leads to its name. -/
theorem InheritsDeclared.asSupertype_isSome_of_shallow (hts : ts.InheritsDeclared)
    (hshallow : ts.Shallow) {ty : JavaType} {name : String} (hname : ty.baseName? = some name)
    (target : String) : (ts.asSupertype ty target).isSome = true ↔ ∃ n, ts.Above n name target := by
  rw [hts.asSupertype_isSome_iff hname]
  constructor
  · rintro ⟨n, -, habove⟩
    exact ⟨n, habove⟩
  · rintro ⟨n, habove⟩
    exact ⟨n, hshallow name target n habove, habove⟩

/-- A view of a type is there exactly if a chain of at most `maxChain` supertypes leads to its
name, and a name is above a type exactly if a chain of any length does. Every view is of the
name that was asked for. -/
theorem views_and_ancestors (hts : ts.InheritsDeclared) {ty : JavaType} {name : String}
    (hname : ty.baseName? = some name) (target : String) :
    ((ts.asSupertype ty target).isSome = true ↔ ∃ n ≤ maxChain, ts.Above n name target) ∧
      (name = target ∨ target ∈ ts.ancestors name ↔ ∃ n, ts.Above n name target) ∧
      ∀ view, ts.asSupertype ty target = some view → view.baseName? = some target :=
  ⟨hts.asSupertype_isSome_iff hname target, eq_or_mem_ancestors_iff,
    fun _ hview => baseName?_supertypeWithin (maxChain + 1) hview⟩

end TypeSystem

namespace ClassTable

variable {t : ClassTable}

theorem directSupertypes_addClass (t : ClassTable) (name : String) (superclass : Option JavaType)
    (parameters : List String) (other : String) :
    (t.addClass name superclass parameters).toTypeSystem.directSupertypes other =
      if other = name then (superclass <|> defaultSuperclass name).toList
      else t.toTypeSystem.directSupertypes other := by
  by_cases h : other = name
  · have hlookup : (t.addClass name superclass parameters).supertypesOf other =
        { superclass := superclass <|> defaultSuperclass name } := by
      simp [supertypesOf, addClass, declare, h]
    rw [if_pos h, TypeSystem.directSupertypes]
    simp [toTypeSystem, hlookup]
  · have hlookup : (t.addClass name superclass parameters).supertypesOf other =
        t.supertypesOf other := by
      simp [supertypesOf, addClass, declare, List.lookup_cons, beq_false_of_ne h]
    rw [if_neg h, TypeSystem.directSupertypes, TypeSystem.directSupertypes]
    simp [toTypeSystem, hlookup]

theorem inheritsDeclared_toTypeSystem
    (h : ∀ entry ∈ t.supertypes, ∀ ty ∈ entry.2.all,
      ∀ p ∈ t.toTypeSystem.parameterNames entry.1, ty ≠ .declared p) :
    t.toTypeSystem.InheritsDeclared :=
  forall_directSupertypes h

/-- In a table that can be put in an order with all supertypes of a type before it, no chain is
longer than the order. -/
theorem shallow_toTypeSystem (order : List String) (hlength : order.length ≤ TypeSystem.maxChain)
    (h : ∀ entry ∈ t.supertypes, ∀ ty ∈ entry.2.all, ∀ base ∈ ty.baseName?,
      order.idxOf base < order.idxOf entry.1) : t.toTypeSystem.Shallow := by
  have horder : ∀ name, ∀ ty ∈ t.toTypeSystem.directSupertypes name, ∀ base ∈ ty.baseName?,
      order.idxOf base < order.idxOf name :=
    forall_directSupertypes h
  intro name target n habove
  have hplace : n + order.idxOf target ≤ order.idxOf name := by
    induction habove with
    | refl name => exact Nat.le_of_eq (Nat.zero_add _)
    | @step _ name next _ hnext _ ih =>
      obtain ⟨ty, hty, hbase⟩ := TypeSystem.mem_directSupertypeNames.1 hnext
      have hlt : order.idxOf next < order.idxOf name := horder name ty hty next hbase
      omega
  have hle := List.idxOf_le_length (a := name) (l := order)
  omega

end ClassTable

namespace TypeSystem

/-- A list of strings is seen as an iterable, which is two supertypes above lists. -/
theorem views_and_ancestors_list :
    (ClassTable.standard "Renderable").toTypeSystem.InheritsDeclared ∧
      (applied "java.util.List" [declared "java.lang.String"]).baseName? = some "java.util.List" ∧
      (ClassTable.standard "Renderable").toTypeSystem.asSupertype
        (applied "java.util.List" [declared "java.lang.String"]) "java.lang.Iterable" =
          some (applied "java.lang.Iterable" [declared "java.lang.String"]) ∧
      ∃ n ≤ maxChain, (ClassTable.standard "Renderable").toTypeSystem.Above n
        "java.util.List" "java.lang.Iterable" := by
  have hts : (ClassTable.standard "Renderable").toTypeSystem.InheritsDeclared :=
    ClassTable.inheritsDeclared_toTypeSystem (by decide +kernel)
  have hview : (ClassTable.standard "Renderable").toTypeSystem.asSupertype
      (applied "java.util.List" [declared "java.lang.String"]) "java.lang.Iterable" =
        some (applied "java.lang.Iterable" [declared "java.lang.String"]) := by
    decide +kernel
  have hname : (applied "java.util.List" [declared "java.lang.String"]).baseName? =
      some "java.util.List" := rfl
  refine ⟨hts, hname, hview, (views_and_ancestors hts hname "java.lang.Iterable").1.1 ?_⟩
  rw [hview]
  rfl

end TypeSystem

/-! ### Towers

Classes each of which extends the one before it, the lowest one that of all objects. -/

namespace Tower

/-- The classes of a tower, from the ground up. Higher floors are lower in the hierarchy. -/
def floor : Nat → String
  | 0 => objectName
  | n + 1 => String.ofList (List.replicate (n + 1) 'I')

def table : Nat → ClassTable
  | 0 => ({} : ClassTable).addClass (floor 0)
  | n + 1 => (table n).addClass (floor (n + 1)) (some (.declared (floor n)))

def types (n : Nat) : TypeSystem := (table n).toTypeSystem

theorem floor_zero_ne (n : Nat) : floor 0 ≠ floor (n + 1) := by
  intro h
  have hhead := congrArg (fun text => text.toList.head?) h
  simp [floor, objectName, List.replicate_succ] at hhead

theorem floor_injective : Function.Injective floor := by
  intro i j h
  cases i with
  | zero =>
    cases j with
    | zero => rfl
    | succ j => exact absurd h (floor_zero_ne j)
  | succ i =>
    cases j with
    | zero => exact absurd h.symm (floor_zero_ne i)
    | succ j =>
      have hlength := congrArg (fun text => text.toList.length) h
      simpa [floor] using hlength

theorem directSupertypes_zero (name : String) : (types 0).directSupertypes name = [] := by
  have hnone : ClassTable.defaultSuperclass (floor 0) = none := rfl
  rw [types, table, ClassTable.directSupertypes_addClass, hnone]
  split <;> rfl

theorem directSupertypes_succ (n : Nat) (name : String) :
    (types (n + 1)).directSupertypes name =
      if name = floor (n + 1) then [.declared (floor n)] else (types n).directSupertypes name := by
  rw [types, table, ClassTable.directSupertypes_addClass]
  rfl

theorem mem_directSupertypeNames {n : Nat} {name next : String} :
    next ∈ (types n).directSupertypeNames name ↔
      ∃ i < n, name = floor (i + 1) ∧ next = floor i := by
  induction n with
  | zero => simp [TypeSystem.directSupertypeNames, directSupertypes_zero]
  | succ n ih =>
    rw [TypeSystem.directSupertypeNames, directSupertypes_succ]
    by_cases hname : name = floor (n + 1)
    · subst hname
      rw [if_pos rfl]
      constructor
      · intro hnext
        exact ⟨n, by omega, rfl, List.mem_singleton.1 hnext⟩
      · rintro ⟨i, -, hi, rfl⟩
        have hn : n + 1 = i + 1 := floor_injective hi
        obtain rfl : n = i := by omega
        exact List.mem_singleton_self _
    · rw [if_neg hname]
      refine ih.trans ⟨?_, ?_⟩
      · rintro ⟨i, hi, hfloor⟩
        exact ⟨i, by omega, hfloor⟩
      · rintro ⟨i, hi, rfl, hnext⟩
        have hne : i ≠ n := fun h => hname (h ▸ rfl)
        exact ⟨i, by omega, rfl, hnext⟩

theorem exists_of_above {n k : Nat} {i : Nat} {target : String}
    (h : (types n).Above k (floor i) target) : ∃ j, i = j + k ∧ target = floor j := by
  induction k generalizing i with
  | zero => exact ⟨i, rfl, (TypeSystem.above_zero.1 h).symm⟩
  | succ k ih =>
    obtain ⟨next, hnext, hrest⟩ := TypeSystem.above_succ.1 h
    obtain ⟨i', -, hi, rfl⟩ := mem_directSupertypeNames.1 hnext
    obtain ⟨j, hj, htarget⟩ := ih hrest
    have hfloor := floor_injective hi
    exact ⟨j, by omega, htarget⟩

theorem above_ground {n : Nat} : ∀ {i : Nat}, i ≤ n → (types n).Above i (floor i) (floor 0)
  | 0, _ => .refl (floor 0)
  | i + 1, hi =>
    .step (mem_directSupertypeNames.2 ⟨i, by omega, rfl, rfl⟩) (above_ground (by omega))

theorem acyclic_types (n : Nat) : (types n).Acyclic := by
  intro name k h
  obtain ⟨next, hnext, -⟩ := TypeSystem.above_succ.1 h
  obtain ⟨i, -, rfl, -⟩ := mem_directSupertypeNames.1 hnext
  obtain ⟨j, hj, htarget⟩ := exists_of_above h
  have hfloor := floor_injective htarget
  omega

theorem parameters_eq_nil {n : Nat} : ∀ info ∈ (table n).types, info.parameters = [] := by
  induction n with
  | zero => exact List.forall_mem_singleton.2 rfl
  | succ n ih => exact List.forall_mem_cons.2 ⟨rfl, ih⟩

theorem inheritsDeclared_types (n : Nat) : (types n).InheritsDeclared := by
  intro name ty _ p hp
  have hnone : (types n).parameters name = [] := by
    have hinfo : (types n).typeInfo? name = (table n).types.find? (·.name = name) := rfl
    rw [TypeSystem.parameters, hinfo]
    cases hfound : (table n).types.find? (·.name = name) with
    | none => rfl
    | some info => exact parameters_eq_nil info (List.mem_of_find?_eq_some hfound)
  rw [TypeSystem.parameterNames, hnone] at hp
  cases hp

theorem view_isSome_iff (n : Nat) :
    ((types n).asSupertype (.declared (floor n)) (floor 0)).isSome = true ↔
      n ≤ TypeSystem.maxChain := by
  have hname : (declared (floor n)).baseName? = some (floor n) := rfl
  rw [(inheritsDeclared_types n).asSupertype_isSome_iff hname]
  constructor
  · rintro ⟨k, hk, habove⟩
    obtain ⟨j, hj, htarget⟩ := exists_of_above habove
    have hground : 0 = j := floor_injective htarget
    omega
  · intro hn
    exact ⟨n, hn, above_ground (Nat.le_refl n)⟩

theorem ground_mem_ancestors (n : Nat) : floor 0 ∈ (types (n + 1)).ancestors (floor (n + 1)) :=
  TypeSystem.mem_ancestors_iff.2 ⟨n, above_ground (Nat.le_refl (n + 1))⟩

end Tower

namespace TypeSystem

/-- The class of all objects is above the top of every tower, and from the top of one that is
too high it is not seen. -/
theorem tower_view_eq_none :
    (Tower.types 65).Acyclic ∧ (Tower.types 65).InheritsDeclared ∧
      Tower.floor 0 ∈ (Tower.types 65).ancestors (Tower.floor 65) ∧
      (Tower.types 65).asSupertype (.declared (Tower.floor 65)) (Tower.floor 0) = none := by
  refine ⟨Tower.acyclic_types 65, Tower.inheritsDeclared_types 65,
    Tower.ground_mem_ancestors 64, ?_⟩
  have hfar : ¬65 ≤ maxChain := by decide
  rw [← Tower.view_isSome_iff, Bool.not_eq_true, Option.isSome_eq_false_iff] at hfar
  exact Option.isNone_iff_eq_none.1 hfar

end TypeSystem

end TypedMustache
