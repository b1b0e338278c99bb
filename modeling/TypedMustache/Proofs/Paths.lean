import TypedMustache.Proofs.Variables
import TypedMustache.Proofs.Views

/-! Paths up a hierarchy with the arguments taken along. What a search for a view comes upon lies
on such a path, and paths are joined end to end. So where all paths to a name agree on its
arguments, it does not matter through which of them a type is looked at: a view of a view is the
view. Paths agree for every use of a type if they agree for the type over its own parameters,
since putting arguments in place of them carries each path over. -/

namespace TypedMustache

open JavaType

namespace TypeSystem

variable {ts : TypeSystem}

/-- Whether a path of direct supertypes leads from a use of a type up to another. -/
inductive Sees (ts : TypeSystem) : JavaType → JavaType → Prop where
  | refl (ty : JavaType) : Sees ts ty ty
  | step {ty sup view : JavaType} {name : String} (hname : ty.baseName? = some name)
      (hsup : sup ∈ ts.supertypesOf name ty.args) (h : Sees ts sup view) : Sees ts ty view

theorem Sees.trans {ty middle view : JavaType} (h : ts.Sees ty middle)
    (h' : ts.Sees middle view) : ts.Sees ty view := by
  induction h with
  | refl ty => exact h'
  | step hname hsup _ ih => exact .step hname hsup (ih h')

theorem Sees.invariant {P : JavaType → Prop}
    (hstep : ∀ ty name, P ty → ty.baseName? = some name →
      ∀ sup ∈ ts.supertypesOf name ty.args, P sup)
    {ty view : JavaType} (h : ts.Sees ty view) (hty : P ty) : P view := by
  induction h with
  | refl ty => exact hty
  | step hname hsup _ ih => exact ih (hstep _ _ hty hname _ hsup)

/-! ### Raw types -/

theorem isRaw_apply {s : Substitution} {ty : JavaType} (hty : ts.isRaw ty = false)
    (h : ∀ name, ty = .declared name → s.get? name = none) : ts.isRaw (s.apply ty) = false := by
  cases ty with
  | declared name => simpa [Substitution.apply, h name rfl] using hty
  | array element dimensions =>
    simp only [Substitution.apply]
    cases s.apply element <;> rfl
  | _ => rfl

section Views

variable (hts : ts.InheritsDeclared)
  (hraw : ∀ name, ∀ sup ∈ ts.directSupertypes name, ts.isRaw sup = false)
include hts hraw

theorem InheritsDeclared.isRaw_of_mem_supertypesOf {name : String} {args : List JavaType}
    {sup : JavaType} (h : sup ∈ ts.supertypesOf name args) : ts.isRaw sup = false := by
  obtain ⟨declared, hdeclared, rfl⟩ := List.mem_map.1 h
  exact isRaw_apply (hraw name declared hdeclared) (hts.get?_eq_none hdeclared args)

theorem InheritsDeclared.isRaw_of_sees {ty view : JavaType} (h : ts.Sees ty view)
    (hty : ts.isRaw ty = false) : ts.isRaw view = false :=
  h.invariant (P := fun ty => ts.isRaw ty = false)
    (fun _ _ _ _ _ hsup => hts.isRaw_of_mem_supertypesOf hraw hsup) hty

/-- Where nothing is raw, and so nothing is erased, a search comes upon what lies on a path. -/
theorem InheritsDeclared.sees_of_supertypeWithin {target : String} (steps : Nat)
    {ty view : JavaType} (hty : ts.isRaw ty = false)
    (h : ts.supertypeWithin target steps ty = some view) : ts.Sees ty view := by
  induction steps generalizing ty view with
  | zero => cases h
  | succ steps ih =>
    obtain ⟨name, hname, ⟨-, rfl⟩ | ⟨sup, hsup, found, hfound, rfl⟩⟩ := supertypeWithin_cases h
    · exact .refl view
    · rw [hty, if_neg Bool.false_ne_true]
      exact .step hname hsup (ih (hts.isRaw_of_mem_supertypesOf hraw hsup) hfound)

end Views

/-! ### Agreement -/

/-- Whether all paths from a use of a type to one name lead to the same use of that name. -/
def CoherentAt (ts : TypeSystem) (ty : JavaType) : Prop :=
  ∀ name view view', ts.Sees ty view → ts.Sees ty view' →
    view.baseName? = some name → view'.baseName? = some name → view = view'

section Views

variable (hts : ts.InheritsDeclared)
  (hraw : ∀ name, ∀ sup ∈ ts.directSupertypes name, ts.isRaw sup = false) (hshallow : ts.Shallow)
include hts hraw hshallow

/-- Whichever path the search takes to the target, the one through the middle agrees with it. -/
theorem InheritsDeclared.asSupertype_of_coherentAt {ty s d : JavaType}
    (hcoherent : ts.CoherentAt ty) (hty : ts.isRaw ty = false) {middle target : String}
    (hs : ts.asSupertype ty middle = some s) (hd : ts.asSupertype s target = some d) :
    ts.asSupertype ty target = some d := by
  have htyS : ts.Sees ty s := hts.sees_of_supertypeWithin hraw _ hty hs
  have hsD : ts.Sees s d :=
    hts.sees_of_supertypeWithin hraw _ (hts.isRaw_of_sees hraw htyS hty) hd
  obtain ⟨name, hname, -⟩ := supertypeWithin_cases hs
  have hmiddle : s.baseName? = some middle := baseName?_supertypeWithin _ hs
  -- the two chains of names are joined, so there is a view of the target
  have hsome : (ts.asSupertype ty target).isSome = true := by
    obtain ⟨m, -, hm⟩ := (hts.asSupertype_isSome_iff hname middle).1 (by rw [hs]; rfl)
    obtain ⟨n, -, hn⟩ := (hts.asSupertype_isSome_iff hmiddle target).1 (by rw [hd]; rfl)
    exact (hts.asSupertype_isSome_of_shallow hshallow hname target).2 ⟨m + n, hm.trans hn⟩
  obtain ⟨view, hview⟩ := Option.isSome_iff_exists.1 hsome
  have hsees : ts.Sees ty view := hts.sees_of_supertypeWithin hraw _ hty hview
  rw [hview, hcoherent target view d hsees (htyS.trans hsD) (baseName?_supertypeWithin _ hview)
    (baseName?_supertypeWithin _ hd)]

end Views

theorem asMemberOf_congr {ty s : JavaType} {m : Member}
    (h : ts.asSupertype ty m.declaringType = ts.asSupertype s m.declaringType) :
    ts.asMemberOf ty m = ts.asMemberOf s m := by
  rw [asMemberOf, asMemberOf, h]

/-- Where all paths agree, a view of a view is the view, and members are seen through a view as
they are seen from the type itself. -/
theorem asSupertype_through (hts : ts.InheritsDeclared)
    (hraw : ∀ name, ∀ sup ∈ ts.directSupertypes name, ts.isRaw sup = false)
    (hshallow : ts.Shallow) {ty s d : JavaType} (hcoherent : ts.CoherentAt ty)
    (hty : ts.isRaw ty = false) {middle target : String} (hs : ts.asSupertype ty middle = some s)
    (hd : ts.asSupertype s target = some d) :
    ts.asSupertype ty target = some d ∧
      ∀ m : Member, m.declaringType = target → ts.asMemberOf ty m = ts.asMemberOf s m := by
  have hview := hts.asSupertype_of_coherentAt hraw hshallow hcoherent hty hs hd
  refine ⟨hview, fun m hm => asMemberOf_congr ?_⟩
  rw [hm, hview, hd]

/-! ### Agreement from declarations -/

/-- Whether a use of a type has an argument for every parameter. -/
def FullyApplied (ts : TypeSystem) (ty : JavaType) : Prop :=
  ∀ name, ty.baseName? = some name → ty.args.length = (ts.parameterNames name).length

instance (ty : JavaType) : Decidable (ts.FullyApplied ty) :=
  inferInstanceAs
    (Decidable (∀ name ∈ ty.baseName?, ty.args.length = (ts.parameterNames name).length))

theorem FullyApplied.isRaw_eq_false {ty : JavaType} (h : ts.FullyApplied ty) :
    ts.isRaw ty = false := by
  cases ty with
  | declared name =>
    have hlength : 0 = (ts.parameterNames name).length := h name rfl
    rw [parameterNames, List.length_map] at hlength
    rw [isRaw, List.eq_nil_of_length_eq_zero hlength.symm]
    rfl
  | _ => rfl

theorem FullyApplied.apply {s : Substitution} {ty : JavaType} (hty : ts.FullyApplied ty)
    (h : ∀ name, ty = .declared name → s.get? name = none) : ts.FullyApplied (s.apply ty) := by
  intro name hname
  rw [Substitution.baseName?_apply h] at hname
  rw [Substitution.args_apply h, Substitution.length_applyAll]
  exact hty name hname

theorem InheritsDeclared.fullyApplied_of_mem_supertypesOf (hts : ts.InheritsDeclared)
    (hfull : ∀ name, ∀ sup ∈ ts.directSupertypes name, ts.FullyApplied sup) {name : String}
    {args : List JavaType} {sup : JavaType} (h : sup ∈ ts.supertypesOf name args) :
    ts.FullyApplied sup := by
  obtain ⟨declared, hdeclared, rfl⟩ := List.mem_map.1 h
  exact (hfull name declared hdeclared).apply (hts.get?_eq_none hdeclared args)

/-- Whether a replacement leaves alone what declarations mention besides their own parameters. -/
def SparedBy (ts : TypeSystem) (s : Substitution) : Prop :=
  ∀ name, ∀ sup ∈ ts.directSupertypes name, ∀ x ∈ sup.mentions,
    x ∈ ts.parameterNames name ∨ s.get? x = none

theorem SparedBy.supertypesOf_applyAll {s : Substitution} (hs : ts.SparedBy s) {name : String}
    {args : List JavaType} (hlength : args.length = (ts.parameterNames name).length) :
    ts.supertypesOf name (s.applyAll args) = (ts.supertypesOf name args).map s.apply := by
  rw [supertypesOf, supertypesOf, List.map_map]
  refine List.map_congr_left fun sup hsup => Substitution.apply_apply sup fun x hx => ?_
  simp only [Substitution.apply, Substitution.get?_ofParameters_applyAll]
  cases hget : (Substitution.ofParameters (ts.parameterNames name) args).get? x with
  | some arg => rfl
  | none =>
    -- a parameter would have an argument, so this is a name that is left alone
    have hspared : s.get? x = none := by
      refine (hs name sup hsup x hx).resolve_left fun hparameter => ?_
      obtain ⟨arg, harg⟩ := Substitution.exists_get?_ofParameters hparameter hlength
      rw [hget] at harg
      cases harg
    simp [Substitution.apply, hspared]

section Uses

variable {s : Substitution} (hts : ts.InheritsDeclared) (hs : ts.SparedBy s)
include hts hs

theorem SparedBy.get?_eq_none_of_mem_supertypesOf {name p : String} {args : List JavaType}
    (h : JavaType.declared p ∈ ts.supertypesOf name args) : s.get? p = none := by
  obtain ⟨sup, hsup, happly⟩ := List.mem_map.1 h
  have hkept := hts.get?_eq_none hsup args
  have hbase : sup.baseName? = some p := by
    rw [← Substitution.baseName?_apply hkept, happly]
    rfl
  cases sup with
  | declared q =>
    obtain rfl := Option.some.inj hbase
    have hmentions : q ∈ (JavaType.declared q).mentions := List.mem_singleton_self q
    exact (hs name _ hsup q hmentions).resolve_left fun hq => hts name _ hsup q hq rfl
  | generic base args => cases happly
  | _ => cases hbase

theorem SparedBy.exists_sees_of_apply
    (hfull : ∀ name, ∀ sup ∈ ts.directSupertypes name, ts.FullyApplied sup) {ty view : JavaType}
    (hty : ts.FullyApplied ty) (hname : ∀ p, ty = .declared p → s.get? p = none)
    (h : ts.Sees (s.apply ty) view) :
    ∃ original, ts.Sees ty original ∧ view = s.apply original ∧
      view.baseName? = original.baseName? := by
  generalize happly : s.apply ty = used at h
  induction h generalizing ty with
  | refl => exact ⟨ty, .refl ty, happly.symm, happly ▸ Substitution.baseName?_apply hname⟩
  | step hbase hsup _ ih =>
    subst happly
    rw [Substitution.baseName?_apply hname] at hbase
    rw [Substitution.args_apply hname, hs.supertypesOf_applyAll (hty _ hbase)] at hsup
    obtain ⟨sup, hmem, hsup⟩ := List.mem_map.1 hsup
    have hkept : ∀ p, sup = .declared p → s.get? p = none := by
      rintro p rfl
      exact hs.get?_eq_none_of_mem_supertypesOf hts hmem
    obtain ⟨original, hsees, heq⟩ :=
      ih (hts.fullyApplied_of_mem_supertypesOf hfull hmem) hkept hsup
    exact ⟨original, .step hbase hmem hsees, heq⟩

/-- Paths that agree for a type over its own parameters agree for all of its uses. -/
theorem CoherentAt.apply
    (hfull : ∀ name, ∀ sup ∈ ts.directSupertypes name, ts.FullyApplied sup) {ty : JavaType}
    (hcoherent : ts.CoherentAt ty) (hty : ts.FullyApplied ty)
    (hname : ∀ p, ty = .declared p → s.get? p = none) : ts.CoherentAt (s.apply ty) := by
  intro name view view' hview hview' hbase hbase'
  obtain ⟨a, ha, rfl, hnameA⟩ := hs.exists_sees_of_apply hts hfull hty hname hview
  obtain ⟨b, hb, rfl, hnameB⟩ := hs.exists_sees_of_apply hts hfull hty hname hview'
  rw [hcoherent name a b ha hb (hnameA ▸ hbase) (hnameB ▸ hbase')]

end Uses

section Parameters

variable (hts : ts.InheritsDeclared)
  (hfull : ∀ name, ∀ sup ∈ ts.directSupertypes name, ts.FullyApplied sup) {owner : String}
  (hparameters : (ts.parameterNames owner).Nodup)
  (hown : ∀ name, ∀ sup ∈ ts.directSupertypes name, ∀ x ∈ sup.mentions,
    x ∈ ts.parameterNames name ∨ x ∉ ts.parameterNames owner)
  (hcoherent : ts.CoherentAt (applied owner ((ts.parameterNames owner).map .declared)))
  {args : List JavaType} (hargs : args.length = (ts.parameterNames owner).length)
include hts hfull hparameters hown hcoherent hargs

/-- Paths that agree for a declaration over its own parameters agree whatever its arguments. -/
theorem CoherentAt.of_parameters : ts.CoherentAt (applied owner args) := by
  have hspared : ts.SparedBy (.ofParameters (ts.parameterNames owner) args) :=
    fun name sup hsup x hx => (hown name sup hsup x hx).imp_right fun hnot =>
      Substitution.get?_ofParameters_eq_none hnot args
  have hdeclaration :
      ts.FullyApplied (applied owner ((ts.parameterNames owner).map .declared)) := by
    intro name hname
    obtain rfl : owner = name := Option.some.inj hname
    exact List.length_map _
  have huse : (Substitution.ofParameters (ts.parameterNames owner) args).apply
      (applied owner ((ts.parameterNames owner).map .declared)) = applied owner args :=
    congrArg (JavaType.generic _) (Substitution.applyAll_ofParameters hparameters hargs)
  exact huse ▸ CoherentAt.apply hts hspared hfull hcoherent hdeclaration nofun

/-- So it is enough to compare the paths of each declaration once, over its own parameters, for a
view of a view to be the view wherever the declaration is used. -/
theorem asSupertype_through_of_parameters (hshallow : ts.Shallow) {s d : JavaType}
    {middle target : String} (hs : ts.asSupertype (applied owner args) middle = some s)
    (hd : ts.asSupertype s target = some d) :
    ts.asSupertype (applied owner args) target = some d ∧
      ∀ m : Member, m.declaringType = target →
        ts.asMemberOf (applied owner args) m = ts.asMemberOf s m := by
  have hraw : ∀ name, ∀ sup ∈ ts.directSupertypes name, ts.isRaw sup = false :=
    fun name sup hsup => (hfull name sup hsup).isRaw_eq_false
  have huse := CoherentAt.of_parameters hts hfull hparameters hown hcoherent hargs
  have hview := hts.asSupertype_of_coherentAt hraw hshallow huse rfl hs hd
  refine ⟨hview, fun m hm => asMemberOf_congr ?_⟩
  rw [hm, hview, hd]

end Parameters

theorem coherentAt_of_views (views : List JavaType) {ty : JavaType} (hty : ty ∈ views)
    (hclosed : ∀ view ∈ views, ∀ name ∈ view.baseName?,
      ∀ sup ∈ ts.supertypesOf name view.args, sup ∈ views)
    (hunique : ∀ view ∈ views, ∀ view' ∈ views, view.baseName? = view'.baseName? → view = view') :
    ts.CoherentAt ty := by
  have hmem : ∀ view, ts.Sees ty view → view ∈ views := fun view h =>
    h.invariant (P := (· ∈ views)) (fun view name hview hname => hclosed view hview name hname) hty
  intro name view view' hview hview' hname hname'
  exact hunique view (hmem view hview) view' (hmem view' hview') (hname.trans hname'.symm)

end TypeSystem

/-! ### Streams

A stage takes in what it draws from a source and hands on something else. A stage run in reverse
is a source of what the stage hands on, which is said twice. -/

namespace Streams

def getNext : Member :=
  { name := "getNext", kind := .method, declaringType := "Source", type := .declared "T",
    parameters := some [], modifiers := ["public"] }

def table : ClassTable :=
  (({} : ClassTable).addInterface "Source" ["T"]).addMember getNext
    |>.addInterface "Stage" ["T", "E"]
    |>.implement "Stage" (applied "Source" [.declared "E"])
    |>.addInterface "Reverse" ["T", "E"]
    |>.implement "Reverse" (applied "Stage" [.declared "E", .declared "T"])
    |>.implement "Reverse" (applied "Source" [.declared "T"])

def types : TypeSystem := table.toTypeSystem

def reverse : JavaType :=
  applied "Reverse" [.declared "java.lang.String", .declared "java.lang.Integer"]

theorem inheritsDeclared : types.InheritsDeclared :=
  ClassTable.inheritsDeclared_toTypeSystem (by decide +kernel)

theorem shallow : types.Shallow :=
  ClassTable.shallow_toTypeSystem ["Source", "Stage", "Reverse"] (by decide) (by decide +kernel)

theorem fullyApplied : ∀ name, ∀ sup ∈ types.directSupertypes name, types.FullyApplied sup :=
  ClassTable.forall_directSupertypes (by decide +kernel)

theorem isRaw_directSupertypes (name : String) :
    ∀ sup ∈ types.directSupertypes name, types.isRaw sup = false :=
  fun sup hsup => (fullyApplied name sup hsup).isRaw_eq_false

theorem mentions_directSupertypes : ∀ name, ∀ sup ∈ types.directSupertypes name,
    ∀ x ∈ sup.mentions, x ∈ types.parameterNames name ∨ x ∉ types.parameterNames "Reverse" :=
  ClassTable.forall_directSupertypes (P := fun name sup => ∀ x ∈ sup.mentions,
    x ∈ types.parameterNames name ∨ x ∉ types.parameterNames "Reverse") (by decide +kernel)

theorem coherentAt_reverse : types.CoherentAt reverse := by
  have hcoherent : types.CoherentAt (applied "Reverse" [.declared "T", .declared "E"]) :=
    TypeSystem.coherentAt_of_views [applied "Reverse" [.declared "T", .declared "E"],
      applied "Stage" [.declared "E", .declared "T"], applied "Source" [.declared "T"]]
      (by decide +kernel) (by decide +kernel) (by decide +kernel)
  exact TypeSystem.CoherentAt.of_parameters inheritsDeclared fullyApplied (by decide)
    mentions_directSupertypes hcoherent rfl

end Streams

namespace TypeSystem

/-- A stage in reverse gives what it gives as a stage. -/
theorem asSupertype_through_reverse :
    Streams.types.InheritsDeclared ∧
      (∀ name, ∀ sup ∈ Streams.types.directSupertypes name, Streams.types.isRaw sup = false) ∧
      Streams.types.Shallow ∧ Streams.types.CoherentAt Streams.reverse ∧
      Streams.types.asSupertype Streams.reverse "Stage" =
        some (applied "Stage" [declared "java.lang.Integer", declared "java.lang.String"]) ∧
      Streams.types.asSupertype Streams.reverse "Source" =
        some (applied "Source" [declared "java.lang.String"]) ∧
      Streams.types.asMemberOf Streams.reverse Streams.getNext =
        Streams.types.asMemberOf
          (applied "Stage" [declared "java.lang.Integer", declared "java.lang.String"])
          Streams.getNext := by
  have hstage : Streams.types.asSupertype Streams.reverse "Stage" =
      some (applied "Stage" [declared "java.lang.Integer", declared "java.lang.String"]) := by
    decide +kernel
  have hsource : Streams.types.asSupertype
      (applied "Stage" [declared "java.lang.Integer", declared "java.lang.String"]) "Source" =
        some (applied "Source" [declared "java.lang.String"]) := by
    decide +kernel
  have hthrough := asSupertype_through Streams.inheritsDeclared Streams.isRaw_directSupertypes
    Streams.shallow Streams.coherentAt_reverse rfl hstage hsource
  exact ⟨Streams.inheritsDeclared, Streams.isRaw_directSupertypes, Streams.shallow,
    Streams.coherentAt_reverse, hstage, hthrough.1, hthrough.2 Streams.getNext rfl⟩

end TypeSystem

end TypedMustache
