import TypedMustache.Proofs.Paths

/-! Type parameters stay where they are declared. A declaration mentions its own parameters and
names that are no parameter of anything, and a use of it has an argument for each parameter. So
what is inherited from a use without parameters is without parameters on every level of the
hierarchy, and so are the members. A type that bears the name of a parameter is seen as itself
all the same. -/

namespace TypedMustache

open JavaType

namespace TypeSystem

variable {ts : TypeSystem}

/-- Whether a type is declared with a parameter of that name. -/
def IsParameter (ts : TypeSystem) (x : String) : Prop := ∃ name, x ∈ ts.parameterNames name

/-- Whether no name in the type is the name of a parameter. -/
def Closed (ts : TypeSystem) (ty : JavaType) : Prop := ∀ x ∈ ty.mentions, ¬ts.IsParameter x

/-- Whether a declaration with parameters of its own may mention the type. -/
structure ScopedTo (ts : TypeSystem) (own : List String) (ty : JavaType) : Prop where
  mentions : ∀ x ∈ ty.mentions, x ∈ own ∨ ¬ts.IsParameter x
  bases : ∀ base ∈ ty.bases, ts.Closed base

/-- Declarations mention no parameters but their own. -/
structure Scoped (ts : TypeSystem) : Prop where
  supertypes : ∀ name, ∀ sup ∈ ts.directSupertypes name, ts.ScopedTo (ts.parameterNames name) sup
  members : ∀ name, ∀ m ∈ ts.members name, ts.ScopedTo (ts.parameterNames name) m.type

theorem Closed.args {ty : JavaType} (h : ts.Closed ty) : ∀ arg ∈ ty.args, ts.Closed arg := by
  cases ty with
  | generic base args =>
    intro arg harg x hx
    exact h x (List.mem_append_right _ (mem_mentionsAll.2 ⟨arg, harg, hx⟩))
  | _ => nofun

/-- A use with closed arguments is closed, unless it is the name of a parameter itself. -/
theorem not_closed_iff {ty : JavaType} {name : String} (hname : ty.baseName? = some name)
    (hargs : ∀ arg ∈ ty.args, ts.Closed arg) (hbases : ∀ base ∈ ty.bases, ts.Closed base) :
    ¬ts.Closed ty ↔ ty = .declared name ∧ ts.IsParameter name := by
  cases ty with
  | declared x =>
    obtain rfl := Option.some.inj hname
    simp [Closed, mentions]
  | generic base args =>
    have hclosed : ts.Closed (.generic base args) := by
      intro x hx
      rcases List.mem_append.1 hx with hx | hx
      · exact hbases base List.mem_cons_self x hx
      · obtain ⟨arg, harg, hx⟩ := mem_mentionsAll.1 hx
        exact hargs arg harg x hx
    exact iff_of_false (fun hopen => hopen hclosed) nofun
  | _ => cases hname

theorem ScopedTo.closed_apply {own : List String} {args : List JavaType} {ty : JavaType}
    (hty : ts.ScopedTo own ty) (hlength : args.length = own.length)
    (hargs : ∀ arg ∈ args, ts.Closed arg) :
    ts.Closed ((Substitution.ofParameters own args).apply ty) := by
  intro x hx hparameter
  rcases Substitution.mem_mentions_apply ty hx with ⟨y, -, arg, harg, hx⟩ | ⟨hx, hnone⟩ |
    ⟨base, hbase, hx⟩
  · have hmem := Substitution.mem_of_get?_ofParameters harg
    exact hargs arg hmem.2 x hx hparameter
  · have hown := (hty.mentions x hx).resolve_right fun h => h hparameter
    obtain ⟨arg, harg⟩ := Substitution.exists_get?_ofParameters hown hlength
    rw [hnone] at harg
    cases harg
  · exact hty.bases base hbase x hx hparameter

theorem Scoped.closed_of_sees (hscoped : ts.Scoped) (hts : ts.InheritsDeclared)
    (hfull : ∀ name, ∀ sup ∈ ts.directSupertypes name, ts.FullyApplied sup) {ty view : JavaType}
    (h : ts.Sees ty view) (hty : ts.FullyApplied ty) (hargs : ∀ arg ∈ ty.args, ts.Closed arg) :
    ts.FullyApplied view ∧ (∀ arg ∈ view.args, ts.Closed arg) ∧ (view = ty ∨ ts.Closed view) := by
  refine h.invariant (P := fun view => ts.FullyApplied view ∧ (∀ arg ∈ view.args, ts.Closed arg) ∧
    (view = ty ∨ ts.Closed view)) ?_ ⟨hty, hargs, .inl rfl⟩
  rintro middle name ⟨hmiddle, hclosed, -⟩ hname sup hsup
  have hfullSup := hts.fullyApplied_of_mem_supertypesOf hfull hsup
  obtain ⟨declared, hdeclared, rfl⟩ := List.mem_map.1 hsup
  have hclosedSup :=
    (hscoped.supertypes name declared hdeclared).closed_apply (hmiddle name hname) hclosed
  exact ⟨hfullSup, hclosedSup.args, .inr hclosedSup⟩

theorem Scoped.closed_asMemberOf (hscoped : ts.Scoped) {ty view : JavaType} {owner : String}
    {m : Member} (hm : m ∈ ts.members owner) (howner : m.declaringType = owner)
    (hview : ts.asSupertype ty owner = some view) (hfullView : ts.FullyApplied view)
    (hargs : ∀ arg ∈ view.args, ts.Closed arg) : ts.Closed (ts.asMemberOf ty m) := by
  subst howner
  have hscope := hscoped.members _ m hm
  have hlength := hfullView _ (baseName?_supertypeWithin _ hview)
  rw [asMemberOf, hview]
  cases hparameters : ts.parameters m.declaringType with
  | nil =>
    rw [parameterNames, hparameters] at hscope
    intro x hx
    exact (hscope.mentions x hx).resolve_left List.not_mem_nil
  | cons p ps =>
    rw [parameterNames, hparameters] at hscope hlength
    cases view with
    | generic base args => exact hscope.closed_apply hlength hargs
    | _ => cases hlength

/-- What is inherited from a use with closed arguments is closed, and so are the members that it
has or inherits. The one exception is a type that bears the name of a parameter: it is its own
view. -/
theorem closed_views (hts : ts.InheritsDeclared)
    (hfull : ∀ name, ∀ sup ∈ ts.directSupertypes name, ts.FullyApplied sup)
    (hshallow : ts.Shallow) (hscoped : ts.Scoped) {ty : JavaType} {name : String}
    (hname : ty.baseName? = some name) (hty : ts.FullyApplied ty)
    (hargs : ∀ arg ∈ ty.args, ts.Closed arg) (hbases : ∀ base ∈ ty.bases, ts.Closed base) :
    (∀ target view, ts.asSupertype ty target = some view →
      (¬ts.Closed view ↔ ty = .declared target ∧ ts.IsParameter target)) ∧
    ∀ owner, owner = name ∨ owner ∈ ts.ancestors name → ∀ m ∈ ts.members owner,
      m.declaringType = owner → ts.Closed (ts.asMemberOf ty m) := by
  have hraw : ∀ name, ∀ sup ∈ ts.directSupertypes name, ts.isRaw sup = false :=
    fun name sup hsup => (hfull name sup hsup).isRaw_eq_false
  have hsees {target : String} {view : JavaType} (hview : ts.asSupertype ty target = some view) :
      ts.Sees ty view :=
    hts.sees_of_supertypeWithin hraw _ hty.isRaw_eq_false hview
  constructor
  · intro target view hview
    constructor
    · intro hopen
      have hclosed := hscoped.closed_of_sees hts hfull (hsees hview) hty hargs
      obtain rfl := hclosed.2.2.resolve_right hopen
      exact (not_closed_iff (baseName?_supertypeWithin _ hview) hargs hbases).1 hopen
    · rintro ⟨rfl, hparameter⟩
      rw [asSupertype_self rfl] at hview
      obtain rfl := Option.some.inj hview
      exact (not_closed_iff rfl hargs hbases).2 ⟨rfl, hparameter⟩
  · intro owner howner m hm hdeclaring
    have habove : ∃ n, ts.Above n name owner :=
      eq_or_mem_ancestors_iff.1 (howner.imp_left Eq.symm)
    obtain ⟨view, hview⟩ := Option.isSome_iff_exists.1
      ((hts.asSupertype_isSome_of_shallow hshallow hname owner).2 habove)
    obtain ⟨hfullView, hargsView, -⟩ :=
      hscoped.closed_of_sees hts hfull (hsees hview) hty hargs
    exact hscoped.closed_asMemberOf hm hdeclaring hview hfullView hargsView

end TypeSystem

/-! ### Class tables -/

namespace TypeSystem

variable {ts : TypeSystem} [DecidablePred ts.IsParameter]

instance (ty : JavaType) : Decidable (ts.Closed ty) :=
  inferInstanceAs (Decidable (∀ x ∈ ty.mentions, ¬ts.IsParameter x))

instance (own : List String) (ty : JavaType) : Decidable (ts.ScopedTo own ty) :=
  decidable_of_iff
    ((∀ x ∈ ty.mentions, x ∈ own ∨ ¬ts.IsParameter x) ∧ ∀ base ∈ ty.bases, ts.Closed base)
    ⟨fun h => ⟨h.1, h.2⟩, fun h => ⟨h.mentions, h.bases⟩⟩

end TypeSystem

namespace ClassTable

variable {t : ClassTable}

theorem isParameter_iff {x : String} : t.toTypeSystem.IsParameter x ↔
    ∃ info ∈ t.types, x ∈ t.toTypeSystem.parameterNames info.name := by
  constructor
  · rintro ⟨name, hx⟩
    have hfind : t.toTypeSystem.typeInfo? name = t.types.find? (·.name = name) := rfl
    cases hinfo : t.types.find? (·.name = name) with
    | none =>
      rw [TypeSystem.parameterNames, TypeSystem.parameters, hfind, hinfo] at hx
      cases hx
    | some info =>
      have hname : info.name = name := by simpa using List.find?_some hinfo
      exact ⟨info, List.mem_of_find?_eq_some hinfo, hname ▸ hx⟩
  · rintro ⟨info, -, hx⟩
    exact ⟨info.name, hx⟩

instance : DecidablePred t.toTypeSystem.IsParameter :=
  fun _ => decidable_of_iff' _ isParameter_iff

theorem scoped_toTypeSystem
    (hsupertypes : ∀ entry ∈ t.supertypes, ∀ ty ∈ entry.2.all,
      t.toTypeSystem.ScopedTo (t.toTypeSystem.parameterNames entry.1) ty)
    (hmembers : ∀ m ∈ t.members,
      t.toTypeSystem.ScopedTo (t.toTypeSystem.parameterNames m.declaringType) m.type) :
    t.toTypeSystem.Scoped where
  supertypes := forall_directSupertypes hsupertypes
  members := by
    intro name m hm
    obtain ⟨hmem, hname⟩ := List.mem_filter.1 hm
    rw [← of_decide_eq_true hname]
    exact hmembers m hmem

end ClassTable

namespace Streams

instance : DecidablePred types.IsParameter :=
  inferInstanceAs (DecidablePred table.toTypeSystem.IsParameter)

theorem types_scoped : types.Scoped :=
  ClassTable.scoped_toTypeSystem (by decide +kernel) (by decide +kernel)

end Streams

namespace TypeSystem

/-- A stage in reverse, of strings, is a source of strings, which gives strings. -/
theorem closed_views_reverse :
    Streams.types.InheritsDeclared ∧
      (∀ name, ∀ sup ∈ Streams.types.directSupertypes name, Streams.types.FullyApplied sup) ∧
      Streams.types.Shallow ∧ Streams.types.Scoped ∧
      Streams.reverse.baseName? = some "Reverse" ∧ Streams.types.FullyApplied Streams.reverse ∧
      (∀ arg ∈ Streams.reverse.args, Streams.types.Closed arg) ∧
      (∀ base ∈ Streams.reverse.bases, Streams.types.Closed base) ∧
      Streams.types.Closed (applied "Source" [.declared "java.lang.String"]) ∧
      Streams.types.Closed (Streams.types.asMemberOf Streams.reverse Streams.getNext) := by
  have hname : Streams.reverse.baseName? = some "Reverse" := rfl
  have hty : Streams.types.FullyApplied Streams.reverse := by decide +kernel
  have hargs : ∀ arg ∈ Streams.reverse.args, Streams.types.Closed arg := by decide +kernel
  have hbases : ∀ base ∈ Streams.reverse.bases, Streams.types.Closed base := by decide +kernel
  have hsource : Streams.types.asSupertype Streams.reverse "Source" =
      some (applied "Source" [.declared "java.lang.String"]) := by
    decide +kernel
  obtain ⟨hviews, hmembers⟩ := closed_views Streams.inheritsDeclared Streams.fullyApplied
    Streams.shallow Streams.types_scoped hname hty hargs hbases
  refine ⟨Streams.inheritsDeclared, Streams.fullyApplied, Streams.shallow, Streams.types_scoped,
    hname, hty, hargs, hbases, ?_, ?_⟩
  · by_contra hopen
    obtain ⟨heq, -⟩ := (hviews "Source" _ hsource).1 hopen
    cases heq
  · exact hmembers "Source" (by decide +kernel) Streams.getNext (by decide +kernel) rfl

end TypeSystem

/-! ### A class named like a parameter -/

namespace Boxes

def table : ClassTable :=
  (({} : ClassTable).addClass objectName).addClass "T" |>.addClass "Box" none ["T"]

def types : TypeSystem := table.toTypeSystem

instance : DecidablePred types.IsParameter :=
  inferInstanceAs (DecidablePred table.toTypeSystem.IsParameter)

end Boxes

namespace TypeSystem

/-- The class that is named like the parameter of boxes is its own view, and so its name is
mentioned in a view. -/
theorem closed_views_class_named_like_parameter :
    Boxes.types.InheritsDeclared ∧
      (∀ name, ∀ sup ∈ Boxes.types.directSupertypes name, Boxes.types.FullyApplied sup) ∧
      Boxes.types.Shallow ∧ Boxes.types.Scoped ∧
      Boxes.types.parameterNames "T" = [] ∧ Boxes.types.parameterNames "Box" = ["T"] ∧
      (declared "T").args = [] ∧ (declared "T").bases = [] ∧
      Boxes.types.asSupertype (.declared "T") "T" = some (.declared "T") ∧
      ¬Boxes.types.Closed (.declared "T") := by
  refine ⟨ClassTable.inheritsDeclared_toTypeSystem (by decide +kernel),
    ClassTable.forall_directSupertypes (by decide +kernel),
    ClassTable.shallow_toTypeSystem [objectName, "T", "Box"] (by decide) (by decide +kernel),
    ClassTable.scoped_toTypeSystem (by decide +kernel) (by decide +kernel), ?_⟩
  decide +kernel

end TypeSystem

end TypedMustache
