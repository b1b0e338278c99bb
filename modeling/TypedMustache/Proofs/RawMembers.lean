import TypedMustache.Proofs.Scoping

/-! Members of generic types that are used without arguments. The first bound of each parameter
takes its place, all at once, and the result is erased. That leaves neither arguments nor wildcards,
and at most one name. A parameter is left if it is what the first bound of another one comes to,
such as `T` for `U extends T`, since a bound that was put in place is not replaced again. With a
bound such as `Comparable<T>` the erasure drops the parameter. -/

namespace TypedMustache

open JavaType

namespace JavaType

/-! ### Erased types -/

theorem bases_erasure : ∀ ty : JavaType, ty.erasure.bases = []
  | .generic base _ => bases_erasure base
  | .array element _ => bases_erasure element
  | .bounded .upper bound => bases_erasure bound
  | .bounded .lower _ => rfl
  | .wildcard _ => rfl
  | .primitive _ => rfl
  | .declared _ => rfl
  | .unknown => rfl

theorem hasWildcard_erasure : ∀ ty : JavaType, ty.erasure.hasWildcard = false
  | .generic base _ => hasWildcard_erasure base
  | .array element _ => hasWildcard_erasure element
  | .bounded .upper bound => hasWildcard_erasure bound
  | .bounded .lower _ => rfl
  | .wildcard _ => rfl
  | .primitive _ => rfl
  | .declared _ => rfl
  | .unknown => rfl

theorem mem_mentions_of_erasure {x : String} :
    ∀ ty : JavaType, x ∈ ty.erasure.mentions → x ∈ ty.mentions ∨ x = objectName
  | .generic base _, h => (mem_mentions_of_erasure base h).imp_left (List.mem_append_left _)
  | .array element _, h => mem_mentions_of_erasure element h
  | .bounded .upper bound, h => mem_mentions_of_erasure bound h
  | .bounded .lower _, h => .inr (List.mem_singleton.1 h)
  | .wildcard _, h => .inr (List.mem_singleton.1 h)
  | .primitive _, h => by cases h
  | .declared _, h => .inl h
  | .unknown, h => by cases h

end JavaType

namespace Substitution

variable {s : Substitution}

theorem mentions_erasure_arrayOver (element : JavaType) (dimensions : Nat) :
    (arrayOver element dimensions).erasure.mentions = element.erasure.mentions := by
  cases element <;> rfl

/-- The names that are left where names are replaced and the result is erased. -/
def erasedNames (s : Substitution) (names : List String) : List String :=
  names.flatMap fun name => (s.apply (.declared name)).erasure.mentions

theorem erasedNames_eq_self {names : List String} (h : ∀ y ∈ names, s.get? y = none) :
    s.erasedNames names = names := by
  induction names with
  | nil => rfl
  | cons y names ih =>
    obtain ⟨hy, hnames⟩ := List.forall_mem_cons.1 h
    have hhead : (s.apply (.declared y)).erasure.mentions = [y] := by
      rw [apply, hy]
      rfl
    rw [erasedNames, List.flatMap_cons, hhead, ← erasedNames, ih hnames]
    rfl

/-- The name that is left of a type comes from the one that erasure leaves of it, as long as no
base is replaced. -/
theorem mentions_erasure_apply (hobject : s.get? objectName = none) : ∀ ty : JavaType,
    (∀ base ∈ ty.bases, ∀ y ∈ base.mentions, s.get? y = none) →
      (s.apply ty).erasure.mentions = s.erasedNames ty.erasure.mentions
  | .declared name, _ => (List.append_nil _).symm
  | .generic base args, h => by
    refine (erasedNames_eq_self ?_).symm
    intro y hy
    rcases mem_mentions_of_erasure base hy with hy | rfl
    · exact h base List.mem_cons_self y hy
    · exact hobject
  | .array element dimensions, h => by
    rw [apply, mentions_erasure_arrayOver]
    exact mentions_erasure_apply hobject element h
  | .bounded .upper bound, h => mentions_erasure_apply hobject bound h
  | .bounded .lower bound, _ => (erasedNames_eq_self (List.forall_mem_singleton.2 hobject)).symm
  | .wildcard _, _ => (erasedNames_eq_self (List.forall_mem_singleton.2 hobject)).symm
  | .primitive _, _ => rfl
  | .unknown, _ => rfl

end Substitution

namespace TypeSystem

variable {ts : TypeSystem}

/-- What takes the place of the parameters where a type is used without arguments. -/
def firstBounds (ts : TypeSystem) (owner : String) : Substitution :=
  .ofParameters (ts.parameterNames owner) ((ts.parameters owner).map TypeParameter.firstBound)

theorem asMemberOf_raw {owner : String} {m : Member} (howner : m.declaringType = owner)
    (hparameters : ts.parameters owner ≠ []) :
    ts.asMemberOf (.declared owner) m = ((ts.firstBounds owner).apply m.type).erasure := by
  subst howner
  obtain ⟨p, ps, hcons⟩ := List.exists_cons_of_ne_nil hparameters
  rw [asMemberOf, asSupertype_self rfl, firstBounds, parameterNames, hcons]

theorem exists_firstBound {owner x : String} (hx : x ∈ ts.parameterNames owner) :
    ∃ bound, (ts.firstBounds owner).get? x = some bound :=
  Substitution.exists_get?_ofParameters hx (by simp [parameterNames])

theorem exists_parameter_of_firstBounds {owner x : String} {bound : JavaType}
    (h : (ts.firstBounds owner).get? x = some bound) :
    ∃ p ∈ ts.parameters owner, p.name = x ∧ p.firstBound = bound := by
  have hmem := Substitution.mem_zip_of_get?_ofParameters h
  rw [parameterNames, List.zip_map', List.mem_map] at hmem
  obtain ⟨p, hp, hentry⟩ := hmem
  obtain ⟨hname, hbound⟩ := Prod.mk.inj hentry
  exact ⟨p, hp, hname, hbound⟩

theorem firstBounds_eq_none {owner x : String} (hx : ¬ts.IsParameter x) :
    (ts.firstBounds owner).get? x = none := by
  by_contra hsome
  obtain ⟨bound, hbound⟩ := Option.ne_none_iff_exists'.1 hsome
  obtain ⟨p, hp, rfl, -⟩ := exists_parameter_of_firstBounds hbound
  exact hx ⟨owner, List.mem_map_of_mem hp⟩

/-- Without arguments a type's member is of a type without arguments and wildcards. A parameter is
left in it exactly if it is left of the first bound of what is left of the member's own type. -/
theorem mem_mentions_raw_member_iff (hobject : ¬ts.IsParameter objectName) {owner : String}
    {m : Member} (howner : m.declaringType = owner) (hparameters : ts.parameters owner ≠ [])
    (hm : ts.ScopedTo (ts.parameterNames owner) m.type) :
    (ts.asMemberOf (.declared owner) m).bases = [] ∧
      (ts.asMemberOf (.declared owner) m).hasWildcard = false ∧
      ∀ x ∈ ts.parameterNames owner, x ∈ (ts.asMemberOf (.declared owner) m).mentions ↔
        ∃ y ∈ m.type.erasure.mentions, ∃ bound, (ts.firstBounds owner).get? y = some bound ∧
          x ∈ bound.erasure.mentions := by
  rw [asMemberOf_raw howner hparameters]
  refine ⟨bases_erasure _, hasWildcard_erasure _, ?_⟩
  intro x hx
  have hbases : ∀ base ∈ m.type.bases, ∀ y ∈ base.mentions, (ts.firstBounds owner).get? y = none :=
    fun base hbase y hy => firstBounds_eq_none (hm.bases base hbase y hy)
  rw [Substitution.mentions_erasure_apply (firstBounds_eq_none hobject) m.type hbases,
    Substitution.erasedNames, List.mem_flatMap]
  refine exists_congr fun y => and_congr_right fun _ => ?_
  cases hbound : (ts.firstBounds owner).get? y with
  | some bound => simp [Substitution.apply, hbound]
  | none =>
    -- a name that is not replaced is no parameter, so it is not `x`
    obtain ⟨bound, hx⟩ := exists_firstBound hx
    have hne : x ≠ y := by
      rintro rfl
      rw [hbound] at hx
      cases hx
    simp [Substitution.apply, hbound, erasure, mentions, hne]

theorem isParameter_redeclare {info : TypeInfo} {x : String}
    (h : (ts.redeclare info).IsParameter x) :
    x ∈ info.parameters.map TypeParameter.name ∨ ts.IsParameter x := by
  obtain ⟨name, hx⟩ := h
  by_cases hname : name = info.name
  · left
    simpa [parameterNames, parameters, redeclare, hname] using hx
  · right
    refine ⟨name, ?_⟩
    simpa [parameterNames, parameters, redeclare, hname] using hx

end TypeSystem

/-! ### Pairs

The first one can be compared with others of its kind, and the second one is of that kind, too. -/

namespace Pairs

def table : ClassTable :=
  (({} : ClassTable).addClass objectName).addClass "Pair" none ["T", "U"]
    |>.addMethod "Pair" "getFirst" (.declared "T")
    |>.addMethod "Pair" "getSecond" (.declared "U")

/-- The parameters with their bounds. -/
def parameters : List TypeParameter :=
  [⟨"T", [applied "java.lang.Comparable" [.declared "T"]]⟩, ⟨"U", [.declared "T"]⟩]

def types : TypeSystem := table.toTypeSystem.redeclare ⟨"Pair", .ordinary, ["public"], parameters⟩

def getter (name : String) (type : JavaType) : Member :=
  { name, kind := .method, declaringType := "Pair", type, parameters := some [],
    modifiers := ["public"] }

def getFirst : Member := getter "getFirst" (.declared "T")

def getSecond : Member := getter "getSecond" (.declared "U")

theorem not_isParameter_object : ¬types.IsParameter objectName := by
  intro h
  rcases TypeSystem.isParameter_redeclare h with h | h
  · exact absurd h (by decide)
  · exact absurd h (by decide +kernel)

theorem scopedTo_parameter {x : String} (h : x ∈ types.parameterNames "Pair") :
    types.ScopedTo (types.parameterNames "Pair") (.declared x) where
  mentions := List.forall_mem_singleton.2 (.inl h)
  bases := List.forall_mem_nil _

end Pairs

namespace TypeSystem

/-- The second of a pair without arguments is of the type that the first one has in a pair. -/
theorem mem_mentions_raw_member_iff_second :
    ¬Pairs.types.IsParameter objectName ∧ Pairs.getSecond.declaringType = "Pair" ∧
      Pairs.types.parameters "Pair" ≠ [] ∧
      Pairs.types.ScopedTo (Pairs.types.parameterNames "Pair") Pairs.getSecond.type ∧
      (Pairs.types.asMemberOf (.declared "Pair") Pairs.getSecond).bases = [] ∧
      "T" ∈ (Pairs.types.asMemberOf (.declared "Pair") Pairs.getSecond).mentions ∧
      "U" ∉ (Pairs.types.asMemberOf (.declared "Pair") Pairs.getSecond).mentions := by
  have howner : Pairs.getSecond.declaringType = "Pair" := rfl
  have hparameters : Pairs.types.parameters "Pair" ≠ [] := by decide +kernel
  have hT : "T" ∈ Pairs.types.parameterNames "Pair" := by decide +kernel
  have hU : "U" ∈ Pairs.types.parameterNames "Pair" := by decide +kernel
  have hscoped : Pairs.types.ScopedTo (Pairs.types.parameterNames "Pair") Pairs.getSecond.type :=
    Pairs.scopedTo_parameter hU
  have hbound : (Pairs.types.firstBounds "Pair").get? "U" = some (.declared "T") := by
    decide +kernel
  obtain ⟨hbases, -, hleft⟩ :=
    mem_mentions_raw_member_iff Pairs.not_isParameter_object howner hparameters hscoped
  refine ⟨Pairs.not_isParameter_object, howner, hparameters, hscoped, hbases,
    (hleft "T" hT).2 ?_, ?_⟩
  · exact ⟨"U", List.mem_singleton_self _, .declared "T", hbound, List.mem_singleton_self _⟩
  · intro h
    obtain ⟨y, hy, bound, hy', hx⟩ := (hleft "U" hU).1 h
    obtain rfl : y = "U" := List.mem_singleton.1 hy
    obtain rfl := Option.some.inj (hbound.symm.trans hy')
    exact absurd hx (by decide)

/-- A pair without arguments is one whose second one is of a parameter of pairs. -/
theorem raw_second_eq_parameter :
    Pairs.types.parameters "Pair" = Pairs.parameters ∧
      Pairs.getSecond ∈ Pairs.types.members "Pair" ∧
      Pairs.getSecond.type.mentions = ["U"] ∧ Pairs.types.parameterNames "Pair" = ["T", "U"] ∧
      Pairs.types.asMemberOf (.declared "Pair") Pairs.getSecond = .declared "T" ∧
      Pairs.types.asMemberOf (.declared "Pair") Pairs.getFirst =
        .declared "java.lang.Comparable" := by
  decide +kernel

end TypeSystem

end TypedMustache
