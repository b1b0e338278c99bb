import TypedMustache.ClassTable.Basic

/-! Tables that are built up by calls in any order. A call that gives an interface to a type adds
it behind those that the type has, whether the type has been declared or not, and a call that
declares a type leaves it without interfaces. So the interfaces of a type are those that were given
to it after its last declaration, and all of them exactly if none was given before any. -/

namespace TypedMustache.ClassTable

/-- A call that adds to a table. -/
inductive Edit where
  | addClass (name : String) (superclass : Option JavaType) (parameters : List String)
  | addInterface (name : String) (parameters : List String)
  | addRenderable (name : String)
  | implement (name : String) (interface : JavaType)
  | addMember (d : Member)
  | addField (owner name : String) (type : JavaType)
  | addMethod (owner name : String) (type : JavaType) (parameters : List (String × JavaType))
      (throws : List JavaType)

namespace Edit

def run (t : ClassTable) : Edit → ClassTable
  | .addClass name superclass parameters => t.addClass name superclass parameters
  | .addInterface name parameters => t.addInterface name parameters
  | .addRenderable name => t.addRenderable name
  | .implement name interface => t.implement name interface
  | .addMember d => t.addMember d
  | .addField owner name type => t.addField owner name type
  | .addMethod owner name type parameters throws => t.addMethod owner name type parameters throws

/-- The type that the call declares. -/
def declared? : Edit → Option String
  | .addClass name _ _ => some name
  | .addInterface name _ => some name
  | .addRenderable name => some name
  | _ => none

/-- The interface that the call gives to a type. -/
def given? (name : String) : Edit → Option JavaType
  | .implement other interface => if other = name then some interface else none
  | _ => none

end Edit

/-- The table that calls build from nothing. -/
def build (edits : List Edit) : ClassTable := edits.foldl Edit.run {}

/-- The interfaces that calls give to a type, in their order. -/
def given (name : String) (edits : List Edit) : List JavaType := edits.filterMap (·.given? name)

/-! ### One call -/

variable {name : String}

theorem interfaces_declare (t : ClassTable) (kind : TypeKind) (other : String)
    (superclass : Option JavaType) (parameters : List String) :
    (t.declare kind other superclass parameters).toTypeSystem.interfaces name =
      if other = name then [] else t.toTypeSystem.interfaces name := by
  by_cases h : other = name
  · subst h
    simp [toTypeSystem, supertypesOf, declare]
  · simp [toTypeSystem, supertypesOf, declare, List.lookup_cons, beq_false_of_ne (Ne.symm h), h]

theorem interfaces_implement (t : ClassTable) (other : String) (interface : JavaType) :
    (t.implement other interface).toTypeSystem.interfaces name =
      t.toTypeSystem.interfaces name ++ if other = name then [interface] else [] := by
  by_cases h : other = name
  · subst h
    simp [toTypeSystem, supertypesOf, implement]
  · simp [toTypeSystem, supertypesOf, implement, List.lookup_cons, beq_false_of_ne (Ne.symm h), h]

theorem interfaces_addMember (t : ClassTable) (d : Member) :
    (t.addMember d).toTypeSystem.interfaces name = t.toTypeSystem.interfaces name := rfl

/-- A declaration leaves a type without interfaces, and every other call adds what it gives. -/
theorem interfaces_run (t : ClassTable) (e : Edit) :
    (e.run t).toTypeSystem.interfaces name =
      if e.declared? = some name then []
      else t.toTypeSystem.interfaces name ++ (e.given? name).toList := by
  cases e with
  | addClass other superclass parameters =>
    simp [Edit.run, Edit.declared?, Edit.given?, addClass, interfaces_declare]
  | addInterface other parameters =>
    simp [Edit.run, Edit.declared?, Edit.given?, addInterface, interfaces_declare]
  | addRenderable other =>
    simp [Edit.run, Edit.declared?, Edit.given?, addRenderable, addInterface, interfaces_declare]
  | implement other interface =>
    simp only [Edit.run, Edit.declared?, Edit.given?, interfaces_implement]
    split <;> simp
  | addMember d => simp [Edit.run, Edit.declared?, Edit.given?, interfaces_addMember]
  | addField owner field type =>
    simp [Edit.run, Edit.declared?, Edit.given?, addField, interfaces_addMember]
  | addMethod owner method type parameters throws =>
    simp [Edit.run, Edit.declared?, Edit.given?, addMethod, interfaces_addMember]

/-! ### All calls -/

theorem interfaces_foldl {edits : List Edit} (h : ∀ e ∈ edits, e.declared? ≠ some name)
    (t : ClassTable) :
    (edits.foldl Edit.run t).toTypeSystem.interfaces name =
      t.toTypeSystem.interfaces name ++ given name edits := by
  induction edits generalizing t with
  | nil => exact (List.append_nil _).symm
  | cons e edits ih =>
    obtain ⟨he, hedits⟩ := List.forall_mem_cons.1 h
    rw [List.foldl_cons, ih hedits, interfaces_run, if_neg he, List.append_assoc]
    congr 1
    cases hgiven : e.given? name <;> simp [given, hgiven]

theorem interfaces_build_of_undeclared {edits : List Edit}
    (h : ∀ e ∈ edits, e.declared? ≠ some name) :
    (build edits).toTypeSystem.interfaces name = given name edits :=
  interfaces_foldl h {}

theorem interfaces_build_of_declared (before : List Edit) {e : Edit} {after : List Edit}
    (he : e.declared? = some name) (hafter : ∀ e' ∈ after, e'.declared? ≠ some name) :
    (build (before ++ e :: after)).toTypeSystem.interfaces name = given name after := by
  rw [build, List.foldl_append, List.foldl_cons, interfaces_foldl hafter, interfaces_run,
    if_pos he, List.nil_append]

theorem declared_cases (name : String) (edits : List Edit) :
    (∀ e ∈ edits, e.declared? ≠ some name) ∨
      ∃ before e after, edits = before ++ e :: after ∧ e.declared? = some name ∧
        ∀ e' ∈ after, e'.declared? ≠ some name := by
  induction edits with
  | nil => exact .inl (List.forall_mem_nil _)
  | cons e edits ih =>
    rcases ih with hnone | ⟨before, last, after, rfl, hlast, hafter⟩
    · by_cases he : e.declared? = some name
      · exact .inr ⟨[], e, edits, rfl, he, hnone⟩
      · exact .inl (List.forall_mem_cons.2 ⟨he, hnone⟩)
    · exact .inr ⟨e :: before, last, after, rfl, hlast, hafter⟩

theorem prefix_of_last_declared {before before' after after' : List Edit} {e e' : Edit}
    (hafter : ∀ e' ∈ after, e'.declared? ≠ some name) (he' : e'.declared? = some name)
    (h : before ++ e :: after = before' ++ e' :: after') : before' <+: before := by
  rcases List.append_eq_append_iff.1 h with ⟨between, rfl, hrest⟩ | ⟨between, rfl, -⟩
  · cases between with
    | nil => simp
    | cons x between =>
      have hmem : e' ∈ after := by
        rw [(List.cons.inj hrest).2]
        simp
      exact absurd he' (hafter e' hmem)
  · exact List.prefix_append before' between

theorem given_append (before after : List Edit) :
    given name (before ++ after) = given name before ++ given name after :=
  List.filterMap_append

theorem given_cons_of_declared {e : Edit} (he : e.declared? = some name) (after : List Edit) :
    given name (e :: after) = given name after := by
  cases e with
  | implement other interface => cases he
  | _ => rfl

/-- A type has all interfaces that it is given, in their order, exactly if it is given none before
a call that declares it. What it has is what it is given after its last declaration. -/
theorem interfaces_build_eq_given_iff (edits : List Edit) (name : String) :
    ((build edits).toTypeSystem.interfaces name = given name edits ↔
        ∀ before e after, edits = before ++ e :: after → e.declared? = some name →
          given name before = []) ∧
      ∀ before e after, edits = before ++ e :: after → e.declared? = some name →
        (∀ e' ∈ after, e'.declared? ≠ some name) →
          (build edits).toTypeSystem.interfaces name = given name after := by
  constructor
  · rcases declared_cases name edits with hnone | ⟨before, e, after, rfl, he, hafter⟩
    · refine iff_of_true (interfaces_build_of_undeclared hnone) ?_
      rintro before e after rfl he
      exact absurd he (hnone e (by simp))
    · rw [interfaces_build_of_declared before he hafter, given_append,
        given_cons_of_declared he, List.self_eq_append_left]
      constructor
      · intro hbefore before' e' after' hedits he'
        obtain ⟨between, rfl⟩ := prefix_of_last_declared hafter he' hedits
        rw [given_append] at hbefore
        exact (List.append_eq_nil_iff.1 hbefore).1
      · intro h
        exact h before e after rfl he
  · rintro before e after rfl he hafter
    exact interfaces_build_of_declared before he hafter

/-- A circle is a shape before it is declared, once, and is none afterwards. -/
theorem interfaces_build_circle :
    ([Edit.implement "Circle" (.declared "Shape"), .addClass "Circle" none []].filterMap
        Edit.declared?).Nodup ∧
      given "Circle" [.implement "Circle" (.declared "Shape"), .addClass "Circle" none []] =
        [.declared "Shape"] ∧
      (build [.implement "Circle" (.declared "Shape"),
        .addClass "Circle" none []]).toTypeSystem.interfaces "Circle" = [] := by
  decide +kernel

end TypedMustache.ClassTable
