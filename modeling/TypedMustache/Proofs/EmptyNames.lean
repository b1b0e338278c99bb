import TypedMustache.Proofs.Accessors
import TypedMustache.Proofs.Refusals

/-! Names with an empty part. An accessor's name is made of the part of the name that it is for,
and of an empty part nothing is left of it but `get` and `is`. So where no member has an empty name
and no map is asked, a name with an empty part is refused, unless a getter has one of these two
names. -/

namespace TypedMustache

open Outcome

namespace Model

variable {m : Model}

theorem resolve_of_effectiveType {type ty : JavaType} (h : effectiveType type = .ok ty) :
    m.resolve ty = m.resolve type := by
  rw [resolve, resolve, h, effectiveType_of_isWildcard (isWildcard_of_effectiveType type h)]

/-- Whether a value is read by a call of a getter with the bare name `get` or `is`, which its class
or a type above it declares. -/
def CallsBare (m : Model) (value found : Expression) : Prop :=
  ∃ ty owner t d, effectiveType value.type = .ok ty ∧ ty.baseName? = some owner ∧
    t ∈ owner :: m.types.ancestors owner ∧ d ∈ m.types.members t ∧ m.IsGetter ty d ∧
    (d.name = "get" ∨ d.name = "is" ∧ (m.types.asMemberOf ty d = .primitive "boolean" ∨
      m.types.asMemberOf ty d = .declared "java.lang.Boolean")) ∧
    found = value.member (value.text ++ ("." ++ d.name ++ "()")) (m.types.asMemberOf ty d) ""

theorem get_or_is_of_reads {form : AccessorForm} {ty : JavaType} {d : Member} (hd : d.name ≠ "")
    (hname : d.name = form.memberName "") (h : form.Reads m ty d) :
    m.IsGetter ty d ∧
      (d.name = "get" ∨ d.name = "is" ∧ (m.types.asMemberOf ty d = .primitive "boolean" ∨
        m.types.asMemberOf ty d = .declared "java.lang.Boolean")) ∧
      form.suffix "" = "." ++ d.name ++ "()" := by
  cases form with
  | get =>
    have hget : d.name = "get" := hname.trans (by decide)
    exact ⟨h, .inl hget, by rw [hget]; decide⟩
  | is =>
    have his : d.name = "is" := hname.trans (by decide)
    exact ⟨h.1, .inr ⟨his, h.2⟩, by rw [his]; decide⟩
  | plain => exact absurd hname hd
  | field => exact absurd hname hd

/-- What an empty name is found to be on a value that is no map. -/
theorem callsBare_of_findMember (hmembers : ∀ type, ∀ d ∈ m.types.members type, d.name ≠ "")
    {value found : Expression} (hmap : m.resolve value.type ≠ .ok (some (.object .map)))
    (h : m.findMember value "" = .ok (some found)) : m.CallsBare value found := by
  obtain ⟨ty, hty, -⟩ := bind_eq_ok.1 h
  cases harray : ty.isArray with
  | true =>
    have hnone : m.findMember value "" = .ok none := by
      rw [findMember, hty, ok_bind, if_pos harray]
      rfl
    rw [hnone] at h
    cases h
  | false =>
    rw [← resolve_of_effectiveType hty] at hmap
    obtain ⟨-, -, haccessor⟩ := accessor?_of_findMember hty harray hmap h
    obtain ⟨owner, -, form, -, type, howner, -, -, htype, rfl⟩ := accessor?_eq_some haccessor
    obtain ⟨d, hd, hreads, rfl⟩ := exists_reads_of_accessorType? htype
    obtain ⟨t, ht, hd⟩ := TypeSystem.exists_of_mem_nearestMembers hd
    have hdeclared : d ∈ m.types.members t := (List.mem_filter.1 hd).1
    obtain ⟨hgetter, hname, hsuffix⟩ :=
      get_or_is_of_reads (hmembers t d hdeclared) (name_of_mem_membersNamed hd) hreads
    exact ⟨ty, owner, t, d, hty, howner, ht, hdeclared, hgetter, hname, by rw [hsuffix]⟩

theorem ReadAlong.exists_before {value : Expression} {before : List String} {name : String}
    {after : List String} {values : List Expression}
    (h : m.ReadAlong value (before ++ name :: after) values) :
    ∃ read found, m.ReadAlong value before read ∧
      m.findMember ((value :: read).getLast (List.cons_ne_nil _ _)) name = .ok (some found) := by
  induction before generalizing value values with
  | nil =>
    cases h with
    | cons hfound _ => exact ⟨[], _, .nil value, hfound⟩
  | cons first before ih =>
    cases h with
    | @cons _ next _ _ _ hnext hlater =>
      obtain ⟨read, found, hread, hfound⟩ := ih hlater
      exact ⟨next :: read, found, .cons hnext hread, hfound⟩

end Model

namespace Scope

variable {m : Model} {s : Scope}

theorem Resolves.exists_before {before : List String} {name : String} {after : List String}
    {values : List Expression} (h : s.Resolves m (before ++ name :: after) values) :
    ∃ read found, s.Resolves m before read ∧ s.lookupAfter m read name = .ok (some found) := by
  cases before with
  | nil =>
    cases h with
    | cons hfirst _ => exact ⟨[], _, .nil, hfirst⟩
  | cons first before =>
    cases h with
    | @cons value _ _ _ hfirst hlater =>
      obtain ⟨read, found, hread, hfound⟩ := hlater.exists_before
      refine ⟨value :: read, found, .cons hfirst hread, ?_⟩
      rw [lookupAfter, List.getLast?_eq_some_getLast (List.cons_ne_nil _ _)]
      exact hfound

theorem exists_findMember_of_lookupAfter {values : List Expression} {name : String}
    {found : Expression} (h : s.lookupAfter m values name = .ok (some found)) :
    ∃ value, (value ∈ s.chain.map Scope.current ∨ value ∈ values) ∧
      m.findMember value name = .ok (some found) := by
  cases hlast : values.getLast? with
  | none =>
    rw [lookupAfter, hlast] at h
    obtain ⟨e, he, hfound⟩ := findMember_of_lookupAmong m h
    exact ⟨e.current, .inl (List.mem_map_of_mem he), hfound⟩
  | some value =>
    rw [lookupAfter, hlast] at h
    exact ⟨value, .inr (List.mem_of_getLast? hlast), h⟩

end Scope

/-! ### Notes

A note has a text, which it is asked for by `get`, and maybe an author. -/

namespace Notes

def table : ClassTable :=
  (ClassTable.standard "stachec.runtime.Renderable").addClass "Note"
    |>.addMethod "Note" "get" (.declared "java.lang.String")
    |>.addMethod "Note" "getAuthor" (.applied "java.util.Optional" [.declared "java.lang.String"])

def model : Model := { types := table.toTypeSystem }

/-- The root of a template over a note. -/
def note : Context :=
  .detached ⟨Context.writers model, .java⟩ .root (.root (model.rootExpression (.declared "Note")))

theorem name_ne_empty (type : String) : ∀ d ∈ model.types.members type, d.name ≠ "" := by
  have hall : ∀ d ∈ table.members, d.name ≠ "" := by decide +kernel
  exact fun d hd => hall d (List.mem_filter.1 hd).1

theorem note_isNoMap : ∀ s ∈ note.scope.chain,
    model.resolve s.current.type ≠ .ok (some (.object .map)) := by
  refine List.forall_mem_singleton.2 ?_
  decide +kernel

theorem isNoMap_of_resolves {name : String} {found : Expression}
    (hlookup : note.scope.lookup model name = .ok (some found))
    (hmap : model.resolve found.type ≠ .ok (some (.object .map))) :
    ∀ values, note.scope.Resolves model [name] values →
      ∀ value ∈ values, model.resolve value.type ≠ .ok (some (.object .map)) := by
  rintro values (_ | ⟨hfirst, _ | _⟩)
  rw [hlookup] at hfirst
  cases hfirst
  exact List.forall_mem_singleton.2 hmap

end Notes

namespace Context

variable {m : Model} {c : Context} {path : String} {link : Link}

/-- A name with an empty part has no context, unless that part is read through a getter named `get`
or `is`. -/
theorem getChild_of_empty_name {before after : List String}
    (hmembers : ∀ type, ∀ d ∈ m.types.members type, d.name ≠ "") (hpath : path ≠ Path.current)
    (hlink : link ≠ .parent) (hempty : Path.segments path = before ++ "" :: after)
    (hscopes : ∀ s ∈ c.scope.chain, m.resolve s.current.type ≠ .ok (some (.object .map)))
    (hsteps : ∀ values, c.scope.Resolves m before values →
      ∀ value ∈ values, m.resolve value.type ≠ .ok (some (.object .map))) :
    (∃ error, c.getChild m path link = .error error) ∨
      ∃ values value found, c.scope.Resolves m before values ∧
        (value ∈ c.scope.chain.map Scope.current ∨ value ∈ values) ∧
        c.scope.lookupAfter m values "" = .ok (some found) ∧ m.CallsBare value found := by
  cases hchild : c.getChild m path link with
  | error error => exact .inl ⟨error, rfl⟩
  | ok d =>
    right
    have hvalue : link ∈ valueLinks := by
      rcases mem_valueLinks_or link with h | rfl | rfl
      · exact h
      · exact absurd hchild (getChild_root_ne_ok hpath)
      · exact absurd rfl hlink
    obtain ⟨all, hall⟩ := (exists_getChild_iff hpath hvalue).1 ⟨d, hchild⟩
    rw [hempty] at hall
    obtain ⟨values, found, hvalues, hfound⟩ := hall.exists_before
    obtain ⟨value, hfrom, hmember⟩ := Scope.exists_findMember_of_lookupAfter hfound
    have hmap : m.resolve value.type ≠ .ok (some (.object .map)) := by
      rcases hfrom with hscope | hstep
      · obtain ⟨s, hs, rfl⟩ := List.mem_map.1 hscope
        exact hscopes s hs
      · exact hsteps values hvalues value hstep
    exact ⟨values, value, found, hvalues, hfrom, hfound,
      Model.callsBare_of_findMember hmembers hmap hmember⟩

/-- A dot at the end of a name calls the author's `get`. -/
theorem getChild_of_empty_name_author :
    "author." ≠ Path.current ∧ Path.segments "author." = ["author"] ++ "" :: [] ∧
      (∃ d, Notes.note.getChild Notes.model "author." .escaped = .ok d ∧
        d.current.text = "data.getAuthor().get()") ∧
      ∃ values value found, Notes.note.scope.Resolves Notes.model ["author"] values ∧
        (value ∈ Notes.note.scope.chain.map Scope.current ∨ value ∈ values) ∧
        Notes.note.scope.lookupAfter Notes.model values "" = .ok (some found) ∧
        Notes.model.CallsBare value found := by
  have hauthor : Notes.note.scope.lookup Notes.model "author" = .ok (some ⟨"data.getAuthor()",
      .applied "java.util.Optional" [.declared "java.lang.String"], ["author"]⟩) := by
    decide +kernel
  have hsteps := Notes.isNoMap_of_resolves hauthor (by decide +kernel)
  have htext : (Notes.note.getChild Notes.model "author." .escaped).map (fun d => d.current.text) =
      .ok "data.getAuthor().get()" := by
    decide +kernel
  obtain ⟨d, hd, htext⟩ := map_eq_ok.1 htext
  have hpath : "author." ≠ Path.current := by decide
  have hlink : Link.escaped ≠ .parent := by decide
  have hempty : Path.segments "author." = ["author"] ++ "" :: [] := by decide
  refine ⟨hpath, hempty, ⟨d, hd, htext⟩, ?_⟩
  rcases getChild_of_empty_name Notes.name_ne_empty hpath hlink hempty Notes.note_isNoMap
    hsteps with ⟨error, herror⟩ | hfound
  · rw [hd] at herror
    cases herror
  · exact hfound

/-- The empty name calls the note's `get`. -/
theorem empty_name_calls_get :
    Notes.note.Reachable Notes.model (.declared "Note") ∧
      (∀ type, ∀ d ∈ Notes.model.types.members type, d.name ≠ "") ∧
      (∀ s ∈ Notes.note.scope.chain,
        Notes.model.resolve s.current.type ≠ .ok (some (.object .map))) ∧
      Path.segments "" = [""] ∧
      (∀ values, Notes.note.scope.Resolves Notes.model [""] values →
        ∀ value ∈ values, Notes.model.resolve value.type ≠ .ok (some (.object .map))) ∧
      ∃ d, Notes.note.getChild Notes.model "" .escaped = .ok d ∧ d.current.text = "data.get()" := by
  have hnote : Notes.model.require (.declared "Note") = .ok (.object .declared) := by
    decide +kernel
  have hempty : Notes.note.scope.lookup Notes.model "" =
      .ok (some ⟨"data.get()", .declared "java.lang.String", [""]⟩) := by
    decide +kernel
  have htext : (Notes.note.getChild Notes.model "" .escaped).map (fun d => d.current.text) =
      .ok "data.get()" := by
    decide +kernel
  exact ⟨.root (root_eq_ok hnote .java), Notes.name_ne_empty, Notes.note_isNoMap, by decide,
    Notes.isNoMap_of_resolves hempty (by decide +kernel), map_eq_ok.1 htext⟩

end Context

end TypedMustache
