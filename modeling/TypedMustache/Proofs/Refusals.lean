import TypedMustache.Proofs.DottedNames

/-! When a tag has no context, and what is said of it. A name is refused at its first part that
stands for nothing. That part alone is named, with the type that has no such part: the type of the
current value if it is the first part, and of the value before it otherwise. Neither the parts
after it nor the link have a say in this. A name whose parts all stand for something is refused
only as the root of a template. -/

namespace TypedMustache

open Outcome

/-- The errors that the resolving of a tag can end in. -/
def ContextError.isOfResolving : ContextError → Bool
  | .fieldNotFound _ _ => true
  | .currentSectionInverted => true
  | .currentSectionParent => true
  | .illegalLink link => link = .root
  | .invalidField _ _ => true
  | _ => false

namespace Scope

/-- Looks for the name that follows those of some values: outward if it is the first one, and on
the last value otherwise. -/
def lookupAfter (s : Scope) (m : Model) (values : List Expression) (name : String) :
    Except TypeError (Option Expression) :=
  match values.getLast? with
  | none => s.lookup m name
  | some value => m.findMember value name

/-- The type that is asked for that name, before those of the scopes around. -/
def typeAfter (s : Scope) (values : List Expression) : JavaType :=
  match values.getLast? with
  | none => s.current.type
  | some value => value.type

/-- Whether names stand for values, the first one looked for outward from a scope. -/
inductive Resolves (m : Model) (s : Scope) : List String → List Expression → Prop where
  | nil : Resolves m s [] []
  | cons {value : Expression} {name : String} {names : List String} {values : List Expression}
      (hfirst : s.lookup m name = .ok (some value)) (hlater : m.ReadAlong value names values) :
      Resolves m s (name :: names) (value :: values)

/-- Whether a name that follows those of some values is refused with an error. -/
inductive Refuses (m : Model) (s : Scope) (values : List Expression) (name : String) :
    ContextError → Prop where
  | invalid {cause : TypeError} (h : s.lookupAfter m values name = .error cause) :
      Refuses m s values name (.invalidField name cause)
  | missing (h : s.lookupAfter m values name = .ok none) :
      Refuses m s values name (.fieldNotFound name (s.typeAfter values))

end Scope

namespace Trail

variable {m : Model}

theorem memberOf_eq_ok {value found : Expression} {name : String} :
    memberOf m value name = .ok found ↔ m.findMember value name = .ok (some found) := by
  refine ⟨findMember_of_memberOf, fun h => ?_⟩
  simp only [memberOf, h]

theorem exists_read_of_readAlong {value : Expression} {names : List String}
    {values : List Expression} (h : m.ReadAlong value names values) :
    ∃ t, read m value names = .ok t := by
  induction h with
  | nil value => exact ⟨⟨[], value⟩, rfl⟩
  | cons hfound _ ih =>
    obtain ⟨t, ht⟩ := ih
    simp only [read, memberOf_eq_ok.2 hfound, ht, ok_bind]
    exact ⟨_, rfl⟩

theorem read_eq_error_iff {names : List String} {value : Expression} {error : ContextError} :
    read m value names = .error error ↔
      ∃ before name after values, names = before ++ name :: after ∧
        m.ReadAlong value before values ∧
        memberOf m ((value :: values).getLast (List.cons_ne_nil _ _)) name = .error error := by
  induction names generalizing value with
  | nil => simp [read]
  | cons next names ih =>
    have hread : read m value (next :: names) = .error error ↔
        memberOf m value next = .error error ∨
          ∃ found, memberOf m value next = .ok found ∧ read m found names = .error error := by
      simp only [read, bind_eq_error, pure, Except.pure, reduceCtorEq, and_false, exists_false,
        or_false]
    rw [hread]
    constructor
    · rintro (hnext | ⟨found, hnext, hlater⟩)
      · exact ⟨[], next, names, [], rfl, .nil value, hnext⟩
      · obtain ⟨before, name, after, values, rfl, hbefore, hname⟩ := ih.1 hlater
        exact ⟨next :: before, name, after, found :: values, rfl,
          .cons (memberOf_eq_ok.1 hnext) hbefore, hname⟩
    · rintro ⟨before, name, after, values, hnames, hbefore, hname⟩
      cases hbefore with
      | nil =>
        cases hnames
        exact .inl hname
      | cons hfound hlater =>
        cases hnames
        exact .inr ⟨_, memberOf_eq_ok.2 hfound, ih.2 ⟨_, name, after, _, rfl, hlater, hname⟩⟩

end Trail

namespace Scope

variable {m : Model} {s : Scope}

theorem refuses_iff {s' : Scope} {values : List Expression} {name : String} {error : ContextError}
    (htype : s'.current.type = s.typeAfter values) :
    s.Refuses m values name error ↔
      s'.found name (s.lookupAfter m values name) = .error error := by
  constructor
  · rintro (h | h)
    · rw [h, found]
    · rw [h, found, htype]
  · intro h
    rcases hlookup : s.lookupAfter m values name with cause | _ | value <;>
      rw [hlookup] at h <;> cases h
    · exact .invalid hlookup
    · exact htype ▸ .missing hlookup

theorem refuses_nil_iff {name : String} {error : ContextError} :
    s.Refuses m [] name error ↔ (same s).found name (s.lookup m name) = .error error :=
  refuses_iff rfl

theorem refuses_cons_iff {value : Expression} {values : List Expression} {name : String}
    {error : ContextError} :
    s.Refuses m (value :: values) name error ↔
      Trail.memberOf m ((value :: values).getLast (List.cons_ne_nil _ _)) name = .error error := by
  have hlast := List.getLast?_eq_some_getLast (List.cons_ne_nil value values)
  set last := (value :: values).getLast (List.cons_ne_nil _ _)
  have htype : (root last).current.type = s.typeAfter (value :: values) := by
    rw [typeAfter, hlast]
    rfl
  have hlookup : s.lookupAfter m (value :: values) name = (root last).lookupMember m name := by
    rw [lookupAfter, hlast]
    rfl
  rw [refuses_iff htype, hlookup, found_lookupMember]
  rfl

theorem trail_eq (path : String) :
    s.trail m path = (same s).found (Path.names path).1 (s.lookup m (Path.names path).1) >>=
      fun first => Trail.read m first (Path.names path).2 := by
  rw [← lookup_same]
  rfl

theorem found_of_lookup {s' : Scope} {name : String} {value : Expression}
    (h : s.lookup m name = .ok (some value)) : s'.found name (s.lookup m name) = .ok value := by
  rw [h]
  rfl

theorem exists_trail_iff {path : String} :
    (∃ t, s.trail m path = .ok t) ↔ ∃ values, s.Resolves m (Path.segments path) values := by
  rw [trail_eq]
  constructor
  · rintro ⟨t, ht⟩
    obtain ⟨first, hfirst, hread⟩ := bind_eq_ok.1 ht
    obtain ⟨values, -, hlater⟩ := Model.readAlong_of_read hread
    exact ⟨first :: values, .cons (found_eq_ok hfirst) hlater⟩
  · rintro ⟨values, hvalues⟩
    cases hvalues with
    | cons hfirst hlater =>
      obtain ⟨t, ht⟩ := Trail.exists_read_of_readAlong hlater
      exact ⟨t, bind_eq_ok.2 ⟨_, found_of_lookup hfirst, ht⟩⟩

/-- Whether a name that follows others is refused with an error, after these have stood for
values. -/
def RefusesAt (m : Model) (s : Scope) (before : List String) (name : String)
    (error : ContextError) : Prop :=
  ∃ values, s.Resolves m before values ∧ s.Refuses m values name error

theorem RefusesAt.isOfResolving {before : List String} {name : String} {error : ContextError}
    (h : s.RefusesAt m before name error) : error.isOfResolving = true := by
  obtain ⟨values, -, hname | hname⟩ := h <;> rfl

theorem RefusesAt.ne_illegalLink {before : List String} {name : String} {error : ContextError}
    (h : s.RefusesAt m before name error) (link : Link) : error ≠ .illegalLink link := by
  rintro rfl
  obtain ⟨values, -, hname⟩ := h
  cases hname

/-- A dotted name has no trail if one of its parts is refused, and the first one that is gives
the error. -/
theorem trail_eq_error_iff {path : String} {error : ContextError} :
    s.trail m path = .error error ↔
      ∃ before name after, Path.segments path = before ++ name :: after ∧
        s.RefusesAt m before name error := by
  rw [trail_eq, bind_eq_error]
  constructor
  · rintro (hname | ⟨first, hfirst, hlater⟩)
    · exact ⟨[], _, _, rfl, [], .nil, refuses_nil_iff.2 hname⟩
    · obtain ⟨before, name, after, values, hnames, hbefore, hname⟩ :=
        Trail.read_eq_error_iff.1 hlater
      exact ⟨_ :: before, name, after, congrArg (_ :: ·) hnames, first :: values,
        .cons (found_eq_ok hfirst) hbefore, refuses_cons_iff.2 hname⟩
  · rintro ⟨before, name, after, hpath, values, hbefore, hname⟩
    cases hbefore with
    | nil =>
      cases hpath
      exact .inl (refuses_nil_iff.1 hname)
    | cons hfirst hlater =>
      obtain ⟨rfl, hnames⟩ := List.cons.inj hpath
      exact .inr ⟨_, found_of_lookup hfirst, Trail.read_eq_error_iff.2
        ⟨_, name, after, _, hnames, hlater, refuses_cons_iff.1 hname⟩⟩

end Scope

namespace Context

variable {m : Model} {c : Context} {path : String} {link : Link}

theorem mem_valueLinks_or (link : Link) : link ∈ valueLinks ∨ link = .root ∨ link = .parent := by
  cases link <;> decide

theorem getChild_of_trail (hpath : path ≠ Path.current) (hlink : link ≠ .parent) :
    c.getChild m path link =
      (c.scope.trail m path >>= (·.enterFrom m (.same c.scope) link)).map
        (.child c.output path c link) := by
  simp only [getChild, Scope.resolve, if_neg hpath, if_neg hlink, Scope.resolvePath_eq]

theorem getChild_eq_error_of_trail (hpath : path ≠ Path.current) (hlink : link ≠ .parent)
    {error : ContextError} (h : c.scope.trail m path = .error error) :
    c.getChild m path link = .error error := by
  rw [getChild_of_trail hpath hlink, h]
  rfl

/-- As the root of a template, a name whose parts all stand for values is refused at last. -/
theorem getChild_root_eq_error_iff (hpath : path ≠ Path.current) {error : ContextError} :
    c.getChild m path .root = .error error ↔
      (error = .illegalLink .root ∧ ∃ values, c.scope.Resolves m (Path.segments path) values) ∨
        ∃ before name after, Path.segments path = before ++ name :: after ∧
          c.scope.RefusesAt m before name error := by
  rw [getChild_of_trail hpath (by decide), ← Scope.exists_trail_iff, ← Scope.trail_eq_error_iff]
  cases c.scope.trail m path <;> simp [Trail.enterFrom, Link.entry?, Except.map, eq_comm]

theorem getChild_root_eq_illegalLink_iff (hpath : path ≠ Path.current) :
    c.getChild m path .root = .error (.illegalLink .root) ↔
      ∃ values, c.scope.Resolves m (Path.segments path) values := by
  rw [getChild_root_eq_error_iff hpath]
  constructor
  · rintro (⟨-, hvalues⟩ | ⟨before, name, after, -, hname⟩)
    · exact hvalues
    · exact absurd rfl (hname.ne_illegalLink .root)
  · exact fun hvalues => .inl ⟨rfl, hvalues⟩

theorem getChild_root_ne_ok (hpath : path ≠ Path.current) {d : Context} :
    c.getChild m path .root ≠ .ok d := by
  rw [getChild_of_trail hpath (by decide)]
  cases c.scope.trail m path <;> simp [Trail.enterFrom, Link.entry?, Except.map]

theorem getChild_eq_error_iff (hpath : path ≠ Path.current) (hlink : link ∈ valueLinks)
    {error : ContextError} :
    c.getChild m path link = .error error ↔
      ∃ before name after, Path.segments path = before ++ name :: after ∧
        c.scope.RefusesAt m before name error := by
  obtain ⟨entry, hentry⟩ := entry?_of_mem_valueLinks hlink
  rw [getChild_of_entry m c hpath hentry, map_eq_error, Scope.trail_eq_error_iff]

theorem exists_getChild_iff (hpath : path ≠ Path.current) (hlink : link ∈ valueLinks) :
    (∃ d, c.getChild m path link = .ok d) ↔
      ∃ values, c.scope.Resolves m (Path.segments path) values := by
  obtain ⟨entry, hentry⟩ := entry?_of_mem_valueLinks hlink
  rw [getChild_of_entry m c hpath hentry, ← Scope.exists_trail_iff]
  cases c.scope.trail m path <;> simp [Except.map]

theorem getChild_parent (hpath : path ≠ Path.current) :
    c.getChild m path .parent = .ok (.child c.output path c .parent (.same c.scope)) := by
  simp only [getChild, Scope.resolve, if_neg hpath, if_true]
  rfl

theorem isOfResolving_of_getChild {error : ContextError}
    (h : c.getChild m path link = .error error) : error.isOfResolving = true := by
  by_cases hpath : path = Path.current
  · subst hpath
    cases link <;> cases h <;> rfl
  · rcases mem_valueLinks_or link with hlink | rfl | rfl
    · obtain ⟨before, name, after, -, hname⟩ := (getChild_eq_error_iff hpath hlink).1 h
      exact hname.isOfResolving
    · obtain ⟨rfl, -⟩ | ⟨before, name, after, -, hname⟩ := (getChild_root_eq_error_iff hpath).1 h
      · rfl
      · exact hname.isOfResolving
    · rw [getChild_parent hpath] at h
      cases h

/-- Some name or some link is to blame for every refusal, and never the path for having no names. -/
theorem getChild_ne_internal {path' : String} {empty : Path.segments path' = []} :
    c.getChild m path link ≠ .error (.internal path' empty) :=
  fun h => Bool.false_ne_true (isOfResolving_of_getChild h)

/-- Whether a tag has a context, and the error if it has none. The current value itself may be
neither inverted nor a parent, and a parent's name is not read at all. Any other name is read
part by part, and the first part that is refused gives the error, whatever comes after it. If
there is no such part, then the name is refused only as the root of a template. -/
theorem getChild_refused_at_first (m : Model) (c : Context) (path : String) (link : Link) :
    Path.segments path = (path.toList.splitOn '.').map String.ofList ∧
      Path.segments path ≠ [] ∧
      (∀ path' empty, c.getChild m path link ≠ .error (.internal path' empty)) ∧
      (∀ error, c.getChild m path link = .error error → error.isOfResolving = true) ∧
      (if path = Path.current then
        match link with
        | .inverted => c.getChild m path link = .error .currentSectionInverted
        | .parent => c.getChild m path link = .error .currentSectionParent
        | .root => c.getChild m path link = .error .currentSectionParent
        | _ => ∃ d, c.getChild m path link = .ok d ∧ d.current = c.current
      else
        match link with
        | .parent => ∃ d, c.getChild m path link = .ok d ∧ d.current = c.current
        | .root =>
          (∀ d, c.getChild m path link ≠ .ok d) ∧
            (c.getChild m path link = .error (.illegalLink .root) ↔
              ∃ values, c.scope.Resolves m (Path.segments path) values)
        | _ =>
          ((∃ d, c.getChild m path link = .ok d) ↔
              ∃ values, c.scope.Resolves m (Path.segments path) values) ∧
            ∀ error, c.getChild m path link = .error error ↔
              ∃ before name after, Path.segments path = before ++ name :: after ∧
                c.scope.RefusesAt m before name error) ∧
      ∀ before name error, c.scope.RefusesAt m before name error →
        ∀ path' link' after, path' ≠ Path.current → link' ≠ .parent →
          Path.segments path' = before ++ name :: after →
            c.getChild m path' link' = .error error := by
  refine ⟨Path.segments_eq path, List.cons_ne_nil _ _, fun path' empty => getChild_ne_internal,
    fun error => isOfResolving_of_getChild, ?_, ?_⟩
  · split_ifs with hpath
    · subst hpath
      cases link <;> first | rfl | exact ⟨_, rfl, rfl⟩
    · cases link with
      | parent => exact ⟨_, getChild_parent hpath, rfl⟩
      | root =>
        exact ⟨fun d => getChild_root_ne_ok hpath, getChild_root_eq_illegalLink_iff hpath⟩
      | _ => exact ⟨exists_getChild_iff hpath (by decide),
          fun error => getChild_eq_error_iff hpath (by decide)⟩
  · intro before name error hname path' link' after hpath hlink hafter
    exact getChild_eq_error_of_trail hpath hlink
      (Scope.trail_eq_error_iff.2 ⟨before, name, after, hafter, hname⟩)

/-- The shelf has no crates, and the page is not asked for them. -/
example :
    ((Shop.page.getChild Shop.model "shelf.crates.items" .positive).map fun d => d.scope.value) =
      .error (.fieldNotFound "crates" (.applied "Shelf" [.bounded .upper (.declared "Item")])) := by
  decide +kernel

end Context

end TypedMustache
