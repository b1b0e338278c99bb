import TypedMustache.Context.Code
import TypedMustache.Proofs.Reachable
import TypedMustache.Proofs.TrailMarkers

/-! Tags that stay at the current value: `{{.}}`, parents and partials. They put scopes on
the chain that stand for the ones they enclose, and nothing that is resolved later can tell.
Two scopes are alike if names are found in both in the same way, if they are equally deep,
and if what is entered from them takes over the same markers of leading steps. A scope that
is no step is like the one that stands for it, no scope of a context is a step, and what is
entered from scopes that are alike looks the same and is alike again. -/

namespace TypedMustache

open Outcome

namespace Scope

/-- What can be seen of a scope. -/
structure Appearance where
  value : Expression
  current : Expression
  shape : Except TypeError Shape
  depth : Nat
  description : String
  opening : Except TypeError String
  closing : String

def appearance (s : Scope) : Appearance where
  value := s.value
  current := s.current
  shape := s.shape
  depth := s.depth
  description := s.description
  opening := s.opening
  closing := s.closing

/-- Whether names mean the same in two scopes, and values that are entered from them have the
same depth and the same leading markers. -/
structure Alike (m : Model) (s s' : Scope) : Prop where
  current : s.current = s'.current
  depth : s.depth = s'.depth
  lookup : ∀ name, s.lookup m name = s'.lookup m name
  headers : (same s).headers = (same s').headers
  absences : s.leadingAbsences = s'.leadingAbsences
  closing : (same s).closing = (same s').closing

variable {m : Model} {s s' s'' : Scope}

theorem lookup_eq (s : Scope) (name : String) :
    s.lookup m name = (s.lookupMember m name >>= fun
      | some found => .ok (some found)
      | none => lookupAmong m name s.chain.tail) := by
  cases s <;> rfl

/-- A name that the current value does not have is not there when it is read again. -/
theorem lookup_same (s : Scope) (name : String) : (same s).lookup m name = s.lookup m name := by
  have hmember : (same s).lookupMember m name = s.lookupMember m name := rfl
  have houter : lookupAmong m name (same s).chain.tail = s.lookup m name := rfl
  rw [lookup_eq (same s), houter, lookup_eq s, hmember]
  rcases s.lookupMember m name with cause | _ | found <;> rfl

namespace Alike

theorem refl (m : Model) (s : Scope) : Alike m s s := ⟨rfl, rfl, fun _ => rfl, rfl, rfl, rfl⟩

theorem trans (h : Alike m s s') (h' : Alike m s' s'') : Alike m s s'' where
  current := h.current.trans h'.current
  depth := h.depth.trans h'.depth
  lookup name := (h.lookup name).trans (h'.lookup name)
  headers := h.headers.trans h'.headers
  absences := h.absences.trans h'.absences
  closing := h.closing.trans h'.closing

/-- This is not so of a step: only what is entered from the step itself takes over its markers. -/
theorem same_self (h : s.isStep = false) : Alike m (same s) s where
  current := rfl
  depth := rfl
  lookup := lookup_same s
  headers := by
    simp only [Scope.headers, h]
    rfl
  absences := by
    simp only [leadingAbsences, h]
    rfl
  closing := by
    simp only [Scope.closing, h]
    rfl

theorem same (h : Alike m s s') : Alike m (same s) (same s') where
  current := h.current
  depth := h.depth
  lookup name := by rw [lookup_same, lookup_same, h.lookup name]
  headers := rfl
  absences := rfl
  closing := rfl

theorem appearance_same (h : Alike m s s') :
    (Scope.same s).appearance = (Scope.same s').appearance := by
  simp only [appearance, value, Scope.current, shape, Scope.depth, description, variantName,
    opening, h.current, h.depth, h.headers, h.closing]

theorem absences_enter (h : Alike m s s') (entry : Entry) (v : Expression) :
    (s.enter m entry v).absences = (s'.enter m entry v).absences := by
  cases hentry : entry.isInverted with
  | true =>
    rw [Scope.absences_enter m s entry hentry, Scope.absences_enter m s' entry hentry, h.absences]
  | false =>
    simp only [enter, Scope.absences, hentry]
    rfl

theorem headers_enter (h : Alike m s s') (entry : Entry) (v : Expression) :
    (s.enter m entry v).headers = (s'.enter m entry v).headers := by
  have habsences := h.absences_enter entry v
  simp only [enter] at habsences ⊢
  cases hentry : entry.isInverted with
  | true => rw [headers_nested_inverted hentry, headers_nested_inverted hentry, habsences]
  | false => rw [headers_nested hentry, headers_nested hentry, h.headers, h.depth]

theorem closing_enter (h : Alike m s s') (entry : Entry) (v : Expression) :
    (s.enter m entry v).closing = (s'.enter m entry v).closing := by
  have hopening : (s.enter m entry v).opening = (s'.enter m entry v).opening :=
    congrArg (Except.map _) (h.headers_enter entry v)
  have hleading := h.closing
  simp only [enter, Scope.closing] at hopening hleading ⊢
  simp only [hopening, hleading]

theorem current_enter (h : Alike m s s') (entry : Entry) (v : Expression) :
    (s.enter m entry v).current = (s'.enter m entry v).current := by
  simp only [enter, Scope.current, h.depth]

theorem appearance_enter (h : Alike m s s') (entry : Entry) (v : Expression) :
    (s.enter m entry v).appearance = (s'.enter m entry v).appearance := by
  have hdepth : (s.enter m entry v).depth = (s'.enter m entry v).depth :=
    congrArg (· + 1) h.depth
  simp only [appearance, opening, h.current_enter, hdepth, h.headers_enter, h.closing_enter]
  rfl

theorem enter (h : Alike m s s') (entry : Entry) (v : Expression) :
    Alike m (s.enter m entry v) (s'.enter m entry v) where
  current := h.current_enter entry v
  depth := congrArg (· + 1) h.depth
  lookup name := by
    have houter : lookupAmong m name s.chain = lookupAmong m name s'.chain := h.lookup name
    have hmember : (s.enter m entry v).lookupMember m name =
        (s'.enter m entry v).lookupMember m name := by
      rw [lookupMember, lookupMember, h.current_enter]
    rw [lookup_eq, lookup_eq, hmember]
    simp only [Scope.enter, chain, List.tail_cons, houter]
  headers := by
    simp only [Scope.headers, h.headers_enter]
    rfl
  absences := by
    simp only [leadingAbsences, h.absences_enter]
    rfl
  closing := by
    simp only [Scope.closing, h.closing_enter]
    rfl

theorem enterAll (entry : Entry) (values : List Expression) (h : Alike m s s') :
    Alike m (s.enterAll m entry values) (s'.enterAll m entry values) := by
  induction values generalizing s s' with
  | nil => exact h
  | cons v vs ih => exact ih (h.enter entry v)

theorem trail (h : Alike m s s') (path : String) : s.trail m path = s'.trail m path := by
  have hfound : ∀ name outcome, (Scope.same s).found name outcome =
      (Scope.same s').found name outcome := by
    intro name outcome
    rcases outcome with cause | _ | found
    · rfl
    · simp only [found, Scope.current, h.current]
    · rfl
  simp only [Scope.trail, h.same.lookup, hfound]

theorem appearance_resolve (h : Alike m s s') (path : String) (link : Link) :
    (s.resolve m path link).map appearance = (s'.resolve m path link).map appearance := by
  unfold resolve
  split
  · cases link with
    | inverted | parent | root => rfl
    | _ => exact congrArg Except.ok h.appearance_same
  · split
    · exact congrArg Except.ok h.appearance_same
    · rw [resolvePath_eq, resolvePath_eq, h.trail]
      cases s'.trail m path with
      | error cause => rfl
      | ok t =>
        simp only [ok_bind, Trail.enterFrom]
        cases link.entry? with
        | none => rfl
        | some entry =>
          have hsteps := h.same.enterAll link.leadingEntry t.leading
          exact congrArg Except.ok (hsteps.appearance_enter entry t.last)

end Alike

end Scope

theorem Link.isStep_of_entry? {link : Link} {entry : Entry} (h : link.entry? = some entry) :
    entry.isStep = false := by
  cases link <;> cases h <;> rfl

namespace Context

variable {m : Model} {data : JavaType} {c d : Context}

theorem Reachable.isStep_scope (hc : c.Reachable m data) : c.scope.isStep = false := by
  refine hc.scope_induction (P := fun s => s.isStep = false) rfl ?_
  rintro s s' - (_ | ⟨path, t, link, entry, hentry, -⟩)
  · rfl
  · exact Link.isStep_of_entry? hentry

/-- What can be seen of a context and of the code for its value. -/
structure Appearance where
  scope : Scope.Appearance
  opening : Except ContextError String
  closing : String
  rendering : Except ContextError String
  unescapedRendering : Except ContextError String

def appearance (c : Context) (m : Model) : Appearance where
  scope := c.scope.appearance
  opening := c.opening m
  closing := c.closing
  rendering := c.rendering m
  unescapedRendering := c.unescapedRendering m

/-- A context is seen through its scope, and its code is made with its writers and generator. -/
theorem appearance_congr (houtput : c.output = d.output)
    (h : c.scope.appearance = d.scope.appearance) : c.appearance m = d.appearance m := by
  simp only [Scope.appearance, Scope.Appearance.mk.injEq] at h
  obtain ⟨hvalue, hcurrent, hshape, hdepth, hdescription, hopening, hclosing⟩ := h
  simp only [appearance, Scope.appearance, rendering, unescapedRendering, renderingWith, opening,
    debugComments, closing, Context.current, houtput, hvalue, hcurrent, hshape, hdepth,
    hdescription, hopening, hclosing]

/-- The contexts that tags and partials which stay at the current value lead to. Such tags are
`{{.}}`, under the links that it may have, and parents. -/
inductive Hops (m : Model) (c : Context) : Context → Prop where
  | refl : Hops m c c
  | current {d e : Context} {link : Link} (hd : Hops m c d)
      (h : d.getChild m Path.current link = .ok e) : Hops m c e
  | parent {d e : Context} {name : String} (hd : Hops m c d) (hname : name ≠ Path.current)
      (h : d.getChild m name .parent = .ok e) : Hops m c e
  | forPartial {d : Context} (hd : Hops m c d) : Hops m c d.forPartial

theorem scope_getChild_current {link : Link} (h : c.getChild m Path.current link = .ok d) :
    d.scope = .same c.scope := by
  cases link <;> cases h <;> rfl

theorem scope_getChild_parent {name : String} (hname : name ≠ Path.current)
    (h : c.getChild m name .parent = .ok d) : d.scope = .same c.scope := by
  simp only [getChild, Scope.resolve, if_neg hname, if_true] at h
  cases h
  rfl

theorem Hops.output_eq (h : Hops m c d) : d.output = c.output := by
  induction h with
  | refl => rfl
  | current _ h ih => exact (output_getChild h).trans ih
  | parent _ _ h ih => exact (output_getChild h).trans ih
  | forPartial _ ih => exact ih

theorem Hops.alike (hc : c.scope.isStep = false) (h : Hops m c d) :
    d.scope.isStep = false ∧ Scope.Alike m d.scope c.scope := by
  have hsame : ∀ {d : Context} {s : Scope}, d.scope.isStep = false ∧ Scope.Alike m d.scope c.scope →
      s = .same d.scope → s.isStep = false ∧ Scope.Alike m s c.scope := by
    rintro d s ⟨hstep, halike⟩ rfl
    exact ⟨rfl, (Scope.Alike.same_self hstep).trans halike⟩
  induction h with
  | refl => exact ⟨hc, .refl m c.scope⟩
  | current _ h ih => exact hsame ih (scope_getChild_current h)
  | parent _ hname h ih => exact hsame ih (scope_getChild_parent hname h)
  | forPartial _ ih => exact ih

/-- After any number of tags and partials that stay at the current value, every tag fails with
the error or leads to the appearance that it has without them. -/
theorem appearance_getChild_hops {h : Context} (hc : c.Reachable m data) (hh : Hops m c h)
    (path : String) (link : Link) :
    (h.getChild m path link).map (·.appearance m) =
      (c.getChild m path link).map (·.appearance m) := by
  have hmap : ∀ c : Context, (c.getChild m path link).map (·.appearance m) =
      (c.scope.resolve m path link).map fun s => (child c.output path c link s).appearance m := by
    intro c
    simp only [getChild]
    cases c.scope.resolve m path link <;> rfl
  have hresolve := (hh.alike hc.isStep_scope).2.appearance_resolve path link
  rw [hmap, hmap]
  exact map_eq_map hresolve fun _ _ hseen => appearance_congr hh.output_eq hseen

/-- A section over the current item, a parent in it and a partial from there see the title that
the item has. -/
theorem appearance_getChild_hops_title :
    ∃ c h : Context, c.Reachable Shop.model (.declared "Page") ∧ Hops Shop.model c h ∧
      h.scope = .same (.same c.scope) ∧
      (c.getChild Shop.model "title" .escaped).map (fun d => d.current.text) =
        .ok "element1.getTitle()" ∧
      (h.getChild Shop.model "title" .escaped).map (·.appearance Shop.model) =
        (c.getChild Shop.model "title" .escaped).map (·.appearance Shop.model) := by
  obtain ⟨c, hc, htitle⟩ := Shop.exists_items
  let current : Context := child c.output Path.current c .positive (.same c.scope)
  have hcurrent : c.getChild Shop.model Path.current .positive = .ok current := rfl
  have hparent : current.getChild Shop.model "layout" .parent =
      .ok (child c.output "layout" current .parent (.same (.same c.scope))) := rfl
  have hhops := ((Hops.refl.current hcurrent).parent (by decide) hparent).forPartial
  exact ⟨c, _, hc, hhops, rfl, htitle, appearance_getChild_hops hc hhops "title" .escaped⟩

end Context

end TypedMustache
