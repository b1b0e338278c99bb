import TypedMustache.Proofs.Anchors
import TypedMustache.Proofs.PathMarkers
import TypedMustache.Proofs.Transparency

/-! Where the values of a dotted name come from. One scope is chosen for the whole name: the
innermost one whose current value has its first part. Every later part is read from the value
before it, and no other scope is asked. So the path of the last value is that of the scope's
current value and the parts of the name after it, and the text of each value goes on where that
of the value before it ends. -/

namespace TypedMustache

open Outcome

namespace Path

theorem splitOn_eq_cut (cs : List Char) : cs.splitOn '.' = (cut cs).1 :: (cut cs).2 := by
  induction cs with
  | nil => rfl
  | cons c cs ih =>
    rw [List.splitOn] at ih ⊢
    rw [List.splitOnP_cons_eq_if_modifyHead, ih, cut]
    by_cases h : c = '.' <;> simp [h, List.modifyHead]

theorem segments_eq (path : String) :
    segments path = (path.toList.splitOn '.').map String.ofList := by
  rw [splitOn_eq_cut]
  rfl

end Path

theorem Accessor.text_ne_empty (a : Accessor) : a.text ≠ "" := by
  cases a <;> simp [text]

/-- Whether the text of an expression is that of another one and more. -/
def Expression.Extends (e outer : Expression) : Prop :=
  ∃ added, added ≠ "" ∧ e.text = outer.text ++ added

namespace Model

variable {m : Model} {value found : Expression} {name : String}

theorem extends_of_findMember (h : m.findMember value name = .ok (some found)) :
    found.Extends value := by
  obtain ⟨a, -, htext⟩ := exists_accessor_of_findMember h
  exact ⟨a.text, a.text_ne_empty, htext⟩

theorem path_of_findMember (h : m.findMember value name = .ok (some found)) :
    found.path = value.path ++ [name] := by
  obtain ⟨ty, -, hfound⟩ := findMember_cases h
  rcases hfound with ⟨-, -, rfl⟩ | ⟨role, -, rfl | haccessor⟩
  · rfl
  · rfl
  · obtain ⟨form, owner, d, -, -, -, rfl⟩ := accessor?_cases haccessor
    rfl

/-- Whether names stand for values, each one on the value before it. -/
inductive ReadAlong (m : Model) : Expression → List String → List Expression → Prop where
  | nil (value : Expression) : ReadAlong m value [] []
  | cons {value found : Expression} {name : String} {names : List String}
      {values : List Expression} (hfound : m.findMember value name = .ok (some found))
      (hlater : ReadAlong m found names values) :
      ReadAlong m value (name :: names) (found :: values)

namespace ReadAlong

variable {names : List String} {values : List Expression}

theorem extends_chain (h : m.ReadAlong value names values) :
    (value :: values).IsChain fun outer e => e.Extends outer := by
  induction h with
  | nil value => exact .singleton value
  | cons hfound _ ih => exact .cons_cons (extends_of_findMember hfound) ih

theorem path_getLast (h : m.ReadAlong value names values) :
    ((value :: values).getLast (List.cons_ne_nil _ _)).path = value.path ++ names := by
  induction h with
  | nil value => exact (List.append_nil value.path).symm
  | cons hfound _ ih =>
    rw [List.getLast_cons (List.cons_ne_nil _ _), ih, path_of_findMember hfound,
      List.append_assoc, List.singleton_append]

end ReadAlong

theorem readAlong_of_read {names : List String} : ∀ {value : Expression} {t : Trail},
    Trail.read m value names = .ok t →
      ∃ values, t.values = value :: values ∧ m.ReadAlong value names values := by
  induction names with
  | nil =>
    intro value t h
    cases h
    exact ⟨[], rfl, .nil value⟩
  | cons name names ih =>
    intro value t h
    obtain ⟨next, hnext, h⟩ := bind_eq_ok.1 h
    obtain ⟨rest, hrest, h⟩ := bind_eq_ok.1 h
    cases h
    obtain ⟨values, hvalues, hlater⟩ := ih hrest
    refine ⟨next :: values, ?_, .cons (Trail.findMember_of_memberOf hnext) hlater⟩
    rw [← hvalues]
    rfl

end Model

namespace Scope

variable {m : Model}

theorem exists_split_of_lookupAmong {name : String} {found : Expression} :
    ∀ {scopes : List Scope}, lookupAmong m name scopes = .ok (some found) →
      ∃ inner s outer, scopes = inner ++ s :: outer ∧
        (∀ e ∈ inner, m.findMember e.current name = .ok none) ∧
        m.findMember s.current name = .ok (some found)
  | [], h => by cases h
  | s :: rest, h => by
    obtain ⟨outcome, houtcome, h⟩ := bind_eq_ok.1 h
    cases outcome with
    | some value =>
      cases h
      exact ⟨[], s, rest, rfl, List.forall_mem_nil _, houtcome⟩
    | none =>
      obtain ⟨inner, s', outer, rfl, hinner, hfound⟩ := exists_split_of_lookupAmong h
      exact ⟨s :: inner, s', outer, rfl, List.forall_mem_cons.2 ⟨houtcome, hinner⟩, hfound⟩

/-- The values of a trail from a scope are read along its path, from the innermost scope on that
has the first name. -/
theorem readAlong_of_trail {s : Scope} {path : String} {t : Trail} (h : s.trail m path = .ok t) :
    ∃ inner source outer, s.chain = inner ++ source :: outer ∧
      (∀ e ∈ inner, m.findMember e.current (Path.names path).1 = .ok none) ∧
      m.ReadAlong source.current (Path.segments path) t.values := by
  obtain ⟨first, hfirst, hread⟩ := bind_eq_ok.1 h
  have hlookup := found_eq_ok hfirst
  rw [lookup_same] at hlookup
  obtain ⟨inner, source, outer, hchain, hinner, hfound⟩ := exists_split_of_lookupAmong hlookup
  obtain ⟨values, hvalues, hlater⟩ := Model.readAlong_of_read hread
  exact ⟨inner, source, outer, hchain, hinner, hvalues ▸ .cons hfound hlater⟩

end Scope

namespace Context

variable {m : Model}

/-- The values that a name adds to the scopes are read along the parts of the name, from the
current value of the innermost scope that has the first part. Each of them is written as the one
before it and more, and the last one has the parts in its path. -/
theorem values_read_along_name {c d : Context} {path : String} {link : Link}
    (hpath : path ≠ Path.current) (hlink : link ∈ valueLinks)
    (hd : c.getChild m path link = .ok d) :
    Path.segments path = (path.toList.splitOn '.').map String.ofList ∧
      ∃ (inner : List Scope) (source : Scope) (outer : List Scope) (values : List Expression),
        c.scope.chain = inner ++ source :: outer ∧
        (∀ e ∈ inner, m.findMember e.current (Path.names path).1 = .ok none) ∧
        m.ReadAlong source.current (Path.segments path) values ∧
        (source.current :: values).IsChain (fun before e => e.Extends before) ∧
        d.scope.chain.map Scope.value =
          values.reverse ++ (Scope.same c.scope).chain.map Scope.value ∧
        d.scope.value.path = source.current.path ++ Path.segments path := by
  obtain ⟨entry, hentry⟩ := entry?_of_mem_valueLinks hlink
  rw [getChild_of_entry m c hpath hentry] at hd
  obtain ⟨t, ht, rfl⟩ := map_eq_ok.1 hd
  obtain ⟨inner, source, outer, hchain, hinner, hread⟩ := Scope.readAlong_of_trail ht
  refine ⟨Path.segments_eq path, inner, source, outer, t.values, hchain, hinner, hread,
    hread.extends_chain, ?_, ?_⟩
  · exact Scope.value_chain_enter (.same c.scope) link.leadingEntry entry t
  · have hlast : (source.current :: t.values).getLast (List.cons_ne_nil _ _) = t.last := by
      simp [Trail.values]
    have hpaths := hread.path_getLast
    rwa [hlast] at hpaths

/-- In the loop over the items, which have no shelf, the offers are read from the page. -/
theorem values_read_along_name_offers :
    "shelf.offers" ≠ Path.current ∧ Link.positive ∈ valueLinks ∧
      ∃ c d : Context, Shop.page.getChild Shop.model "items" .positive = .ok c ∧
        c.getChild Shop.model "shelf.offers" .positive = .ok d ∧
        d.scope.value.text = "data.getShelf().getOffers()" ∧
        ∃ (inner : List Scope) (source : Scope) (outer : List Scope) (values : List Expression),
          c.scope.chain = inner ++ source :: outer ∧
          (∀ e ∈ inner, Shop.model.findMember e.current "shelf" = .ok none) ∧
          Shop.model.ReadAlong source.current (Path.segments "shelf.offers") values ∧
          (source.current :: values).IsChain (fun before e => e.Extends before) ∧
          d.scope.chain.map Scope.value =
            values.reverse ++ (Scope.same c.scope).chain.map Scope.value ∧
          d.scope.value.path = source.current.path ++ Path.segments "shelf.offers" := by
  have hoffers : (Shop.page.getChild Shop.model "items" .positive >>= fun c =>
      (c.getChild Shop.model "shelf.offers" .positive).map fun d => d.scope.value.text) =
        .ok "data.getShelf().getOffers()" := by
    decide +kernel
  obtain ⟨c, hc, hoffers⟩ := bind_eq_ok.1 hoffers
  obtain ⟨d, hd, htext⟩ := map_eq_ok.1 hoffers
  exact ⟨by decide, by decide, c, d, hc, hd, htext,
    (values_read_along_name (by decide) (by decide) hd).2⟩

end Context

end TypedMustache
