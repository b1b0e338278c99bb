import TypedMustache.ClassTable.Standard
import TypedMustache.Context.Basic
import TypedMustache.Proofs.Lookup

/-! The values of a dotted name, apart from the way in which they are entered. A trail is
read from a scope by lookups alone, and the scope that a link makes of a name enters the
values of its trail one after the other. This works since no leading step rebinds the
value that it is entered with, so the next name is read from that value under any link.
Hence all links that name a value agree on it and on the errors. -/

namespace TypedMustache

open Outcome

/-- The values of the names of a path, outermost first. -/
structure Trail where
  leading : List Expression
  last : Expression
  deriving DecidableEq

namespace Trail

/-- The trail with one more value before all others. -/
def cons (value : Expression) (t : Trail) : Trail := ⟨value :: t.leading, t.last⟩

/-- Reads a name from a value, which has to have it. -/
def memberOf (m : Model) (value : Expression) (name : String) : Except ContextError Expression :=
  match m.findMember value name with
  | .error cause => .error (.invalidField name cause)
  | .ok none => .error (.fieldNotFound name value.type)
  | .ok (some found) => .ok found

/-- Reads names one after the other, each from the value of the one before. -/
def read (m : Model) (value : Expression) : List String → Except ContextError Trail
  | [] => .ok ⟨[], value⟩
  | name :: later => do return (← read m (← memberOf m value name) later).cons value

theorem findMember_of_memberOf {m : Model} {value found : Expression} {name : String}
    (h : memberOf m value name = .ok found) : m.findMember value name = .ok (some found) := by
  unfold memberOf at h
  split at h
  · cases h
  · cases h
  · next hfound =>
    cases h
    exact hfound

theorem findMember_of_mem_leading {m : Model} : ∀ {names : List String} {value : Expression}
    {t : Trail}, read m value names = .ok t →
      ∀ e ∈ t.leading, ∃ name found, m.findMember e name = .ok (some found)
  | [], value, t, h, e, he => by
    cases h
    cases he
  | name :: later, value, t, h, e, he => by
    obtain ⟨next, hnext, h⟩ := bind_eq_ok.1 h
    obtain ⟨rest, hrest, h⟩ := bind_eq_ok.1 h
    cases h
    rcases List.mem_cons.1 he with rfl | he
    · exact ⟨name, next, findMember_of_memberOf hnext⟩
    · exact findMember_of_mem_leading hrest e he

/-- There is one leading value for each name, the one that it is read from. -/
theorem length_leading_of_read {m : Model} : ∀ {names : List String} {value : Expression}
    {t : Trail}, read m value names = .ok t → t.leading.length = names.length
  | [], value, t, h => by
    cases h
    rfl
  | name :: later, value, t, h => by
    obtain ⟨next, -, h⟩ := bind_eq_ok.1 h
    obtain ⟨rest, hrest, h⟩ := bind_eq_ok.1 h
    cases h
    have ih := length_leading_of_read hrest
    simp only [cons, List.length_cons, ih]

theorem forall_of_read {m : Model} {P : Expression → Prop}
    (hmember : ∀ value name found, P value → m.findMember value name = .ok (some found) → P found) :
    ∀ {names : List String} {value : Expression} {t : Trail}, P value →
      read m value names = .ok t → (∀ e ∈ t.leading, P e) ∧ P t.last
  | [], value, t, hvalue, h => by
    cases h
    exact ⟨List.forall_mem_nil P, hvalue⟩
  | name :: later, value, t, hvalue, h => by
    obtain ⟨next, hnext, h⟩ := bind_eq_ok.1 h
    obtain ⟨rest, hrest, h⟩ := bind_eq_ok.1 h
    cases h
    have hnext' := hmember value name next hvalue (findMember_of_memberOf hnext)
    obtain ⟨hleading, hlast⟩ := forall_of_read hmember hnext' hrest
    exact ⟨List.forall_mem_cons.2 ⟨hvalue, hleading⟩, hlast⟩

end Trail

namespace Scope

variable (m : Model)

theorem self_mem_chain (s : Scope) : s ∈ s.chain := by
  cases s <;> exact List.mem_cons_self

/-- Enters values one in the other, the first one outermost. -/
def enterAll (s : Scope) (entry : Entry) (values : List Expression) : Scope :=
  values.foldl (fun s value => s.enter m entry value) s

@[simp] theorem enterAll_nil (s : Scope) (entry : Entry) : s.enterAll m entry [] = s := rfl

@[simp] theorem enterAll_cons (s : Scope) (entry : Entry) (v : Expression) (vs : List Expression) :
    s.enterAll m entry (v :: vs) = (s.enter m entry v).enterAll m entry vs := rfl

theorem current_enter_of_isStep (s : Scope) {entry : Entry} (v : Expression)
    (h : entry.isStep = true) : (s.enter m entry v).current = v := by
  cases entry with
  | guard =>
    -- the shape of a guard has no element that could stand for the value
    have hshape : m.shape v.type .guard = Model.guardShape v.type := rfl
    simp only [enter, current, Entry.isInverted, hshape, Model.guardShape]
    cases Model.effectiveType v.type with
    | error cause => rfl
    | ok ty => cases hp : ty.isPrimitive <;> simp [Except.map, hp, rebind]
  | invertedGuard => rfl
  | plain => simp [Entry.isStep] at h
  | positive => simp [Entry.isStep] at h
  | inverted => simp [Entry.isStep] at h

/-- The values of a path that is read from a scope. Its first name is looked for outward. -/
def trail (s : Scope) (path : String) : Except ContextError Trail := do
  let start := Scope.same s
  Trail.read m (← start.found (Path.names path).1 (start.lookup m (Path.names path).1))
    (Path.names path).2

variable {m} in
theorem length_leading_of_trail {s : Scope} {path : String} {t : Trail}
    (h : s.trail m path = .ok t) : t.leading.length = (Path.names path).2.length := by
  obtain ⟨first, -, hread⟩ := bind_eq_ok.1 h
  exact Trail.length_leading_of_read hread

variable {m} in
theorem findMember_of_mem_leading {s : Scope} {path : String} {t : Trail}
    (h : s.trail m path = .ok t) {e : Expression} (he : e ∈ t.leading) :
    ∃ name found, m.findMember e name = .ok (some found) := by
  obtain ⟨first, -, hread⟩ := bind_eq_ok.1 h
  exact Trail.findMember_of_mem_leading hread e he

theorem findMember_of_lookupAmong {name : String} {found : Expression} :
    ∀ {scopes : List Scope}, lookupAmong m name scopes = .ok (some found) →
      ∃ s ∈ scopes, m.findMember s.current name = .ok (some found)
  | [], h => by cases h
  | s :: rest, h => by
    obtain ⟨outcome, houtcome, h⟩ := bind_eq_ok.1 h
    cases outcome with
    | some value =>
      cases h
      exact ⟨s, List.mem_cons_self, houtcome⟩
    | none =>
      obtain ⟨s', hs', hfound⟩ := findMember_of_lookupAmong h
      exact ⟨s', List.mem_cons_of_mem s hs', hfound⟩

theorem found_eq_ok {s : Scope} {name : String} {outcome : Except TypeError (Option Expression)}
    {value : Expression} (h : s.found name outcome = .ok value) : outcome = .ok (some value) := by
  rcases outcome with cause | _ | found <;> cases h
  rfl

/-- What the current values of a scope and of those around it have, and what passes from a
value to its members, is so of every value of a trail. -/
theorem forall_of_trail {P : Expression → Prop}
    (hmember : ∀ value name found, P value → m.findMember value name = .ok (some found) → P found)
    {s : Scope} (hs : ∀ e ∈ s.chain, P e.current) {path : String} {t : Trail}
    (h : s.trail m path = .ok t) : (∀ e ∈ t.leading, P e) ∧ P t.last := by
  obtain ⟨first, hfirst, hread⟩ := bind_eq_ok.1 h
  obtain ⟨s', hs', hfound⟩ := findMember_of_lookupAmong m (found_eq_ok hfirst)
  refine Trail.forall_of_read hmember (hmember _ _ _ ?_ hfound) hread
  rcases List.mem_cons.1 hs' with rfl | hs'
  · exact hs s s.self_mem_chain
  · exact hs s' hs'

end Scope

theorem Link.isStep_leadingEntry (link : Link) : link.leadingEntry.isStep = true := by
  cases link <;> rfl

namespace Trail

variable (m : Model)

/-- The scope of a trail whose last value is entered as a link asks for. -/
def enterFrom (t : Trail) (s : Scope) (link : Link) : Except ContextError Scope :=
  match link.entry? with
  | some entry => .ok ((s.enterAll m link.leadingEntry t.leading).enter m entry t.last)
  | none => .error (.illegalLink link)

end Trail

namespace Scope

variable (m : Model)

theorem found_lookupMember (s : Scope) (name : String) :
    s.found name (s.lookupMember m name) = Trail.memberOf m s.current name := by
  simp only [lookupMember, Trail.memberOf]
  rcases m.findMember s.current name with cause | _ | value <;> rfl

theorem descend_eq (link : Link) : ∀ (later : List String) (s : Scope) (value : Expression),
    descend m link s value later = Trail.read m value later >>= (·.enterFrom m s link)
  | [], s, value => by
    simp only [descend, Trail.read, Trail.enterFrom, bind, Except.bind]
    cases link.entry? <;> rfl
  | name :: later, s, value => by
    have hcurrent := current_enter_of_isStep m s value link.isStep_leadingEntry
    simp only [descend, Trail.read, found_lookupMember, hcurrent]
    cases Trail.memberOf m value name with
    | error e => rfl
    | ok next =>
      have ih := descend_eq link later (s.enter m link.leadingEntry value) next
      simp only [bind, Except.bind] at ih ⊢
      rw [ih]
      cases Trail.read m next later <;> rfl

/-- A path always has a first name, which is looked for outward. -/
theorem resolvePath_eq_descend (s : Scope) (path : String) (link : Link) :
    s.resolvePath m path link =
      (same s).found (Path.names path).1 ((same s).lookup m (Path.names path).1) >>=
        fun first => descend m link (same s) first (Path.names path).2 := rfl

theorem resolvePath_eq (s : Scope) (path : String) (link : Link) :
    s.resolvePath m path link = s.trail m path >>= (·.enterFrom m (.same s) link) := by
  rw [resolvePath_eq_descend]
  simp only [trail, descend_eq]
  cases (Scope.same s).found _ _ <;> rfl

end Scope

namespace Context

variable (m : Model)

/-- The links that a name can have as the last of its path. -/
def valueLinks : List Link := [.escaped, .unescaped, .path, .positive, .inverted]

theorem getChild_of_entry (c : Context) {path : String} {link : Link} {entry : Entry}
    (hpath : path ≠ Path.current) (hentry : link.entry? = some entry) :
    c.getChild m path link = (c.scope.trail m path).map fun t =>
      .child c.output path c link
        (((Scope.same c.scope).enterAll m link.leadingEntry t.leading).enter m entry t.last) := by
  have hlink : link ≠ .parent := by rintro rfl; simp [Link.entry?] at hentry
  simp only [getChild, Scope.resolve, if_neg hpath, if_neg hlink, Scope.resolvePath_eq]
  cases c.scope.trail m path with
  | error e => rfl
  | ok t => simp [Trail.enterFrom, hentry, bind, Except.bind, Except.map]

theorem entry?_of_mem_valueLinks {link : Link} (h : link ∈ valueLinks) :
    ∃ entry, link.entry? = some entry := by
  cases link <;> simp [valueLinks] at h <;> exact ⟨_, rfl⟩

/-- The value of a name does not depend on the link that asks for it, and neither does
the error if there is none. -/
theorem value_getChild (c : Context) {path : String} {link : Link} (hpath : path ≠ Path.current)
    (hlink : link ∈ valueLinks) :
    (c.getChild m path link).map (fun d => d.scope.value) =
      (c.scope.trail m path).map Trail.last := by
  obtain ⟨entry, hentry⟩ := entry?_of_mem_valueLinks hlink
  rw [getChild_of_entry m c hpath hentry]
  cases c.scope.trail m path <;> rfl

end Context

/-! ### A shop

A page has items and a shelf, whose contents are of a type that the page leaves open. -/

namespace Shop

def table : ClassTable :=
  (ClassTable.standard "stachec.runtime.Renderable").addClass "Item"
    |>.addMethod "Item" "getTitle" (.declared "java.lang.String")
    |>.addClass "Shelf" none ["T"]
    |>.addMethod "Shelf" "getContents" (.array (.declared "T") 1)
    |>.addMethod "Shelf" "getOffers"
      (.applied "java.util.List" [.bounded .upper (.declared "T")])
    |>.addClass "Page"
    |>.addMethod "Page" "getItems" (.applied "java.util.List" [.declared "Item"])
    |>.addMethod "Page" "getShelf" (.applied "Shelf" [.bounded .upper (.declared "Item")])

def model : Model := { types := table.toTypeSystem }

/-- The root of a template over the page. -/
def page : Context :=
  .detached ⟨Context.writers model, .java⟩ .root (.root (model.rootExpression (.declared "Page")))

end Shop

namespace Context

variable (m : Model)

/-- Two links that ask for the same name meet the same value or the same error. -/
theorem getChild_value_unaffected_by_link (c : Context) (path : String) (link link' : Link)
    (hpath : path ≠ Path.current) (hlink : link ∈ valueLinks) (hlink' : link' ∈ valueLinks) :
    (c.getChild m path link).map (fun d => d.scope.value) =
      (c.getChild m path link').map (fun d => d.scope.value) := by
  rw [value_getChild m c hpath hlink, value_getChild m c hpath hlink']

/-- A section and an inverted section lead to the shelf's offers, each over a step of its
own kind. -/
theorem getChild_value_unaffected_by_link_offers :
    "shelf.offers" ≠ Path.current ∧ Link.positive ∈ valueLinks ∧ Link.inverted ∈ valueLinks ∧
      (Shop.page.getChild Shop.model "shelf.offers" .positive).map (fun d => d.scope.value) =
        (Shop.page.getChild Shop.model "shelf.offers" .inverted).map (fun d => d.scope.value) ∧
      ((Shop.page.getChild Shop.model "shelf.offers" .inverted).map fun d => d.scope.value.text) =
        .ok "data.getShelf().getOffers()" :=
  ⟨by decide, by decide, by decide,
    getChild_value_unaffected_by_link Shop.model Shop.page "shelf.offers" .positive .inverted
      (by decide) (by decide) (by decide),
    by decide +kernel⟩

end Context

end TypedMustache
