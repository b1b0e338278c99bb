import TypedMustache.Proofs.Complement
import TypedMustache.Proofs.Enterable
import TypedMustache.Proofs.PathMarkers

/-! Markers that meet null. Every value of a dotted name can be null unless it is of a primitive
type, and the values behind one that is null cannot be read. A section asks each leading value
whether it is null before it reads the next one, and an inverted section stops at the first
value that is absent. So a call on null can come of the markers themselves only: a section loops
over its last value, or asks it for its content if it is optional, without a test for null, and
an inverted section does the latter with any of its values. Where nothing of the kind happens, a
null value keeps the body of a section from being run and lets that of an inverted section be
run. -/

namespace TypedMustache

open Outcome

namespace Shape

/-- Whether a value of the shape can come to `v` when the code runs. Only a truth value that is not
boxed is never null. -/
def admits : Shape → RuntimeValue → Bool
  | .boolean boxed, .null => boxed
  | .boolean _, .truth _ => true
  | .iteration _, .null => true
  | .iteration _, .sequence _ => true
  | .array _, .null => true
  | .array _, .array _ => true
  | .optional _, .null => true
  | .optional _, .optional _ => true
  | .nullable, _ => true
  | _, _ => false

/-- Whether a marker takes a value of the shape to be there. All ask an optional value for its
content, and that of a section loops over a value that has elements. -/
def isTakenAsThere (inverted : Bool) : Shape → Bool
  | .optional _ => true
  | .iteration _ => !inverted
  | .array _ => !inverted
  | _ => false

end Shape

/-- Whether each value comes to something of its shape, as long as those before it are not null.
Nothing is said of what is read from null. -/
def Model.Assigns (m : Model) (env : Valuation) : List Expression → Prop
  | [] => True
  | e :: es =>
    (∀ shape, m.sectionShape e.type = .ok shape →
      ∃ v, env e.text = some v ∧ shape.admits v = true) ∧
    (env e.text ≠ some .null → m.Assigns env es)

/-- Whether the marker of an inverted section takes a value to be there. -/
def Model.TakenAsThere (m : Model) (e : Expression) : Prop :=
  ∃ shape, m.sectionShape e.type = .ok shape ∧ shape.isTakenAsThere true = true

theorem Model.takenAsThere_iff {m : Model} {e : Expression} {shape : Shape}
    (hshape : m.sectionShape e.type = .ok shape) :
    m.TakenAsThere e ↔ shape.isTakenAsThere true = true := by
  simp [TakenAsThere, hshape]

/-- Whether some element has the property `q`, and all before it have the property `p`. -/
def Until {α : Type} (p q : α → Prop) : List α → Prop
  | [] => False
  | x :: xs => q x ∨ p x ∧ Until p q xs

namespace Scope

variable {m : Model} {env : Valuation} {value : Expression} {shape : Shape} {v : RuntimeValue}

/-! ### Single values -/

theorem enters_presence (depth : Nat) (hshape : shape ≠ .plain) (hv : env value.text = some v)
    (hadmits : shape.admits v = true) :
    Header.allEnter? env (presence value depth shape) =
      if v = .null ∧ shape.isTakenAsThere false = true then none
      else some (!(v.isNull || shape.passesOver v)) := by
  rcases shape with _ | (_ | _) | _ | _ | _ | _ <;> cases v <;>
    simp_all [presence, Header.enters?, Condition.holds?, RuntimeValue.rounds?,
      RuntimeValue.isNull, Shape.passesOver, RuntimeValue.isHollow, RuntimeValue.truth?,
      RuntimeValue.filled?, RuntimeValue.count?, RuntimeValue.length?, Shape.admits,
      Shape.isTakenAsThere]

theorem holds_absence {condition : Condition} (hcondition : absence value shape = .ok condition)
    (hv : env value.text = some v) (hadmits : shape.admits v = true) :
    condition.holds? env =
      if v = .null ∧ shape.isTakenAsThere true = true then none
      else some (v.isNull || shape.passesOver v) := by
  rcases shape with _ | (_ | _) | _ | _ | _ | _ <;> cases hcondition <;> cases v <;>
    simp_all [Condition.holds?, RuntimeValue.isNull, Shape.passesOver, RuntimeValue.isHollow,
      RuntimeValue.truth?, RuntimeValue.filled?, RuntimeValue.count?, RuntimeValue.length?,
      Shape.admits, Shape.isTakenAsThere]

/-! ### Several values -/

theorem enters_guardHeaders {rest : List Header} : ∀ {vs : List Expression} {last : Expression},
    (∀ e ∈ vs, ∃ shape, m.sectionShape e.type = .ok shape) → m.Assigns env (vs ++ [last]) →
      ((∀ e ∈ vs, env e.text ≠ some .null) ∧ m.Assigns env [last] ∧
          Header.allEnter? env (vs.map guardHeader ++ rest) = Header.allEnter? env rest) ∨
        (∃ e ∈ vs, env e.text = some .null) ∧
          Header.allEnter? env (vs.map guardHeader ++ rest) = some false
  | [], last, _, hassigns => .inl ⟨List.forall_mem_nil _, hassigns, rfl⟩
  | e :: vs, last, hshapes, hassigns => by
    obtain ⟨⟨shape, hshape⟩, hshapes⟩ := List.forall_mem_cons.1 hshapes
    obtain ⟨v, hv, -⟩ := hassigns.1 shape hshape
    have htest : (guardHeader e).enters? env = some (!v.isNull) := by
      simp [guardHeader, Header.enters?, Condition.holds?, hv]
    rw [List.map_cons, List.cons_append, Header.allEnter?, htest]
    cases v with
    | null => exact .inr ⟨⟨e, List.mem_cons_self, hv⟩, rfl⟩
    | _ =>
      have hne : env e.text ≠ some .null := by simp [hv]
      rcases enters_guardHeaders hshapes (hassigns.2 hne) with
        ⟨hvs, hlast, hrest⟩ | ⟨⟨e', he', hnull⟩, hskip⟩
      · exact .inl ⟨List.forall_mem_cons.2 ⟨hne, hvs⟩, hlast, hrest⟩
      · exact .inr ⟨⟨e', List.mem_cons_of_mem e he', hnull⟩, hskip⟩

/-- A section fails on its last value alone, if that is null and taken to be there. Any other null
keeps its body from being run. -/
theorem allEnter?_on_null {vs : List Expression} {last : Expression} {shape : Shape} (depth : Nat)
    (hshapes : ∀ e ∈ vs, ∃ shape, m.sectionShape e.type = .ok shape)
    (hshape : m.sectionShape last.type = .ok shape) (hassigns : m.Assigns env (vs ++ [last])) :
    (Header.allEnter? env (vs.map guardHeader ++ presence last depth shape) = none ↔
        (∀ e ∈ vs, env e.text ≠ some .null) ∧ env last.text = some .null ∧
          shape.isTakenAsThere false = true) ∧
      ((∃ e ∈ vs ++ [last], env e.text = some .null) →
        Header.allEnter? env (vs.map guardHeader ++ presence last depth shape) = none ∨
          Header.allEnter? env (vs.map guardHeader ++ presence last depth shape) = some false) := by
  rcases enters_guardHeaders hshapes hassigns with ⟨hvs, hlast, hrest⟩ | ⟨⟨e, he, hnull⟩, hskip⟩
  · obtain ⟨v, hv, hadmits⟩ := hlast.1 shape hshape
    have hne := m.sectionShape_ne_plain hshape
    rw [hrest, enters_presence depth hne hv hadmits, hv]
    constructor
    · by_cases hfails : v = .null ∧ shape.isTakenAsThere false = true
      · rw [if_pos hfails]
        exact iff_of_true rfl ⟨hvs, congrArg some hfails.1, hfails.2⟩
      · rw [if_neg hfails]
        exact iff_of_false (Option.some_ne_none _) fun h => hfails ⟨Option.some.inj h.2.1, h.2.2⟩
    · rintro ⟨e, he, hnull⟩
      rcases List.mem_append.1 he with he | he
      · exact absurd hnull (hvs e he)
      · obtain rfl := List.mem_singleton.1 he
        obtain rfl := Option.some.inj (hv.symm.trans hnull)
        split <;> simp [RuntimeValue.isNull]
  · rw [hskip]
    exact ⟨iff_of_false (Option.some_ne_none _) fun h => h.1 e he hnull, fun _ => .inr rfl⟩

/-- An inverted section fails on the first value that is null or passed over, if that is null and
taken to be there. Any other null lets its body be run. -/
theorem anyHolds?_on_null {values : List Expression} {conditions : List Condition}
    (hconditions : List.Forall₂ m.AbsentWhen values conditions)
    (hassigns : m.Assigns env values) :
    (Condition.anyHolds? env conditions = none ↔
        Until (fun e => env e.text ≠ some .null ∧ ¬m.PassedOver env e)
          (fun e => env e.text = some .null ∧ m.TakenAsThere e) values) ∧
      ((∃ e ∈ values, env e.text = some .null) →
        Condition.anyHolds? env conditions = none ∨
          Condition.anyHolds? env conditions = some true) := by
  induction hconditions with
  | nil => exact ⟨iff_of_false (Option.some_ne_none _) id, by simp⟩
  | @cons e condition values conditions hcondition _ ih =>
    obtain ⟨shape, hshape, hcondition⟩ := hcondition
    obtain ⟨v, hv, hadmits⟩ := hassigns.1 shape hshape
    rw [Condition.anyHolds?, holds_absence hcondition hv hadmits]
    have htaken := m.takenAsThere_iff hshape
    by_cases hnull : v = .null
    · subst hnull
      by_cases hfails : shape.isTakenAsThere true = true
      · rw [if_pos ⟨rfl, hfails⟩]
        exact ⟨iff_of_true rfl (.inl ⟨hv, htaken.2 hfails⟩), fun _ => .inl rfl⟩
      · rw [if_neg fun h => hfails h.2]
        refine ⟨iff_of_false (Option.some_ne_none _) ?_, fun _ => .inr rfl⟩
        rintro (⟨-, h⟩ | ⟨⟨hne, -⟩, -⟩)
        · exact hfails (htaken.1 h)
        · exact hne hv
    · have hne : env e.text ≠ some .null := fun h => hnull (Option.some.inj (hv.symm.trans h))
      have hpassed := m.passedOver_iff hshape hv
      have hisNull : v.isNull = false := by cases v <;> trivial
      rw [if_neg fun h => hnull h.1, hisNull, Bool.false_or]
      cases hover : shape.passesOver v with
      | true =>
        refine ⟨iff_of_false (Option.some_ne_none _) ?_, fun _ => .inr rfl⟩
        rintro (⟨hnull, -⟩ | ⟨⟨-, hpasses⟩, -⟩)
        · exact hne hnull
        · exact hpasses (hpassed.2 hover)
      | false =>
        -- the value is there, so the conditions behind it decide
        obtain ⟨hfails, hruns⟩ := ih (hassigns.2 hne)
        have hpasses : ¬m.PassedOver env e := by simp [hpassed, hover]
        refine ⟨hfails.trans (by simp [Until, hne, hpasses]), ?_⟩
        rintro ⟨e', he', hnull'⟩
        rcases List.mem_cons.1 he' with rfl | he'
        · exact absurd hnull' hne
        · exact hruns ⟨e', he', hnull'⟩

/-! ### Markers -/

theorem bodyRuns?_of_headers {s : Scope} {headers : List Header}
    (h : s.headers = .ok headers) : s.bodyRuns? env = Header.allEnter? env headers := by
  rw [bodyRuns?, h]
  rfl

end Scope

namespace Context

variable {m : Model}

theorem exists_headers_of_opening {c : Context} {text : String} (h : c.opening m = .ok text) :
    ∃ headers, c.scope.headers = .ok headers := by
  unfold opening at h
  split at h
  · cases h
  · next markers hmarkers =>
    obtain ⟨headers, hheaders, -⟩ := map_eq_ok.1 hmarkers
    exact ⟨headers, hheaders⟩

/-- The markers of a section and of an inverted section where values are null. A section fails if
its last value is null, its header takes that to be there, and no value before it is null. An
inverted section fails if it comes to a null value that it takes to be there before any other value
that is null or passed over. In all other cases a null value keeps the body of a section from being
run, and lets that of an inverted section be run. -/
theorem bodyRuns?_on_null {c d : Context} {path : String} {link : Link} {text : String}
    (hpath : path ≠ Path.current) (hlink : link = .positive ∨ link = .inverted)
    (hd : c.getChild m path link = .ok d) (htext : d.opening m = .ok text) :
    ∃ t, c.scope.trail m path = .ok t ∧ t.values.length = (Path.names path).2.length + 1 ∧
      ∀ env, m.Assigns env t.values →
        match link with
        | .inverted =>
          (d.scope.bodyRuns? env = none ↔
              Until (fun e => env e.text ≠ some .null ∧ ¬m.PassedOver env e)
                (fun e => env e.text = some .null ∧ m.TakenAsThere e) t.values) ∧
            ((∃ e ∈ t.values, env e.text = some .null) →
              d.scope.bodyRuns? env = none ∨ d.scope.bodyRuns? env = some true)
        | _ =>
          (d.scope.bodyRuns? env = none ↔
              (∀ e ∈ t.leading, env e.text ≠ some .null) ∧ env t.last.text = some .null ∧
                ∃ shape, m.sectionShape t.last.type = .ok shape ∧
                  shape.isTakenAsThere false = true) ∧
            ((∃ e ∈ t.values, env e.text = some .null) →
              d.scope.bodyRuns? env = none ∨ d.scope.bodyRuns? env = some false) := by
  obtain ⟨headers, hheaders⟩ := exists_headers_of_opening htext
  have hvalue : link ∈ valueLinks := by rcases hlink with rfl | rfl <;> decide
  obtain ⟨entry, hentry⟩ := entry?_of_mem_valueLinks hvalue
  rw [getChild_of_entry m c hpath hentry] at hd
  obtain ⟨t, ht, rfl⟩ := map_eq_ok.1 hd
  refine ⟨t, ht, by simp [Trail.values, Scope.length_leading_of_trail ht], fun env hassigns => ?_⟩
  rw [Scope.bodyRuns?_of_headers hheaders]
  rcases hlink with rfl | rfl
  · cases hentry
    obtain ⟨shape, hshape, rfl⟩ :=
      Scope.headers_eq_of_guarded (Scope.guardShape_of_mem_leading ht) rfl hheaders
    have hshapes : ∀ e ∈ t.leading, ∃ shape, m.sectionShape e.type = .ok shape := by
      intro e he
      obtain ⟨name, found, hfound⟩ := Scope.findMember_of_mem_leading ht he
      exact Model.exists_sectionShape_of_findMember hfound
    obtain ⟨hfails, hruns⟩ := Scope.allEnter?_on_null _ hshapes hshape hassigns
    refine ⟨hfails.trans ?_, hruns⟩
    refine and_congr_right fun _ => and_congr_right fun _ => ⟨fun h => ⟨shape, hshape, h⟩, ?_⟩
    rintro ⟨shape', hshape', htaken⟩
    obtain rfl := Except.ok.inj (hshape.symm.trans hshape')
    exact htaken
  · cases hentry
    obtain ⟨conditions, hconditions, rfl⟩ := Scope.headers_eq_of_inverted hheaders
    rw [Header.allEnter?_singleton]
    exact Scope.anyHolds?_on_null hconditions hassigns

end Context

namespace Model

variable {m : Model} {env : Valuation} {e : Expression} {shape : Shape}

theorem assigns_cons {es : List Expression} {v : RuntimeValue}
    (hshape : m.sectionShape e.type = .ok shape) (hv : env e.text = some v)
    (hadmits : shape.admits v = true) (hes : v ≠ .null → m.Assigns env es) :
    m.Assigns env (e :: es) := by
  constructor
  · intro shape' hshape'
    obtain rfl := Except.ok.inj (hshape.symm.trans hshape')
    exact ⟨v, hv, hadmits⟩
  · intro hne
    exact hes fun h => hne (h ▸ hv)

end Model

namespace Shop

def items : Expression :=
  ⟨"data.getItems()", .applied "java.util.List" [.declared "Item"], ["items"]⟩

def shelf : Expression :=
  ⟨"data.getShelf()", .applied "Shelf" [.bounded .upper (.declared "Item")], ["shelf"]⟩

def offers : Expression :=
  ⟨"data.getShelf().getOffers()",
    .applied "java.util.List" [.bounded .upper (.bounded .upper (.declared "Item"))],
    ["shelf", "offers"]⟩

/-- The page has neither items nor offers on its shelf. -/
def nothingOffered : Valuation := fun text =>
  if text = "data" ∨ text = shelf.text then some .object
  else if text = items.text ∨ text = offers.text then some .null
  else none

end Shop

namespace Context

/-- An inverted section over offers that are null is run, since it has read the shelf before. -/
theorem bodyRuns?_on_null_offers :
    "shelf.offers" ≠ Path.current ∧ (Link.inverted = .positive ∨ Link.inverted = .inverted) ∧
      ∃ (d : Context) (text : String),
        Shop.page.getChild Shop.model "shelf.offers" .inverted = .ok d ∧
        d.opening Shop.model = .ok text ∧
        Shop.page.scope.trail Shop.model "shelf.offers" = .ok ⟨[Shop.shelf], Shop.offers⟩ ∧
        Shop.model.Assigns Shop.nothingOffered [Shop.shelf, Shop.offers] ∧
        Shop.nothingOffered Shop.offers.text = some .null ∧
        d.scope.bodyRuns? Shop.nothingOffered = some true := by
  have hopening : (Shop.page.getChild Shop.model "shelf.offers" .inverted).map
      (fun d => d.opening Shop.model) =
        .ok (.ok ("/* RenderingContext: Inverted iteration */\n" ++
          "/* Type: java.util.List<? extends ? extends Item> */\n" ++
          "if (data.getShelf() == null || data.getShelf().getOffers() == null || " ++
          "!data.getShelf().getOffers().iterator().hasNext()) \x7b\n")) := by
    decide +kernel
  obtain ⟨d, hd, htext⟩ := map_eq_ok.1 hopening
  have htrail : Shop.page.scope.trail Shop.model "shelf.offers" =
      .ok ⟨[Shop.shelf], Shop.offers⟩ := by
    decide +kernel
  have hshelf : Shop.model.sectionShape Shop.shelf.type = .ok .nullable := by decide +kernel
  have hoffers : Shop.model.sectionShape Shop.offers.type =
      .ok (.iteration (.bounded .upper (.declared "Item"))) := by
    decide +kernel
  have hassigns : Shop.model.Assigns Shop.nothingOffered [Shop.shelf, Shop.offers] :=
    Model.assigns_cons hshelf (v := .object) (by decide) rfl fun _ =>
      Model.assigns_cons hoffers (v := .null) (by decide) rfl fun h => absurd rfl h
  obtain ⟨t, ht, -, hnull⟩ := bodyRuns?_on_null (by decide) (.inr rfl) hd htext
  obtain rfl := Except.ok.inj (htrail.symm.trans ht)
  obtain ⟨hfails, hruns⟩ := hnull Shop.nothingOffered hassigns
  refine ⟨by decide, .inr rfl, d, _, hd, htext, htrail, hassigns, by decide, ?_⟩
  rcases hruns ⟨Shop.offers, by decide, by decide⟩ with hfailed | hrun
  · have htaken : ¬Shop.model.TakenAsThere Shop.offers := by
      simp [Model.takenAsThere_iff hoffers, Shape.isTakenAsThere]
    rcases hfails.1 hfailed with ⟨hshelfNull, -⟩ | ⟨-, ⟨-, hoffersTaken⟩ | ⟨-, hnone⟩⟩
    · exact absurd hshelfNull (by decide)
    · exact absurd hoffersTaken htaken
    · exact hnone.elim
  · exact hrun

/-- The header of a section over items that are null loops over null. -/
theorem section_loops_over_null_items :
    Shop.page.Reachable Shop.model (.declared "Page") ∧ "items" ≠ Path.current ∧
      Shop.nothingOffered Shop.page.current.text = some .object ∧
      Shop.page.scope.trail Shop.model "items" = .ok ⟨[], Shop.items⟩ ∧
      Shop.model.Assigns Shop.nothingOffered [Shop.items] ∧
      Shop.nothingOffered Shop.items.text = some .null ∧
      (Shop.page.getChild Shop.model "items" .positive).map
          (fun d => (d.scope.opening, d.scope.bodyRuns? Shop.nothingOffered)) =
        .ok (.ok "for (Item element1 : data.getItems()) \x7b\n", none) := by
  have hshape : Shop.model.sectionShape Shop.items.type = .ok (.iteration (.declared "Item")) := by
    decide +kernel
  have hassigns : Shop.model.Assigns Shop.nothingOffered [Shop.items] :=
    Model.assigns_cons hshape (v := .null) (by decide) rfl fun h => absurd rfl h
  exact ⟨Shop.page_reachable, by decide, by decide, by decide +kernel, hassigns, by decide,
    by decide +kernel⟩

end Context

end TypedMustache
