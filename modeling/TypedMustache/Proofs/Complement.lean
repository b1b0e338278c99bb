import TypedMustache.ClassTable.Standard
import TypedMustache.Proofs.Execution
import TypedMustache.Proofs.Reachable
import TypedMustache.Proofs.TrailMarkers

/-! A section and an inverted section of one name against each other. Whatever the values
are, at least one of the two bodies is run. Both can be: leading names of a section are
tested for null alone, while an inverted section asks of each of them what it asks of its
last name. So both are run exactly if the section is although it leads through a value
that a section of its own would pass over, such as a list without elements. -/

namespace TypedMustache

open Outcome

namespace Model

variable (m : Model)

/-- Whether a value is there and a section over it would still not be entered. -/
def PassedOver (env : Valuation) (e : Expression) : Prop :=
  ∃ shape v, m.sectionShape e.type = .ok shape ∧ env e.text = some v ∧ shape.passesOver v = true

theorem passedOver_iff {env : Valuation} {e : Expression} {shape : Shape} {v : RuntimeValue}
    (hshape : m.sectionShape e.type = .ok shape) (hv : env e.text = some v) :
    m.PassedOver env e ↔ shape.passesOver v = true := by
  constructor
  · rintro ⟨shape', w, hshape', hw, hpasses⟩
    obtain rfl : shape = shape' := Except.ok.inj (hshape.symm.trans hshape')
    obtain rfl : v = w := Option.some.inj (hv.symm.trans hw)
    exact hpasses
  · exact fun hpasses => ⟨shape, v, hshape, hv, hpasses⟩

end Model

namespace Scope

variable {m : Model} {env : Valuation}

theorem enters_guardHeader {e : Expression} {entered : Bool}
    (h : (guardHeader e).enters? env = some entered) :
    ∃ v, env e.text = some v ∧ entered = !v.isNull := by
  simp only [guardHeader, Header.enters?, Condition.anyHolds?_singleton, Condition.holds?,
    Option.map_eq_some_iff] at h
  obtain ⟨v, hv, rfl⟩ := h
  exact ⟨v, hv, rfl⟩

/-- The markers of the two sections of one trail. The induction is on the leading values:
the first one either ends both evaluations or has no part in their outcome. -/
theorem complement_of_trail {last : Expression} {shape : Shape} {condition : Condition}
    {depth : Nat} (hshape : m.sectionShape last.type = .ok shape)
    (hcondition : absence last shape = .ok condition) :
    ∀ {vs : List Expression} {absences : List Condition} {p i : Bool},
      stepAbsences m vs = .ok absences →
      Header.allEnter? env (vs.map guardHeader ++ presence last depth shape) = some p →
      Condition.anyHolds? env (absences ++ [condition]) = some i →
      (p = true ∨ i = true) ∧ (p = true → (i = true ↔ ∃ e ∈ vs, m.PassedOver env e))
  | [], absences, p, i, habsences, hp, hi => by
    cases habsences
    rw [List.map_nil, List.nil_append] at hp
    rw [List.nil_append, Condition.anyHolds?_singleton] at hi
    obtain ⟨v, hv, rfl⟩ := presence_enters (m.sectionShape_ne_plain hshape) hp
    obtain ⟨w, hw, rfl⟩ := absence_holds hcondition hi
    obtain rfl : v = w := Option.some.inj (hv.symm.trans hw)
    cases v.isNull || shape.passesOver v <;> simp
  | e :: vs, absences, p, i, habsences, hp, hi => by
    obtain ⟨own, hown, habsences⟩ := bind_eq_ok.1 habsences
    obtain ⟨first, hfirst, habsences⟩ := bind_eq_ok.1 habsences
    obtain ⟨later, hlater, habsences⟩ := bind_eq_ok.1 habsences
    cases habsences
    obtain ⟨entered, hentered, hp⟩ := Option.bind_eq_some_iff.1 hp
    obtain ⟨absent, habsent, hi⟩ := Option.bind_eq_some_iff.1 hi
    obtain ⟨v, hv, rfl⟩ := enters_guardHeader hentered
    obtain ⟨w, hw, rfl⟩ := absence_holds hfirst habsent
    obtain rfl : v = w := Option.some.inj (hv.symm.trans hw)
    have hpassed := m.passedOver_iff hown hv
    cases hnull : v.isNull with
    | true =>
      -- the section is not entered and the inverted one is
      rw [hnull] at hp hi
      cases hp
      cases hi
      simp
    | false =>
      rw [hnull] at hp hi
      cases hover : own.passesOver v with
      | true =>
        rw [hover] at hi
        cases hi
        exact ⟨.inr rfl, fun _ => by simp [hpassed, hover]⟩
      | false =>
        rw [hover] at hi
        have ih := complement_of_trail hshape hcondition hlater hp hi
        simpa [hpassed, hover] using ih

theorem bodyRuns?_eq_some {s : Scope} {b : Bool} (h : s.bodyRuns? env = some b) :
    ∃ headers, s.headers = .ok headers ∧ Header.allEnter? env headers = some b := by
  obtain ⟨headers, hheaders, hb⟩ := Option.bind_eq_some_iff.1 h
  refine ⟨headers, ?_, hb⟩
  cases hs : s.headers with
  | error cause => simp [hs, Except.toOption] at hheaders
  | ok hs' =>
    rw [hs] at hheaders
    cases hheaders
    rfl

end Scope

namespace Context

variable {m : Model}

/-- Of a section and an inverted section of the same name at least one runs its body, and
both do exactly if the section does although it leads through a value that is passed over. -/
theorem section_or_inverted_runs {c positive inverted : Context} {path : String} {env : Valuation}
    {p i : Bool} (hpositive : c.getChild m path .positive = .ok positive)
    (hinverted : c.getChild m path .inverted = .ok inverted)
    (hp : positive.scope.bodyRuns? env = some p) (hi : inverted.scope.bodyRuns? env = some i) :
    ∃ t, c.scope.trail m path = .ok t ∧ t.leading.length = (Path.names path).2.length ∧
      (p = true ∨ i = true) ∧ (p = true → (i = true ↔ ∃ e ∈ t.leading, m.PassedOver env e)) := by
  have hpath : path ≠ Path.current := by
    rintro rfl
    cases hinverted
  rw [getChild_of_entry m c hpath rfl] at hpositive hinverted
  obtain ⟨t, ht, rfl⟩ := map_eq_ok.1 hpositive
  obtain ⟨t', ht', rfl⟩ := map_eq_ok.1 hinverted
  obtain rfl : t = t' := Except.ok.inj (ht.symm.trans ht')
  refine ⟨t, ht, Scope.length_leading_of_trail ht, ?_⟩
  have hguards : ∀ e ∈ t.leading, Model.guardShape e.type = .ok .nullable := by
    intro e he
    obtain ⟨name, found, hfound⟩ := Scope.findMember_of_mem_leading ht he
    exact Scope.guardShape_of_findMember hfound
  obtain ⟨opened, hopened, hp⟩ := Scope.bodyRuns?_eq_some hp
  obtain ⟨block, hblock, hi⟩ := Scope.bodyRuns?_eq_some hi
  obtain ⟨shape, hshape, hopened⟩ :=
    bind_eq_ok.1 ((Scope.headers_enter_guarded m c.scope hguards rfl t.last).symm.trans hopened)
  cases hopened
  obtain ⟨absences, habsences, hblock⟩ :=
    bind_eq_ok.1 ((Scope.headers_enter_inverted m c.scope t.leading t.last).symm.trans hblock)
  obtain ⟨shape', hshape', hblock⟩ := bind_eq_ok.1 hblock
  obtain rfl : shape = shape' := Except.ok.inj (hshape.symm.trans hshape')
  obtain ⟨condition, hcondition, hblock⟩ := bind_eq_ok.1 hblock
  cases hblock
  rw [Header.allEnter?_singleton] at hi
  exact Scope.complement_of_trail hshape hcondition habsences hp hi

end Context

namespace Shop

/-- The page has no items. -/
def noItems : Valuation := fun text =>
  if text = "data.getItems()" then some (.sequence 0)
  else if text = "data.getItems().isEmpty()" then some (.truth true)
  else none

/-- What the body of a section or an inverted section does on a page without items. -/
def runs (path : String) (link : Link) : Except ContextError (Option Bool) :=
  (page.getChild model path link).map fun d => d.scope.bodyRuns? noItems

end Shop

namespace Context

/-- The two sections over `items.empty` on a page without items. -/
theorem section_or_inverted_runs_no_items :
    ∃ (positive inverted : Context) (p i : Bool),
      Shop.page.getChild Shop.model "items.empty" .positive = .ok positive ∧
      Shop.page.getChild Shop.model "items.empty" .inverted = .ok inverted ∧
      positive.scope.bodyRuns? Shop.noItems = some p ∧
      inverted.scope.bodyRuns? Shop.noItems = some i ∧
      ∃ t, Shop.page.scope.trail Shop.model "items.empty" = .ok t ∧
        t.leading.length = (Path.names "items.empty").2.length ∧ (p = true ∨ i = true) ∧
        (p = true → (i = true ↔ ∃ e ∈ t.leading, Shop.model.PassedOver Shop.noItems e)) := by
  have hpositive : Shop.runs "items.empty" .positive = .ok (some true) := by decide +kernel
  have hinverted : Shop.runs "items.empty" .inverted = .ok (some true) := by decide +kernel
  obtain ⟨positive, hpositive, hp⟩ := map_eq_ok.1 hpositive
  obtain ⟨inverted, hinverted, hi⟩ := map_eq_ok.1 hinverted
  exact ⟨positive, inverted, true, true, hpositive, hinverted, hp, hi,
    section_or_inverted_runs hpositive hinverted hp hi⟩

/-- The list of items is there and has no elements, so both of their bodies run. -/
theorem both_run_without_items :
    Shop.page.Reachable Shop.model (.declared "Page") ∧ "items.empty" ≠ Path.current ∧
      Shop.runs "items.empty" .positive = .ok (some true) ∧
      Shop.runs "items.empty" .inverted = .ok (some true) :=
  ⟨Shop.page_reachable, by decide, by decide +kernel, by decide +kernel⟩

end Context

end TypedMustache
