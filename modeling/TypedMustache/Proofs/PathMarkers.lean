import Mathlib.Data.List.Forall2
import TypedMustache.Context.Code
import TypedMustache.Proofs.Reachable
import TypedMustache.Proofs.TrailMarkers

/-! The opening text of a dotted name. It covers the values of the name's own trail and
nothing else: a variable has one null test for each leading value, a section adds the header
of its last value's shape, and an inverted section has one header with the absence of every
value in the order of the path. Scopes around the one that the name is read from have no
part in it, since the scope that stands for that one is no step. -/

namespace TypedMustache

open Outcome

/-- The values of the names of a path, in their order. -/
def Trail.values (t : Trail) : List Expression := t.leading ++ [t.last]

/-- Whether a condition is the one on which a section passes over a value. -/
def Model.AbsentWhen (m : Model) (e : Expression) (condition : Condition) : Prop :=
  ∃ shape, m.sectionShape e.type = .ok shape ∧ Scope.absence e shape = .ok condition

namespace Scope

variable {m : Model}

/-- The text of null tests, one block in the other. -/
def nullTests (values : List Expression) : String :=
  String.join (values.map fun v => "if (" ++ v.text ++ " != null) \x7b\n")

/-- The text of a header that is entered on any of some conditions. -/
def anyTest (conditions : List Condition) : String :=
  "if (" ++ " || ".intercalate (conditions.map Condition.text) ++ ") \x7b\n"

/-- What opens a section, for each shape of its value. -/
theorem text_presence (v : Expression) (depth : Nat) (shape : Shape) :
    String.join ((presence v depth shape).map Header.text) =
      match shape with
      | .plain => ""
      | .boolean false => "if (" ++ v.text ++ ") \x7b\n"
      | .boolean true => "if (" ++ v.text ++ " != null && " ++ v.text ++ ") \x7b\n"
      | .iteration element =>
        "for (" ++ element.text ++ " " ++ loopVariable depth ++ " : " ++ v.text ++ ") \x7b\n"
      | .array element =>
        "for (" ++ element.text ++ " " ++ loopVariable depth ++ " : " ++ v.text ++ ") \x7b\n"
      | .optional _ => "if (" ++ v.text ++ ".isPresent()) \x7b\n"
      | .nullable => "if (" ++ v.text ++ " != null) \x7b\n" := by
  cases shape with
  | boolean nullable =>
    cases nullable <;> simp [presence, Header.text, Condition.text, String.append_assoc]
  | _ => simp [presence, Header.text, Condition.text, String.append_assoc]

/-- What an inverted section tests, for each shape of a value on the way to it. -/
theorem text_absence (v : Expression) (shape : Shape) :
    (absence v shape).map Condition.text =
      match shape with
      | .plain => .error (.notSection v.type)
      | .boolean false => .ok ("!(" ++ v.text ++ ")")
      | .boolean true => .ok (v.text ++ " == null || !" ++ v.text)
      | .iteration _ => .ok (v.text ++ " == null || !" ++ v.text ++ ".iterator().hasNext()")
      | .array _ => .ok (v.text ++ " == null || " ++ v.text ++ ".length == 0")
      | .optional _ => .ok ("!" ++ v.text ++ ".isPresent()")
      | .nullable => .ok (v.text ++ " == null") := by
  have hor : " == null || !" = " == null || " ++ "!" := rfl
  have hgroup : "!(" = "!" ++ "(" := rfl
  have hnull (s : String) : " == null || " ++ s = " == null" ++ (" || " ++ s) := by
    rw [← String.append_assoc]
    rfl
  cases shape with
  | boolean nullable =>
    cases nullable <;>
      simp only [absence, Except.map, Condition.text, hor, hgroup, hnull, String.append_assoc]
  | _ => simp only [absence, Except.map, Condition.text, hor, hnull, String.append_assoc]

theorem join_guardHeaders (values : List Expression) :
    String.join ((values.map guardHeader).map Header.text) = nullTests values := by
  simp [nullTests, guardHeader, Header.text, Condition.text, Function.comp_def,
    String.append_assoc]

theorem value_chain_enterAll (entry : Entry) (values : List Expression) (s : Scope) :
    (s.enterAll m entry values).chain.map value = values.reverse ++ s.chain.map value := by
  induction values generalizing s with
  | nil => rfl
  | cons v vs ih =>
    have hchain : (s.enter m entry v).chain.map value = v :: s.chain.map value := rfl
    rw [enterAll_cons, ih, hchain]
    simp

theorem value_chain_enter (s : Scope) (step entry : Entry) (t : Trail) :
    ((s.enterAll m step t.leading).enter m entry t.last).chain.map value =
      t.values.reverse ++ s.chain.map value := by
  have hvalues : t.values.reverse = t.last :: t.leading.reverse := by simp [Trail.values]
  rw [hvalues, List.cons_append, ← value_chain_enterAll step t.leading s]
  rfl

theorem absentWhen_of_stepAbsences : ∀ {values : List Expression} {conditions : List Condition},
    stepAbsences m values = .ok conditions → List.Forall₂ m.AbsentWhen values conditions
  | [], conditions, h => by
    cases h
    exact .nil
  | v :: vs, conditions, h => by
    obtain ⟨shape, hshape, h⟩ := bind_eq_ok.1 h
    obtain ⟨first, hfirst, h⟩ := bind_eq_ok.1 h
    obtain ⟨later, hlater, h⟩ := bind_eq_ok.1 h
    cases h
    exact .cons ⟨shape, hshape, hfirst⟩ (absentWhen_of_stepAbsences hlater)

theorem headers_eq_of_guarded {s : Scope} {vs : List Expression}
    (hvs : ∀ e ∈ vs, Model.guardShape e.type = .ok .nullable) {entry : Entry}
    (hentry : entry.isInverted = false) {last : Expression} {blocks : List Header}
    (h : (((Scope.same s).enterAll m .guard vs).enter m entry last).headers = .ok blocks) :
    ∃ shape, m.shape last.type entry = .ok shape ∧
      blocks = vs.map guardHeader ++
        presence last (((Scope.same s).enterAll m .guard vs).depth + 1) shape := by
  rw [headers_enter_guarded m s hvs hentry] at h
  obtain ⟨shape, hshape, h⟩ := bind_eq_ok.1 h
  cases h
  exact ⟨shape, hshape, rfl⟩

theorem headers_eq_of_inverted {s : Scope} {vs : List Expression} {last : Expression}
    {blocks : List Header}
    (h : (((Scope.same s).enterAll m .invertedGuard vs).enter m .inverted last).headers =
      .ok blocks) :
    ∃ conditions, List.Forall₂ m.AbsentWhen (vs ++ [last]) conditions ∧
      blocks = [.test conditions] := by
  rw [headers_enter_inverted m s] at h
  obtain ⟨leading, hleading, h⟩ := bind_eq_ok.1 h
  obtain ⟨shape, hshape, h⟩ := bind_eq_ok.1 h
  obtain ⟨condition, hcondition, h⟩ := bind_eq_ok.1 h
  cases h
  have hlast : m.AbsentWhen last condition := ⟨shape, hshape, hcondition⟩
  exact ⟨leading ++ [condition],
    List.rel_append (absentWhen_of_stepAbsences hleading) (.cons hlast .nil), rfl⟩

theorem opening_enter_guarded {s : Scope} {vs : List Expression}
    (hvs : ∀ e ∈ vs, Model.guardShape e.type = .ok .nullable) {entry : Entry}
    (hentry : entry.isInverted = false) {last : Expression} {text : String}
    (h : (((Scope.same s).enterAll m .guard vs).enter m entry last).opening = .ok text) :
    ∃ shape, m.shape last.type entry = .ok shape ∧
      text = nullTests vs ++ String.join
        ((presence last (((Scope.same s).enterAll m .guard vs).depth + 1) shape).map
          Header.text) := by
  obtain ⟨blocks, hblocks, rfl⟩ := map_eq_ok.1 h
  obtain ⟨shape, hshape, rfl⟩ := headers_eq_of_guarded hvs hentry hblocks
  refine ⟨shape, hshape, ?_⟩
  rw [List.map_append, String.join_append, join_guardHeaders]

theorem opening_enter_inverted {s : Scope} {vs : List Expression} {last : Expression}
    {text : String}
    (h : (((Scope.same s).enterAll m .invertedGuard vs).enter m .inverted last).opening =
      .ok text) :
    ∃ conditions, List.Forall₂ m.AbsentWhen (vs ++ [last]) conditions ∧
      text = anyTest conditions := by
  obtain ⟨blocks, hblocks, rfl⟩ := map_eq_ok.1 h
  obtain ⟨conditions, hconditions, rfl⟩ := headers_eq_of_inverted hblocks
  exact ⟨conditions, hconditions, by simp [anyTest, Header.text, String.append_assoc]⟩

end Scope

namespace Context

variable {m : Model}

theorem opening_scope (hdebug : m.config.debugComments = false) {c : Context} {text : String}
    (h : c.opening m = .ok text) : c.scope.opening = .ok text := by
  unfold opening at h
  split at h
  · cases h
  · next markers hmarkers =>
    simp only [hdebug, Bool.false_eq_true, if_false] at h
    cases h
    exact hmarkers

/-- The opening text of a name tests its leading values and opens the block of its last one, or
tests all of its values for absence at once. These are the values of the scopes that the name
adds to those around it. -/
theorem opening_getChild (hdebug : m.config.debugComments = false) {c d : Context}
    {path : String} {link : Link} {text : String} (hpath : path ≠ Path.current)
    (hlink : link ∈ valueLinks) (hd : c.getChild m path link = .ok d)
    (htext : d.opening m = .ok text) :
    ∃ t, c.scope.trail m path = .ok t ∧ t.values.length = (Path.names path).2.length + 1 ∧
      d.scope.chain.map Scope.value =
        t.values.reverse ++ (Scope.same c.scope).chain.map Scope.value ∧
      match link with
      | .inverted => ∃ conditions, List.Forall₂ m.AbsentWhen t.values conditions ∧
          text = Scope.anyTest conditions
      | .positive => ∃ shape, m.sectionShape t.last.type = .ok shape ∧
          text = Scope.nullTests t.leading ++
            String.join ((Scope.presence t.last d.scope.depth shape).map Header.text)
      | _ => text = Scope.nullTests t.leading := by
  obtain ⟨entry, hentry⟩ := entry?_of_mem_valueLinks hlink
  rw [getChild_of_entry m c hpath hentry] at hd
  obtain ⟨t, ht, rfl⟩ := map_eq_ok.1 hd
  have hopening := opening_scope hdebug htext
  have hguards := Scope.guardShape_of_mem_leading ht
  refine ⟨t, ht, ?_, ?_, ?_⟩
  · simp [Trail.values, Scope.length_leading_of_trail ht]
  · exact Scope.value_chain_enter (.same c.scope) link.leadingEntry entry t
  · cases link with
    | inverted =>
      cases hentry
      exact Scope.opening_enter_inverted hopening
    | positive =>
      cases hentry
      exact Scope.opening_enter_guarded hguards rfl hopening
    | root => cases hentry
    | parent => cases hentry
    | _ =>
      -- a variable has no block of its own, so only the tests before it are left
      cases hentry
      obtain ⟨shape, hshape, hvariable⟩ := Scope.opening_enter_guarded hguards rfl hopening
      cases hshape
      simpa [Scope.presence] using hvariable

end Context

namespace Shop

/-- The shop's types, for code without comments. -/
def plainModel : Model := { model with config := { debugComments := false } }

end Shop

namespace Context

/-- The list of items is tested for null, and then what it says of itself is tested. An inverted
section tests the list and what it says at once. -/
theorem opening_getChild_empty :
    Shop.plainModel.config.debugComments = false ∧ "items.empty" ≠ Path.current ∧
      Link.positive ∈ valueLinks ∧ Link.inverted ∈ valueLinks ∧
      (∃ (d : Context) (text : String),
        Shop.page.getChild Shop.plainModel "items.empty" .positive = .ok d ∧
        d.opening Shop.plainModel = .ok text ∧
        text = "if (data.getItems() != null) \x7b\n" ++
          "if (data.getItems().isEmpty()) \x7b\n" ∧
        ∃ t, Shop.page.scope.trail Shop.plainModel "items.empty" = .ok t ∧
          t.values.length = (Path.names "items.empty").2.length + 1 ∧
          d.scope.chain.map Scope.value =
            t.values.reverse ++ (Scope.same Shop.page.scope).chain.map Scope.value ∧
          ∃ shape, Shop.plainModel.sectionShape t.last.type = .ok shape ∧
            text = Scope.nullTests t.leading ++
              String.join ((Scope.presence t.last d.scope.depth shape).map Header.text)) ∧
      ∃ (d : Context) (text : String),
        Shop.page.getChild Shop.plainModel "items.empty" .inverted = .ok d ∧
        d.opening Shop.plainModel = .ok text ∧
        text = "if (data.getItems() == null || !data.getItems().iterator().hasNext() || " ++
          "!(data.getItems().isEmpty())) \x7b\n" ∧
        ∃ t, Shop.page.scope.trail Shop.plainModel "items.empty" = .ok t ∧
          t.values.length = (Path.names "items.empty").2.length + 1 ∧
          d.scope.chain.map Scope.value =
            t.values.reverse ++ (Scope.same Shop.page.scope).chain.map Scope.value ∧
          ∃ conditions, List.Forall₂ Shop.plainModel.AbsentWhen t.values conditions ∧
            text = Scope.anyTest conditions := by
  have hpositive : (Shop.page.getChild Shop.plainModel "items.empty" .positive).map
      (fun d => d.opening Shop.plainModel) = .ok (.ok ("if (data.getItems() != null) \x7b\n" ++
        "if (data.getItems().isEmpty()) \x7b\n")) := by
    decide +kernel
  have hinverted : (Shop.page.getChild Shop.plainModel "items.empty" .inverted).map
      (fun d => d.opening Shop.plainModel) = .ok (.ok
        ("if (data.getItems() == null || !data.getItems().iterator().hasNext() || " ++
          "!(data.getItems().isEmpty())) \x7b\n")) := by
    decide +kernel
  obtain ⟨d, hd, htext⟩ := map_eq_ok.1 hpositive
  obtain ⟨d', hd', htext'⟩ := map_eq_ok.1 hinverted
  exact ⟨rfl, by decide, by decide, by decide,
    ⟨d, _, hd, htext, rfl, opening_getChild rfl (by decide) (by decide) hd htext⟩,
    d', _, hd', htext', rfl, opening_getChild rfl (by decide) (by decide) hd' htext'⟩

end Context

end TypedMustache
