import TypedMustache.Context.Code
import TypedMustache.Proofs.TrailMarkers
import TypedMustache.Proofs.WildcardPlaces

/-! Which names can be opened. A section tests its leading values for null alone, while an
inverted section asks of each of them what it asks of its last one, so it could be refused
where the section is not. It never is: a value that has a member is an array or an object, and
a section can be opened over both. So the last value alone decides whether the two can be
opened, and a name that opens no block of its own always can be. -/

namespace TypedMustache

open Outcome

namespace Model

variable {m : Model}

theorem exists_sectionShape_of_resolve {type ty : JavaType} {role : Role}
    (hty : effectiveType type = .ok ty) (hrole : m.resolve ty = .ok (some (.object role))) :
    ∃ shape, m.sectionShape type = .ok shape := by
  have hrequire : m.require ty = .ok (.object role) := by
    simp only [require, hrole, ok_bind]
    rfl
  simp only [sectionShape, hty, hrequire, ok_bind]
  split
  · exact ⟨_, rfl⟩
  · split
    · next h => cases h
    all_goals exact ⟨_, rfl⟩

theorem exists_sectionShape_of_findMember {value found : Expression} {name : String}
    (h : m.findMember value name = .ok (some found)) :
    ∃ shape, m.sectionShape value.type = .ok shape := by
  obtain ⟨ty, hty, ⟨harray, -⟩ | ⟨role, hrole, -⟩⟩ := findMember_cases h
  · obtain ⟨element, helement⟩ := JavaType.exists_component? harray
    refine ⟨.array element, ?_⟩
    simp only [sectionShape, hty, helement, ok_bind]
    rfl
  · exact exists_sectionShape_of_resolve hty hrole

end Model

namespace Scope

variable {m : Model}

theorem exists_absence (value : Expression) {shape : Shape} (h : shape ≠ .plain) :
    ∃ condition, absence value shape = .ok condition := by
  cases shape with
  | plain => exact absurd rfl h
  | boolean nullable => cases nullable <;> exact ⟨_, rfl⟩
  | _ => exact ⟨_, rfl⟩

theorem exists_stepAbsences {values : List Expression}
    (h : ∀ v ∈ values, ∃ shape, m.sectionShape v.type = .ok shape) :
    ∃ conditions, stepAbsences m values = .ok conditions := by
  induction values with
  | nil => exact ⟨[], rfl⟩
  | cons v vs ih =>
    obtain ⟨⟨shape, hshape⟩, hvs⟩ := List.forall_mem_cons.1 h
    obtain ⟨condition, hcondition⟩ := exists_absence v (m.sectionShape_ne_plain hshape)
    obtain ⟨conditions, hconditions⟩ := ih hvs
    refine ⟨condition :: conditions, ?_⟩
    simp only [stepAbsences, hshape, hcondition, hconditions, ok_bind]
    rfl

theorem opening_eq_error_guarded {s : Scope} {vs : List Expression}
    (hvs : ∀ e ∈ vs, Model.guardShape e.type = .ok .nullable) {entry : Entry}
    (hentry : entry.isInverted = false) {last : Expression} {cause : TypeError} :
    (((Scope.same s).enterAll m .guard vs).enter m entry last).opening = .error cause ↔
      m.shape last.type entry = .error cause := by
  rw [opening, map_eq_error, headers_enter_guarded m s hvs hentry]
  cases m.shape last.type entry <;> simp

theorem opening_eq_error_inverted {s : Scope} {vs : List Expression}
    (hvs : ∀ e ∈ vs, ∃ shape, m.sectionShape e.type = .ok shape) {last : Expression}
    {cause : TypeError} :
    (((Scope.same s).enterAll m .invertedGuard vs).enter m .inverted last).opening = .error cause ↔
      m.sectionShape last.type = .error cause := by
  obtain ⟨conditions, hconditions⟩ := exists_stepAbsences hvs
  rw [opening, map_eq_error, headers_enter_inverted, hconditions]
  cases hshape : m.sectionShape last.type with
  | error cause' => simp
  | ok shape =>
    obtain ⟨condition, hcondition⟩ := exists_absence last (m.sectionShape_ne_plain hshape)
    simp [hcondition]

end Scope

namespace Context

variable {m : Model}

/-- A refusal names the value that the scope was entered with. -/
theorem opening_eq_error_iff {c : Context} {error : ContextError} :
    c.opening m = .error error ↔
      ∃ cause, c.scope.opening = .error cause ∧ .unenterable c.scope.value.text cause = error := by
  unfold opening
  cases c.scope.opening <;> simp

/-- Whether the opening text of a name is refused depends on its last value and the way in which
it is entered, and so does the reason. -/
theorem opening_getChild_eq_error {c d : Context} {path : String} {link : Link} {t : Trail}
    (hpath : path ≠ Path.current) (ht : c.scope.trail m path = .ok t) {entry : Entry}
    (hentry : link.entry? = some entry) (hd : c.getChild m path link = .ok d)
    {error : ContextError} :
    d.opening m = .error error ↔
      ∃ cause, m.shape t.last.type entry = .error cause ∧
        .unenterable t.last.text cause = error := by
  rw [getChild_of_entry m c hpath hentry, ht] at hd
  cases hd
  rw [opening_eq_error_iff]
  have hguards := Scope.guardShape_of_mem_leading ht
  have hshapes : ∀ e ∈ t.leading, ∃ shape, m.sectionShape e.type = .ok shape := by
    intro e he
    obtain ⟨name, found, hfound⟩ := Scope.findMember_of_mem_leading ht he
    exact Model.exists_sectionShape_of_findMember hfound
  cases link with
  | inverted =>
    cases hentry
    exact exists_congr fun cause => and_congr_left' (Scope.opening_eq_error_inverted hshapes)
  | root => cases hentry
  | parent => cases hentry
  | _ =>
    cases hentry
    exact exists_congr fun cause => and_congr_left' (Scope.opening_eq_error_guarded hguards rfl)

theorem exists_getChild_of_trail {c : Context} {path : String} {t : Trail}
    (hpath : path ≠ Path.current) (ht : c.scope.trail m path = .ok t) {link : Link}
    {entry : Entry} (hentry : link.entry? = some entry) :
    ∃ d, c.getChild m path link = .ok d := by
  rw [getChild_of_entry m c hpath hentry, ht]
  exact ⟨_, rfl⟩

/-- A section and an inverted section of one name are both opened, or both are refused with the
same error, and what opens no block of its own is never refused. -/
theorem opening_refused_alike {c v : Context} {path : String} {link : Link}
    (hpath : path ≠ Path.current) (hlink : link ∈ valueLinks)
    (hv : c.getChild m path link = .ok v) :
    ∃ positive inverted : Context, c.getChild m path .positive = .ok positive ∧
      c.getChild m path .inverted = .ok inverted ∧
      ((∃ text, positive.opening m = .ok text) ↔ ∃ text, inverted.opening m = .ok text) ∧
      (∀ error, positive.opening m = .error error ↔ inverted.opening m = .error error) ∧
      ∀ other ∈ [Link.escaped, .unescaped, .path], ∃ (d : Context) (text : String),
        c.getChild m path other = .ok d ∧ d.opening m = .ok text := by
  obtain ⟨entry, hentry⟩ := entry?_of_mem_valueLinks hlink
  rw [getChild_of_entry m c hpath hentry] at hv
  obtain ⟨t, ht, -⟩ := map_eq_ok.1 hv
  obtain ⟨positive, hpositive⟩ :=
    exists_getChild_of_trail hpath ht (rfl : Link.positive.entry? = some .positive)
  obtain ⟨inverted, hinverted⟩ :=
    exists_getChild_of_trail hpath ht (rfl : Link.inverted.entry? = some .inverted)
  have herror : ∀ error, positive.opening m = .error error ↔ inverted.opening m = .error error := by
    intro error
    rw [opening_getChild_eq_error hpath ht rfl hpositive,
      opening_getChild_eq_error hpath ht rfl hinverted]
    -- a section and an inverted section ask the same of the last value
    rfl
  refine ⟨positive, inverted, hpositive, hinverted, ?_, herror, ?_⟩
  · simp only [exists_eq_ok_iff, ne_eq, herror]
  · intro other hother
    have hplain : other.entry? = some .plain := by
      simp only [List.mem_cons, List.not_mem_nil, or_false] at hother
      rcases hother with rfl | rfl | rfl <;> rfl
    obtain ⟨d, hd⟩ := exists_getChild_of_trail hpath ht hplain
    have hopened : ∃ text, d.opening m = .ok text := by
      rw [exists_eq_ok_iff]
      intro error herror
      obtain ⟨cause, hcause, -⟩ := (opening_getChild_eq_error hpath ht hplain hd).1 herror
      cases hcause
    obtain ⟨text, htext⟩ := hopened
    exact ⟨d, text, hd, htext⟩

/-- The number of the page's items opens no section, inverted or not, and can be written out. -/
theorem opening_refused_alike_size :
    "items.size" ≠ Path.current ∧ Link.escaped ∈ valueLinks ∧
      ∃ v positive inverted : Context, Shop.page.getChild Shop.model "items.size" .escaped = .ok v ∧
        Shop.page.getChild Shop.model "items.size" .positive = .ok positive ∧
        Shop.page.getChild Shop.model "items.size" .inverted = .ok inverted ∧
        positive.opening Shop.model =
          .error (.unenterable "data.getItems().size()" (.notSection Scalar.int.type)) ∧
        inverted.opening Shop.model =
          .error (.unenterable "data.getItems().size()" (.notSection Scalar.int.type)) ∧
        ∀ other ∈ [Link.escaped, .unescaped, .path], ∃ (d : Context) (text : String),
          Shop.page.getChild Shop.model "items.size" other = .ok d ∧
            d.opening Shop.model = .ok text := by
  have hpath : "items.size" ≠ Path.current := by decide
  have hvalue : (Shop.page.getChild Shop.model "items.size" .escaped).isOk = true := by
    decide +kernel
  have hrefused : (Shop.page.getChild Shop.model "items.size" .positive).map
      (fun d => d.opening Shop.model) =
        .ok (.error (.unenterable "data.getItems().size()" (.notSection Scalar.int.type))) := by
    decide +kernel
  obtain ⟨v, hv⟩ : ∃ v, Shop.page.getChild Shop.model "items.size" .escaped = .ok v := by
    cases h : Shop.page.getChild Shop.model "items.size" .escaped with
    | ok v => exact ⟨v, rfl⟩
    | error e => rw [h] at hvalue; cases hvalue
  obtain ⟨positive, inverted, hpositive, hinverted, -, herror, hothers⟩ :=
    opening_refused_alike hpath (by decide) hv
  rw [hpositive] at hrefused
  have hopening := Except.ok.inj hrefused
  exact ⟨hpath, by decide, v, positive, inverted, hv, hpositive, hinverted, hopening,
    (herror _).1 hopening, hothers⟩

end Context

end TypedMustache
