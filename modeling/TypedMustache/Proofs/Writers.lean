import TypedMustache.Context.Code
import TypedMustache.Proofs.Reachable

/-! Where output goes. The writers and the generator are chosen once, at the root of a template, and
every tag and partial takes over those of the context that it is derived from, so all contexts of a
compilation write to the same two. What becomes of a value depends on its type alone: whether it
can be written out, and how, is settled without a look at the writers. So the code for a value and
its unescaped code are the same but for the name of a writer, or neither is there. -/

namespace TypedMustache

open Outcome

/-- The ways of writing out, over a value and a writer. -/
def Statement.forms : List (String → String → String) :=
  [fun value writer => value ++ ".render(" ++ writer ++ ");\n",
    fun value writer => writer ++ ".append(" ++ value ++ ");\n",
    fun value writer => writer ++ ".append(String.valueOf(" ++ value ++ "));\n"]

/-- The way in which a value with the capability is written out, if it can be. -/
def Capability.form? : Capability → Option (String → String → Statement)
  | .renderable => some .render
  | .scalar _ false => some .appendText
  | .object .string => some .append
  | .object (.boxed _) => some .appendText
  | _ => none

theorem Capability.text_mem_forms {capability : Capability} {form : String → String → Statement}
    (h : capability.form? = some form) :
    (fun value writer => (form value writer).text) ∈ Statement.forms := by
  unfold form? at h
  split at h <;> cases h
  · exact List.mem_cons_self
  · exact List.mem_cons_of_mem _ (List.mem_cons_of_mem _ List.mem_cons_self)
  · exact List.mem_cons_of_mem _ List.mem_cons_self
  · exact List.mem_cons_of_mem _ (List.mem_cons_of_mem _ List.mem_cons_self)

theorem Model.statement_of_require {m : Model} {value : Expression} {capability : Capability}
    (h : m.require value.type = .ok capability) (w : Writers) :
    m.statement w value =
      match capability.form? with
      | some form => .ok (form value.text w.escaped)
      | none => .error (.notRenderable value.type) := by
  rw [statement, h, ok_bind]
  rcases capability with _ | ⟨kind, isArray⟩ | role
  · rfl
  · cases isArray <;> rfl
  · cases role <;> rfl

/-- What becomes of a value is the same for all writers, but for their names. -/
theorem Generator.generate_java_cases (m : Model) (value : Expression) :
    (∃ error, ∀ w, java.generate m value w = .error error) ∨
      ∃ form ∈ Statement.forms, ∀ w, java.generate m value w = .ok (form value.text w.escaped) := by
  cases hrequire : m.require value.type with
  | error error =>
    refine .inl ⟨error, fun w => ?_⟩
    simp only [java, Model.statement, hrequire, error_bind]
    rfl
  | ok capability =>
    cases hform : capability.form? with
    | none =>
      refine .inl ⟨.notRenderable value.type, fun w => ?_⟩
      simp only [java, Model.statement_of_require hrequire, hform]
      rfl
    | some form =>
      refine .inr ⟨_, Capability.text_mem_forms hform, fun w => ?_⟩
      simp only [java, Model.statement_of_require hrequire, hform]
      rfl

namespace Context

variable {m : Model} {data : JavaType}

/-- The code for the current value is the same for all writers, but for their names. -/
theorem renderingWith_cases (m : Model) {c : Context} (hjava : c.output.generator = .java) :
    (∃ error, ∀ w, c.renderingWith m w = .error error) ∨
      ∃ opening, ∃ form ∈ Statement.forms, c.opening m = .ok opening ∧ ∀ w, c.renderingWith m w =
        .ok (opening ++ form c.current.text w.escaped ++ c.closing) := by
  cases hopening : c.opening m with
  | error error =>
    refine .inl ⟨error, fun w => ?_⟩
    rw [renderingWith, hopening, error_bind]
  | ok opening =>
    rcases Generator.generate_java_cases m c.current with ⟨error, hcode⟩ | ⟨form, hform, hcode⟩
    · refine .inl ⟨.unrenderable c.current.text error, fun w => ?_⟩
      rw [renderingWith, hopening, ok_bind, hjava, hcode w]
      rfl
    · refine .inr ⟨opening, form, hform, rfl, fun w => ?_⟩
      rw [renderingWith, hopening, ok_bind, hjava, hcode w]
      rfl

/-- The code for a value and its unescaped code are both there or are both refused, for the same
reason. They write the value out in the same way and between the same markers, the one to the
writer that the format of the template calls for, the other to the raw writer. However many tags
and partials have led to the context, these are the writers that its template was given. -/
theorem rendering_and_unescapedRendering {r c : Context}
    (hroot : Context.root m data .java = .ok r) (hc : r.Derived m c) :
    ∃ W U, r.output = ⟨⟨W, U⟩, .java⟩ ∧ c.output = ⟨⟨W, U⟩, .java⟩ ∧
      U = m.config.unescapedWriter ∧
      (m.config.format = .html → W = m.config.writer) ∧
      (m.config.format = .text → W = m.config.unescapedWriter) ∧
      (m.config.writer ≠ m.config.unescapedWriter →
        (W = m.config.unescapedWriter ↔ m.config.format = .text)) ∧
      ((∃ error, c.rendering m = .error error ∧ c.unescapedRendering m = .error error) ∨
        ∃ opening, ∃ form ∈
          ([fun E W => E ++ ".render(" ++ W ++ ");\n",
            fun E W => W ++ ".append(" ++ E ++ ");\n",
            fun E W => W ++ ".append(String.valueOf(" ++ E ++ "));\n"] :
              List (String → String → String)),
          c.opening m = .ok opening ∧
          c.rendering m = .ok (opening ++ form c.current.text W ++ c.closing) ∧
          c.unescapedRendering m = .ok (opening ++ form c.current.text U ++ c.closing)) := by
  have houtput : c.output = ⟨writers m, .java⟩ := hc.output_eq.trans (output_root hroot)
  have hcode : (∃ error, c.rendering m = .error error ∧ c.unescapedRendering m = .error error) ∨
      ∃ opening, ∃ form ∈ Statement.forms, c.opening m = .ok opening ∧
        c.rendering m =
          .ok (opening ++ form c.current.text (writers m).escaped ++ c.closing) ∧
        c.unescapedRendering m =
          .ok (opening ++ form c.current.text (writers m).unescaped ++ c.closing) := by
    rw [rendering, unescapedRendering, houtput]
    rcases renderingWith_cases m (congrArg Output.generator houtput) with
      ⟨error, h⟩ | ⟨opening, form, hform, hopening, h⟩
    · exact .inl ⟨error, h _, h _⟩
    · exact .inr ⟨opening, form, hform, hopening, h _, h _⟩
  refine ⟨(writers m).escaped, (writers m).unescaped, output_root hroot, houtput, ?_⟩
  cases hformat : m.config.format with
  | html =>
    have hwriters : writers m = ⟨m.config.writer, m.config.unescapedWriter⟩ := by
      rw [writers, Writers.ofConfig, hformat]
    rw [hwriters] at hcode ⊢
    exact ⟨rfl, fun _ => rfl, nofun, fun hne => ⟨fun h => absurd h hne, nofun⟩, hcode⟩
  | text =>
    have hwriters : writers m = ⟨m.config.unescapedWriter, m.config.unescapedWriter⟩ := by
      rw [writers, Writers.ofConfig, hformat]
    rw [hwriters] at hcode ⊢
    exact ⟨rfl, nofun, fun _ => rfl, fun _ => ⟨fun _ => rfl, fun _ => rfl⟩, hcode⟩

/-- In a partial inside the section over the items, the title of an item goes to the escaping writer
or, unescaped, to the raw one. -/
theorem rendering_and_unescapedRendering_title :
    ∃ c : Context, Context.root Shop.model (.declared "Page") .java = .ok Shop.page ∧
      Shop.page.Derived Shop.model c ∧ c.output = ⟨⟨"writer", "unescapedWriter"⟩, .java⟩ ∧
      ∃ opening, c.opening Shop.model = .ok opening ∧
        c.rendering Shop.model =
          .ok (opening ++ "writer.append(element1.getTitle());\n" ++ c.closing) ∧
        c.unescapedRendering Shop.model =
          .ok (opening ++ "unescapedWriter.append(element1.getTitle());\n" ++ c.closing) := by
  let comments := "/* RenderingContext: Owned plain */\n/* Type: java.lang.String */\n"
  have hpage : Shop.model.require (.declared "Page") = .ok (.object .declared) := by
    decide +kernel
  have htitle : (Shop.page.getChild Shop.model "items" .positive >>= fun s =>
      (s.forPartial.getChild Shop.model "title" .escaped).map fun c =>
        (c.current.text, c.opening Shop.model, c.closing, c.rendering Shop.model)) =
          .ok ("element1.getTitle()", .ok comments, "",
            .ok (comments ++ "writer.append(element1.getTitle());\n")) := by
    decide +kernel
  obtain ⟨s, hs, htitle⟩ := bind_eq_ok.1 htitle
  obtain ⟨c, hc, htitle⟩ := map_eq_ok.1 htitle
  simp only [Prod.mk.injEq] at htitle
  obtain ⟨htext, hcomments, hclosing, hwritten⟩ := htitle
  have hroot := root_eq_ok hpage .java
  have hderived : Shop.page.Derived Shop.model c := ((Derived.refl.child hs).forPartial).child hc
  obtain ⟨W, U, -, houtput, rfl, hescaped, -, -, hcode⟩ :=
    rendering_and_unescapedRendering hroot hderived
  obtain rfl : W = "writer" := hescaped rfl
  refine ⟨c, hroot, hderived, houtput, ?_⟩
  rcases hcode with ⟨error, herror, -⟩ | ⟨opening, form, hform, hopening, hrendering, hunescaped⟩
  · rw [herror] at hwritten
    cases hwritten
  · obtain rfl : comments = opening := Except.ok.inj (hcomments.symm.trans hopening)
    rw [htext] at hrendering hunescaped
    have hform_text := hrendering.symm.trans hwritten
    rw [hclosing] at hform_text
    -- the other two ways of writing out would make other code
    simp only [List.mem_cons, List.not_mem_nil, or_false] at hform
    rcases hform with rfl | rfl | rfl
    · exact absurd hform_text (by decide)
    · exact ⟨comments, hopening, hrendering, hunescaped⟩
    · exact absurd hform_text (by decide)

end Context

end TypedMustache
