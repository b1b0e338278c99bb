import TypedMustache.Proofs.Trail

/-! The contexts that a compilation can come to: the root of a template, and from there on
the contexts of tags and partials in any order. What a step can do to the scope is said
once: it keeps the scope, stands a scope of the same values on it, or enters the trail of
a name. Whatever holds of the root and is kept by these holds of every context. -/

namespace TypedMustache

open Outcome

namespace Scope

variable (m : Model)

/-- What a tag can do to a scope. -/
inductive Step (s : Scope) : Scope → Prop where
  | current : Step s (.same s)
  | named (path : String) (t : Trail) (link : Link) (entry : Entry)
      (hentry : link.entry? = some entry) (htrail : s.trail m path = .ok t) :
      Step s (((Scope.same s).enterAll m link.leadingEntry t.leading).enter m entry t.last)

theorem resolveCurrent_step {s s' : Scope} {link : Link} (h : s.resolveCurrent link = .ok s') :
    Step m s s' := by
  cases link <;> simp only [resolveCurrent, Except.ok.injEq, reduceCtorEq] at h <;> subst h <;>
    exact .current

theorem resolve_step {s s' : Scope} {path : String} {link : Link}
    (h : s.resolve m path link = .ok s') : Step m s s' := by
  unfold resolve at h
  split at h
  · exact resolveCurrent_step m h
  · split at h
    · cases h
      exact .current
    · rw [resolvePath_eq, bind_eq_ok] at h
      obtain ⟨t, htrail, henter⟩ := h
      unfold Trail.enterFrom at henter
      split at henter
      · next entry hentry =>
        cases henter
        exact .named path t link entry hentry htrail
      · cases henter

section Values

variable {P : Expression → Prop} {s : Scope}
  (hrebind : ∀ value depth entry, P value → P (rebind value depth (m.shape value.type entry)))
include hrebind

theorem forall_chain_enter (entry : Entry) (hs : ∀ e ∈ s.chain, P e.current) {value : Expression}
    (hvalue : P value) : ∀ e ∈ (s.enter m entry value).chain, P e.current := by
  refine List.forall_mem_cons.2 ⟨?_, hs⟩
  simp only [current]
  split
  · exact hvalue
  · exact hrebind value (s.depth + 1) entry hvalue

theorem forall_chain_enterAll (entry : Entry) (hs : ∀ e ∈ s.chain, P e.current)
    {values : List Expression} (hvalues : ∀ v ∈ values, P v) :
    ∀ e ∈ (s.enterAll m entry values).chain, P e.current := by
  induction values generalizing s with
  | nil => exact hs
  | cons v vs ih =>
    obtain ⟨hv, hvs⟩ := List.forall_mem_cons.1 hvalues
    exact ih (forall_chain_enter m hrebind entry hs hv) hvs

end Values

end Scope

namespace Context

variable {m : Model} {data : JavaType}

/-- The contexts of a template over data of a type, and of its partials. -/
inductive Reachable (m : Model) (data : JavaType) : Context → Prop where
  | root {c : Context} {generator : Generator} (h : Context.root m data generator = .ok c) :
    Reachable m data c
  | child {c d : Context} {path : String} {link : Link} (hc : Reachable m data c)
      (h : c.getChild m path link = .ok d) : Reachable m data d
  | forPartial {c : Context} (hc : Reachable m data c) : Reachable m data c.forPartial

theorem scope_root {c : Context} {generator : Generator}
    (h : Context.root m data generator = .ok c) : c.scope = .root (m.rootExpression data) := by
  unfold root at h
  split at h
  · cases h
  · cases h
    rfl

theorem output_root {c : Context} {generator : Generator}
    (h : Context.root m data generator = .ok c) : c.output = ⟨writers m, generator⟩ := by
  unfold root at h
  split at h
  · cases h
  · cases h
    rfl

theorem output_getChild {c d : Context} {path : String} {link : Link}
    (h : c.getChild m path link = .ok d) : d.output = c.output := by
  obtain ⟨s, -, rfl⟩ := map_eq_ok.1 h
  rfl

@[simp] theorem output_forPartial (c : Context) : c.forPartial.output = c.output := rfl

theorem scope_getChild {c d : Context} {path : String} {link : Link}
    (h : c.getChild m path link = .ok d) : c.scope.Step m d.scope := by
  obtain ⟨s, hs, rfl⟩ := map_eq_ok.1 h
  exact Scope.resolve_step m hs

/-- The contexts that tags and partials lead to from a context, in any order. -/
inductive Derived (m : Model) (r : Context) : Context → Prop where
  | refl : Derived m r r
  | child {c d : Context} {path : String} {link : Link} (hc : Derived m r c)
      (h : c.getChild m path link = .ok d) : Derived m r d
  | forPartial {c : Context} (hc : Derived m r c) : Derived m r c.forPartial

/-- Tags and partials take over the writers and the generator of their template. -/
theorem Derived.output_eq {r c : Context} (hc : r.Derived m c) : c.output = r.output := by
  induction hc with
  | refl => rfl
  | child _ h ih => exact (output_getChild h).trans ih
  | forPartial _ ih => exact (output_forPartial _).trans ih

theorem reachable_iff_derived {c : Context} : c.Reachable m data ↔
    ∃ generator r, Context.root m data generator = .ok r ∧ r.Derived m c := by
  constructor
  · intro hc
    induction hc with
    | root h => exact ⟨_, _, h, .refl⟩
    | child _ h ih =>
      obtain ⟨generator, r, hroot, hc⟩ := ih
      exact ⟨generator, r, hroot, hc.child h⟩
    | forPartial _ ih =>
      obtain ⟨generator, r, hroot, hc⟩ := ih
      exact ⟨generator, r, hroot, hc.forPartial⟩
  · rintro ⟨generator, r, hroot, hc⟩
    induction hc with
    | refl => exact .root hroot
    | child _ h ih => exact ih.child h
    | forPartial _ ih => exact ih.forPartial

/-- What the root's scope has and every step keeps is so of the scope of every context. -/
theorem Reachable.scope_induction {P : Scope → Prop} (hroot : P (.root (m.rootExpression data)))
    (hstep : ∀ s s', P s → s.Step m s' → P s') {c : Context} (hc : c.Reachable m data) :
    P c.scope := by
  induction hc with
  | root h => rwa [scope_root h]
  | child _ h ih => exact hstep _ _ ih (scope_getChild h)
  | forPartial _ ih => exact ih

theorem Reachable.shape_eq {c : Context} (hc : c.Reachable m data) :
    ∃ entry, c.scope.shape = m.shape c.scope.value.type entry := by
  refine hc.scope_induction (P := fun s => ∃ entry, s.shape = m.shape s.value.type entry)
    ⟨.plain, rfl⟩ ?_
  rintro s s' - (_ | ⟨path, t, link, entry, hentry, htrail⟩)
  · exact ⟨.plain, rfl⟩
  · exact ⟨entry, rfl⟩

/-- What the template's data has and what passes from a value to its members and to what
stands for it in a block is so of all values in scope. -/
theorem Reachable.forall_values {P : Expression → Prop} (hroot : P (m.rootExpression data))
    (hmember : ∀ value name found, P value → m.findMember value name = .ok (some found) → P found)
    (hrebind : ∀ value depth entry, P value →
      P (Scope.rebind value depth (m.shape value.type entry)))
    {c : Context} (hc : c.Reachable m data) :
    P c.scope.value ∧ ∀ s ∈ c.scope.chain, P s.current := by
  refine hc.scope_induction (P := fun s => P s.value ∧ ∀ e ∈ s.chain, P e.current)
    ⟨hroot, by simpa [Scope.chain, Scope.current] using hroot⟩ ?_
  rintro s s' ⟨-, hs⟩ hstep
  have hsame : ∀ e ∈ (Scope.same s).chain, P e.current :=
    List.forall_mem_cons.2 ⟨hs s s.self_mem_chain, hs⟩
  cases hstep with
  | current => exact ⟨hs s s.self_mem_chain, hsame⟩
  | named path t link entry hentry htrail =>
    obtain ⟨hleading, hlast⟩ := Scope.forall_of_trail m hmember hs htrail
    have hsteps := Scope.forall_chain_enterAll m hrebind link.leadingEntry hsame hleading
    exact ⟨hlast, Scope.forall_chain_enter m hrebind entry hsteps hlast⟩

theorem root_eq_ok {capability : Capability} (h : m.require data = .ok capability)
    (generator : Generator) : Context.root m data generator =
      .ok (.detached ⟨writers m, generator⟩ .root (.root (m.rootExpression data))) := by
  simp only [root, h]

end Context

namespace Shop

theorem page_reachable : page.Reachable model (.declared "Page") := by
  have hpage : model.require (.declared "Page") = .ok (.object .declared) := by
    decide +kernel
  exact .root (Context.root_eq_ok hpage .java)

theorem exists_items : ∃ c : Context, c.Reachable model (.declared "Page") ∧
    (c.getChild model "title" .escaped).map (fun d => d.current.text) =
      .ok "element1.getTitle()" := by
  have htitle : ((page.getChild model "items" .positive) >>= fun c =>
      (c.getChild model "title" .escaped).map fun d => d.current.text) =
        .ok "element1.getTitle()" := by
    decide +kernel
  obtain ⟨c, hc, htitle⟩ := bind_eq_ok.1 htitle
  exact ⟨c, page_reachable.child hc, htitle⟩

end Shop

end TypedMustache
