import TypedMustache.Proofs.LoopVariables
import TypedMustache.Proofs.Reachable

/-! What expressions start from. Every expression reads parts, one of the other, from an
anchor: the template's data or a loop variable. A name that is found adds an accessor to
the current value of a scope, a loop starts anew from its variable, and an optional value
is unwrapped. Names are looked for outward only, so the loop of the anchor is around the
expression, and for the value that a scope is entered with it is around the scope. -/

namespace TypedMustache

open Outcome

/-- What reads a part of the value whose expression it follows. -/
inductive Accessor where
  | method (name : String)
  | field (name : String)
  /-- The length of an array. -/
  | length
  /-- The entry of a map under a key. -/
  | entry (key : String)
  /-- What an optional value holds. -/
  | unwrap
  deriving DecidableEq, Repr

namespace Accessor

def text : Accessor → String
  | .method name => "." ++ name ++ "()"
  | .field name => "." ++ name
  | .length => ".length"
  | .entry key => ".get(\"" ++ javaStringBody key ++ "\")"
  | .unwrap => ".get()"

/-- Whether the member that is read, if any is, is one that some type declares. -/
def IsDeclared (m : Model) : Accessor → Prop
  | .method name => ∃ owner, ∃ d ∈ m.types.members owner,
      d.name = name ∧ d.kind = .method ∧ d.arity = 0 ∧ d.isAccessible = true
  | .field name => ∃ owner, ∃ d ∈ m.types.members owner,
      d.name = name ∧ d.kind = .field ∧ d.isAccessible = true
  | _ => True

end Accessor

namespace Model

variable {m : Model}

theorem exists_accessor_of_acceptsMember {form : AccessorForm} {d : Member} {owner name : String}
    (hd : d ∈ m.types.members owner) (hname : d.name = form.memberName name)
    (haccepts : m.acceptsMember form d = true) :
    ∃ a : Accessor, a.IsDeclared m ∧ form.suffix name = a.text := by
  cases form with
  | field =>
    simp only [acceptsMember, if_true, Bool.and_eq_true, decide_eq_true_eq] at haccepts
    exact ⟨.field d.name, ⟨owner, d, hd, rfl, haccepts.1, haccepts.2⟩,
      by simp [AccessorForm.suffix, Accessor.text, hname]⟩
  | _ =>
    simp only [acceptsMember, reduceCtorEq, if_false, Bool.and_eq_true, decide_eq_true_eq]
      at haccepts
    obtain ⟨⟨⟨hkind, harity⟩, haccessible⟩, -⟩ := haccepts
    exact ⟨.method d.name, ⟨owner, d, hd, rfl, hkind, harity, haccessible⟩,
      by simp [AccessorForm.suffix, Accessor.text, hname]⟩

/-- A name that is found adds one accessor to the expression of the value. -/
theorem exists_accessor_of_findMember {value found : Expression} {name : String}
    (h : m.findMember value name = .ok (some found)) :
    ∃ a : Accessor, a.IsDeclared m ∧ found.text = value.text ++ a.text := by
  obtain ⟨ty, -, hfound⟩ := findMember_cases h
  rcases hfound with ⟨-, -, rfl⟩ | ⟨role, -, rfl | haccessor⟩
  · exact ⟨.length, trivial, rfl⟩
  · refine ⟨.entry name, trivial, ?_⟩
    simp [mapEntry, Expression.member, Accessor.text, String.append_assoc]
  · obtain ⟨form, owner, d, hd, hname, haccepts, rfl⟩ := accessor?_cases haccessor
    obtain ⟨a, ha, hsuffix⟩ := exists_accessor_of_acceptsMember hd hname haccepts
    exact ⟨a, ha, by rw [← hsuffix]; rfl⟩

/-- Whether an expression is an anchor and accessors after it. -/
def ReadsFrom (m : Model) (anchor text : String) : Prop :=
  ∃ accessors : List Accessor, (∀ a ∈ accessors, a.IsDeclared m) ∧
    text = anchor ++ String.join (accessors.map Accessor.text)

theorem ReadsFrom.refl (anchor : String) : m.ReadsFrom anchor anchor :=
  ⟨[], List.forall_mem_nil _, by simp⟩

theorem ReadsFrom.append {anchor text : String} (h : m.ReadsFrom anchor text) {a : Accessor}
    (ha : a.IsDeclared m) : m.ReadsFrom anchor (text ++ a.text) := by
  obtain ⟨accessors, hdeclared, rfl⟩ := h
  refine ⟨accessors ++ [a], ?_, ?_⟩
  · intro b hb
    rcases List.mem_append.1 hb with hb | hb
    · exact hdeclared b hb
    · rwa [List.mem_singleton.1 hb]
  · simp [String.append_assoc]

end Model

namespace Scope

variable {m : Model} {s : Scope}

theorem chain_subset_of_enclosing? {e outer : Scope} (h : e.enclosing? = some outer) :
    outer.chain ⊆ e.chain := by
  cases e with
  | root data => cases h
  | same enclosing =>
    cases h
    exact List.subset_cons_self _ _
  | nested entry value shape enclosing =>
    cases h
    exact List.subset_cons_self _ _

theorem chain_subset_of_mem {e : Scope} (he : e ∈ s.chain) : e.chain ⊆ s.chain :=
  forall_chain (P := fun e => e.chain ⊆ s.chain)
    (fun _ _ houter hsubset => List.Subset.trans (chain_subset_of_enclosing? houter) hsubset)
    (List.Subset.refl _) e he

theorem chain_subset_enterAll (entry : Entry) (values : List Expression) (s : Scope) :
    s.chain ⊆ (s.enterAll m entry values).chain := by
  induction values generalizing s with
  | nil => exact List.Subset.refl _
  | cons v vs ih => exact List.Subset.trans (List.subset_cons_self _ _) (ih (s.enter m entry v))

/-- Whether the anchor of an expression is the template's data or the variable of a loop among
some scopes. -/
def Anchored (m : Model) (scopes : List Scope) (text : String) : Prop :=
  ∃ anchor, (anchor = m.config.dataName ∨ ∃ s ∈ scopes, s.loopVariable? = some anchor) ∧
    m.ReadsFrom anchor text

theorem Anchored.mono {scopes scopes' : List Scope} {text : String} (h : Anchored m scopes text)
    (hsubset : scopes ⊆ scopes') : Anchored m scopes' text := by
  obtain ⟨anchor, hanchor | ⟨e, he, hx⟩, hreads⟩ := h
  · exact ⟨anchor, .inl hanchor, hreads⟩
  · exact ⟨anchor, .inr ⟨e, hsubset he, hx⟩, hreads⟩

theorem Anchored.append {scopes : List Scope} {text : String} (h : Anchored m scopes text)
    {a : Accessor} (ha : a.IsDeclared m) : Anchored m scopes (text ++ a.text) := by
  obtain ⟨anchor, hanchor, hreads⟩ := h
  exact ⟨anchor, hanchor, hreads.append ha⟩

theorem Anchored.findMember {scopes : List Scope} {value found : Expression} {name : String}
    (h : Anchored m scopes value.text) (hfound : m.findMember value name = .ok (some found)) :
    Anchored m scopes found.text := by
  obtain ⟨a, ha, htext⟩ := Model.exists_accessor_of_findMember hfound
  rw [htext]
  exact h.append ha

/-- The current value of a scope is the variable of a loop, the value that the scope was
entered with, or what that one holds. -/
theorem text_current_enter (s : Scope) (entry : Entry) (value : Expression) :
    (s.enter m entry value).isLoop = true ∨ (s.enter m entry value).current.text = value.text ∨
      (s.enter m entry value).current.text = value.text ++ Accessor.unwrap.text := by
  simp only [enter, isLoop, isInverted, current, shape]
  cases hentry : entry.isInverted with
  | true => exact .inr (.inl rfl)
  | false =>
    cases m.shape value.type entry with
    | error cause => exact .inr (.inl rfl)
    | ok shape =>
      cases shape with
      | iteration element => exact .inl rfl
      | array element => exact .inl rfl
      | optional element => exact .inr (.inr rfl)
      | _ => exact .inr (.inl rfl)

theorem anchored_current_enter (entry : Entry) {value : Expression}
    (hvalue : Anchored m s.chain value.text) :
    Anchored m (s.enter m entry value).chain (s.enter m entry value).current.text := by
  have houter := hvalue.mono (List.subset_cons_self (s.enter m entry value) s.chain)
  rcases text_current_enter (m := m) s entry value with hloop | htext | htext
  · exact ⟨_, .inr ⟨_, self_mem_chain _, if_pos hloop⟩, .refl _⟩
  · rwa [htext]
  · rw [htext]
    exact houter.append trivial

/-- Whether the anchors of all current values on the chain are around them. -/
def Grounded (m : Model) (s : Scope) : Prop := ∀ e ∈ s.chain, Anchored m e.chain e.current.text

theorem Grounded.anchored (h : Grounded m s) : ∀ e ∈ s.chain, Anchored m s.chain e.current.text :=
  fun e he => (h e he).mono (chain_subset_of_mem he)

theorem Grounded.same (h : Grounded m s) : Grounded m (.same s) :=
  List.forall_mem_cons.2
    ⟨(h s s.self_mem_chain).mono (List.subset_cons_self (Scope.same s) s.chain), h⟩

theorem Grounded.enter (h : Grounded m s) (entry : Entry) {value : Expression}
    (hvalue : Anchored m s.chain value.text) : Grounded m (s.enter m entry value) :=
  List.forall_mem_cons.2 ⟨anchored_current_enter entry hvalue, h⟩

theorem Grounded.enterAll (entry : Entry) {values : List Expression} (h : Grounded m s)
    (hvalues : ∀ v ∈ values, Anchored m s.chain v.text) :
    Grounded m (s.enterAll m entry values) := by
  induction values generalizing s with
  | nil => exact h
  | cons v vs ih =>
    obtain ⟨hv, hvs⟩ := List.forall_mem_cons.1 hvalues
    exact ih (h.enter entry hv)
      (fun w hw => (hvs w hw).mono (List.subset_cons_self (s.enter m entry v) s.chain))

theorem Grounded.step {s' : Scope} (h : Grounded m s) (hstep : s.Step m s') :
    Grounded m s' ∧ Anchored m s'.chain.tail s'.value.text := by
  cases hstep with
  | current => exact ⟨h.same, h s s.self_mem_chain⟩
  | named path t link entry hentry htrail =>
    obtain ⟨hleading, hlast⟩ := forall_of_trail m (P := fun e => Anchored m s.chain e.text)
      (fun _ _ _ hvalue hfound => hvalue.findMember hfound) h.anchored htrail
    -- all values of the path are read before any is entered, so none starts at another's loop
    have hsubset : s.chain ⊆ (Scope.same s).chain := List.subset_cons_self _ _
    have hsteps := h.same.enterAll link.leadingEntry fun v hv => (hleading v hv).mono hsubset
    have hvalue := (hlast.mono hsubset).mono
      (chain_subset_enterAll (m := m) link.leadingEntry t.leading (.same s))
    exact ⟨hsteps.enter entry hvalue, hvalue⟩

end Scope

namespace Context

variable {m : Model} {data : JavaType}

theorem Reachable.grounded {c : Context} (hc : c.Reachable m data) :
    Scope.Grounded m c.scope ∧ Scope.Anchored m c.scope.chain.tail c.scope.value.text := by
  refine hc.scope_induction
    (P := fun s => Scope.Grounded m s ∧ Scope.Anchored m s.chain.tail s.value.text) ?_ ?_
  · have hdata : ∀ scopes, Scope.Anchored m scopes m.config.dataName :=
      fun _ => ⟨_, .inl rfl, .refl _⟩
    refine ⟨?_, hdata _⟩
    intro e he
    rw [List.mem_singleton.1 he]
    exact hdata _
  · rintro s s' ⟨hs, -⟩ hstep
    exact hs.step hstep

/-- The current value of a context is read from the template's data or from the variable of a
loop around it, and the value that its scope was entered with is so from outside of the scope. -/
theorem expressions_anchored_in_scope {c : Context} (hc : c.Reachable m data) :
    Scope.Anchored m c.scope.chain c.current.text ∧
      Scope.Anchored m c.scope.chain.tail c.scope.value.text :=
  ⟨hc.grounded.1 c.scope c.scope.self_mem_chain, hc.grounded.2⟩

/-- The title of an item is read from the variable of the loop over the items. -/
theorem expressions_anchored_in_scope_title :
    ∃ c : Context, c.Reachable Shop.model (.declared "Page") ∧
      c.current.text = "element1.getTitle()" ∧
      Scope.Anchored Shop.model c.scope.chain c.current.text ∧
      Scope.Anchored Shop.model c.scope.chain.tail c.scope.value.text := by
  obtain ⟨items, hitems, htitle⟩ := Shop.exists_items
  obtain ⟨c, hc, htext⟩ := map_eq_ok.1 htitle
  exact ⟨c, hitems.child hc, htext, expressions_anchored_in_scope (hitems.child hc)⟩

end Context

end TypedMustache
