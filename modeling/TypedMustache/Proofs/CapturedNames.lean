import TypedMustache.Config.Document
import TypedMustache.Proofs.LoopVariables
import TypedMustache.Proofs.Subtyping
import TypedMustache.Proofs.Reachable
import TypedMustache.Proofs.Transparency

/-! Names that a loop captures. A configuration names the data and the writers of generated code,
and any text will do that is not blank. A loop takes its own variable's name from its depth alone.
So a configured name is hidden inside a loop if it is the name for the loop's depth, and in no
other way. A page with lines of numbers shows that this happens to every such name: since a number
has no members, the lines are read from the page at every depth, and each section over them is one
more loop. -/

namespace TypedMustache

open Outcome

/-- The variables outside of loops that generated code uses. -/
def Config.variables (c : Config) : List String := [c.dataName, c.writer, c.unescapedWriter]

namespace Scope

theorem one_le_depth_of_isLoop {s : Scope} (h : s.isLoop = true) : 1 ≤ s.depth := by
  obtain ⟨entry, value, shape, enclosing, rfl, -⟩ := isLoop_cases h
  exact Nat.le_add_left 1 enclosing.depth

theorem mem_loopVariables_iff {s : Scope} {x : String} :
    x ∈ s.loopVariables ↔
      ∃ e ∈ s.chain, e.isLoop = true ∧ 1 ≤ e.depth ∧ x = loopVariable e.depth := by
  constructor
  · intro h
    obtain ⟨e, he, hx⟩ := List.mem_filterMap.1 h
    obtain ⟨hloop, rfl⟩ := loopVariable?_eq_some hx
    exact ⟨e, he, hloop, one_le_depth_of_isLoop hloop, current_of_isLoop hloop⟩
  · rintro ⟨e, he, hloop, -, rfl⟩
    refine List.mem_filterMap.2 ⟨e, he, ?_⟩
    rw [loopVariable?, if_pos hloop, current_of_isLoop hloop]

end Scope

theorem TypeSystem.asMemberOf_of_parameters_eq_nil {ts : TypeSystem} {receiver : JavaType}
    {d : Member} (h : ts.parameters d.declaringType = []) : ts.asMemberOf receiver d = d.type := by
  rw [asMemberOf, h]
  cases ts.asSupertype receiver d.declaringType <;> rfl

/-! ### A page of numbers -/

namespace Numbers

def lines : JavaType := .array (.primitive "int") 1

/-- An interface with a method for lines, apart from the one that is renderable. -/
def table (page renderable : String) : ClassTable :=
  ((({} : ClassTable).addInterface page).addMethod page "getLines" lines).addRenderable renderable

/-- A name for the page that the renderable interface does not have. -/
def page (config : Config) : String :=
  if config.renderableInterface = "Page" then "Book" else "Page"

def model (config : Config) : Model where
  types := (table (page config) config.renderableInterface).toTypeSystem
  config := config

variable (config : Config)

theorem page_cases : page config = "Page" ∨ page config = "Book" := by
  unfold page
  split
  · exact .inr rfl
  · exact .inl rfl

theorem page_ne : page config ≠ config.renderableInterface := by
  unfold page
  split
  · next h => simp [h]
  · next h => exact Ne.symm h

theorem directSupertypes_eq_nil (name : String) :
    (model config).types.directSupertypes name = [] := by
  refine List.eq_nil_iff_forall_not_mem.2
    (ClassTable.forall_directSupertypes (P := fun _ _ => False) ?_ name)
  simp [table, ClassTable.addRenderable, ClassTable.addInterface, ClassTable.declare,
    ClassTable.addMethod, ClassTable.addMember, Supertypes.all]

theorem typeInfo?_eq (name : String) : (model config).types.typeInfo? name =
    if config.renderableInterface = name then
      some ⟨config.renderableInterface, .interface, ["public"], [⟨"F", []⟩]⟩
    else if page config = name then some ⟨page config, .interface, ["public"], []⟩ else none := by
  have hfind : (model config).types.typeInfo? name =
      [(⟨config.renderableInterface, .interface, ["public"], [⟨"F", []⟩]⟩ : TypeInfo),
        ⟨page config, .interface, ["public"], []⟩].find? (·.name = name) := rfl
  rw [hfind]
  by_cases hrenderable : config.renderableInterface = name
  · simp [hrenderable]
  · by_cases hpage : page config = name <;> simp [hrenderable, hpage]

theorem parameters_page : (model config).types.parameters (page config) = [] := by
  simp [TypeSystem.parameters, typeInfo?_eq, (page_ne config).symm]

theorem genericType_renderable : (model config).types.genericType config.renderableInterface =
    .applied config.renderableInterface [.wildcard .upper] := by
  simp [TypeSystem.genericType, TypeSystem.parameters, typeInfo?_eq, JavaType.declaredWith]

theorem hasCapability_renderable {ty : JavaType} {name : String} (hname : ty.baseName? = some name)
    (hne : name ≠ config.renderableInterface) :
    (model config).hasCapability ty .renderable = false := by
  have hview : (model config).types.asSupertype ty config.renderableInterface = none := by
    rw [TypeSystem.asSupertype, TypeSystem.supertypeWithin_succ _ hname, if_neg hne,
      TypeSystem.supertypesOf, directSupertypes_eq_nil]
    rfl
  have hsubtype : (model config).types.isSubtype ty
      (.applied config.renderableInterface [.wildcard .upper]) =
        ((model config).types.asSupertype ty config.renderableInterface).isSome :=
    TypeSystem.isSubtype_applied_of_isUnbounded hname (List.forall_mem_singleton.2 rfl)
      (List.cons_ne_nil _ _) (by simp [hview])
  rw [hview, ← genericType_renderable] at hsubtype
  exact hsubtype

/-- No class with a role is above the page, but for the one of all objects. -/
theorem hasCapability_page_object {role : Role} (hrole : role ∈ Role.all) :
    (model config).hasCapability (.declared (page config)) (.object role) =
      decide (role = .declared) := by
  have hinherits : ∀ target, (model config).types.inherits (page config) target =
      (decide (page config = target) || false) := fun _ => rfl
  have hknown : ((model config).types.typeInfo? (page config)).isSome = true := by
    simp [typeInfo?_eq, (page_ne config).symm]
  rw [Model.hasCapability, TypeSystem.isSubtype_declared rfl, hknown, hinherits]
  cases role with
  | renderable => exact absurd hrole (by decide)
  | boxed scalar =>
    rcases page_cases config with h | h <;> rw [h] <;> cases scalar <;> rfl
  | _ => rcases page_cases config with h | h <;> rw [h] <;> rfl

theorem resolve_page :
    (model config).resolve (.declared (page config)) = .ok (some (.object .declared)) := by
  refine congrArg Except.ok (List.find?_eq_some_iff_append.2
    ⟨hasCapability_page_object config (by decide),
      .renderable :: (Capability.scalars ++ Role.all.dropLast.map .object), [], by decide, ?_⟩)
  intro capability hmem
  cases capability with
  | renderable => rw [hasCapability_renderable config rfl (page_ne config)]; rfl
  | scalar kind isArray => cases isArray <;> rfl
  | object role =>
    have hbefore : role ∈ Role.all.dropLast := by
      simpa [Capability.scalars, -List.map_dropLast] using hmem
    have hne : role ≠ .declared := by
      rintro rfl
      exact absurd hbefore (by decide)
    rw [hasCapability_page_object config (List.dropLast_subset _ hbefore), decide_eq_false hne]
    rfl

theorem resolve_number :
    (model config).resolve (.primitive "int") = .ok (some (.scalar .int false)) := by
  refine congrArg Except.ok (List.find?_eq_some_iff_append.2 ⟨rfl,
    .renderable :: [Scalar.boolean, .char, .byte, .short].map (.scalar · false),
    Capability.registry.drop 6, by decide, ?_⟩)
  intro capability hmem
  rcases List.mem_cons.1 hmem with rfl | hmem
  · have hgeneric : (model config).hasCapability (.primitive "int") .renderable =
        (model config).types.isSubtype (.primitive "int")
          (.applied config.renderableInterface [.wildcard .upper]) := by
      rw [← genericType_renderable]
      rfl
    rw [hgeneric, TypeSystem.isSubtype_of_premises_none rfl]
    rfl
  · obtain ⟨kind, hkind, rfl⟩ := List.mem_map.1 hmem
    cases kind <;> first | rfl | exact absurd hkind (by decide)

def getLines : Member :=
  { name := "getLines", kind := .method, declaringType := page config, type := lines,
    parameters := some [], modifiers := ["public"] }

theorem membersInHierarchy_getLines :
    (model config).types.membersInHierarchy (page config) "getLines" = [getLines config] := by
  have hnamed : (model config).types.membersNamed (page config) "getLines" = [getLines config] := by
    simp [TypeSystem.membersNamed, model, table, ClassTable.addRenderable, ClassTable.addInterface,
      ClassTable.declare, ClassTable.addMethod, ClassTable.addMember, ClassTable.toTypeSystem,
      getLines]
  simp [TypeSystem.membersInHierarchy, hnamed]

theorem asMemberOf_getLines :
    (model config).types.asMemberOf (.declared (page config)) (getLines config) = lines :=
  TypeSystem.asMemberOf_of_parameters_eq_nil (d := getLines config) (parameters_page config)

theorem accessorType?_lines :
    (model config).accessorType? (page config) (.declared (page config)) "lines" .get =
      some lines := by
  have hname : AccessorForm.get.memberName "lines" = "getLines" := by decide
  have haccepts : [getLines config].filter ((model config).acceptsMember .get) =
      [getLines config] := rfl
  have htypes : [lines].find? AccessorForm.get.acceptsType = some lines := by decide
  rw [Model.accessorType?, hname, membersInHierarchy_getLines, haccepts, List.map_singleton,
    asMemberOf_getLines, htypes]

theorem findMember_page {value : Expression} (hvalue : value.type = .declared (page config)) :
    (model config).findMember value "lines" =
      .ok (some (value.member (value.text ++ ".getLines()") lines "lines")) := by
  have hsuffix : AccessorForm.get.suffix "lines" = ".getLines()" := by decide
  have haccessor : (model config).accessor? value (.declared (page config)) "lines" =
      some (value.member (value.text ++ ".getLines()") lines "lines") := by
    simp only [Model.accessor?, JavaType.baseName?, Option.bind_some, AccessorForm.all,
      List.findSome?_cons, accessorType?_lines, hsuffix, Option.map_some]
  have harray : (JavaType.declared (page config)).isArray = false := rfl
  rw [Model.findMember, hvalue, Model.effectiveType_of_isWildcard rfl, ok_bind, harray,
    if_neg Bool.false_ne_true, resolve_page, ok_bind, haccessor]
  rfl

theorem findMember_number {value : Expression} (hvalue : value.type = .primitive "int") :
    (model config).findMember value "lines" = .ok none := by
  have harray : (JavaType.primitive "int").isArray = false := rfl
  rw [Model.findMember, hvalue, Model.effectiveType_of_isWildcard rfl, ok_bind, harray,
    if_neg Bool.false_ne_true, resolve_number, ok_bind]
  rfl

/-- The lines as they are read from the page. -/
def pageLines : Expression := ⟨config.dataName ++ ".getLines()", lines, ["lines"]⟩

/-- A loop over the lines of the page. -/
def loopFrom (s : Scope) : Scope :=
  .nested .positive (pageLines config) (.ok (.array (.primitive "int"))) (.same s)

theorem getChild_lines {c : Context}
    (h : c.scope.lookup (model config) "lines" = .ok (some (pageLines config))) :
    c.getChild (model config) "lines" .positive =
      .ok (.child c.output "lines" c .positive (loopFrom config c.scope)) := by
  have hnames : Path.names "lines" = ("lines", []) := by decide
  have htrail : c.scope.trail (model config) "lines" = .ok ⟨[], pageLines config⟩ := by
    simp only [Scope.trail, hnames, Scope.lookup_same, h]
    rfl
  rw [Context.getChild_of_entry (model config) c (by decide) rfl, htrail]
  rfl

theorem lookup_loopFrom {s : Scope}
    (h : s.lookup (model config) "lines" = .ok (some (pageLines config))) :
    (loopFrom config s).lookup (model config) "lines" = .ok (some (pageLines config)) := by
  have hmember : (loopFrom config s).lookupMember (model config) "lines" = .ok none :=
    findMember_number config rfl
  rw [Scope.lookup_eq, hmember, ok_bind]
  exact (Scope.lookup_same s "lines").trans h

theorem exists_reachable_of_depth (n : Nat) :
    ∃ c : Context, c.Reachable (model config) (.declared (page config)) ∧ c.scope.depth = n ∧
      c.scope.lookup (model config) "lines" = .ok (some (pageLines config)) := by
  induction n with
  | zero =>
    have hrequire : (model config).require (.declared (page config)) = .ok (.object .declared) := by
      rw [Model.require, resolve_page]
      rfl
    have hpage : (Scope.root ((model config).rootExpression (.declared (page config)))).lookupMember
        (model config) "lines" = .ok (some (pageLines config)) := findMember_page config rfl
    refine ⟨_, .root (Context.root_eq_ok hrequire .java), rfl, ?_⟩
    rw [Context.scope, Scope.lookup_eq, hpage]
    rfl
  | succ n ih =>
    obtain ⟨c, hc, hdepth, hlookup⟩ := ih
    exact ⟨_, hc.child (getChild_lines config hlookup), congrArg (· + 1) hdepth,
      lookup_loopFrom config hlookup⟩

end Numbers

namespace Context

/-- A loop hides a name of the configuration if it is named so for its own depth, and in no other
way. Nothing keeps such names out of a configuration, and each of them is hidden somewhere. -/
theorem variables_captured (config : Config) :
    (∀ (types : TypeSystem) (data : JavaType) (c : Context), c.Reachable ⟨types, config⟩ data →
      ∀ name ∈ config.variables, name ∈ c.scope.loopVariables ↔
        ∃ e ∈ c.scope.chain, e.isLoop = true ∧ 1 ≤ e.depth ∧ name = Scope.loopVariable e.depth) ∧
    ∀ name ∈ config.variables, ∀ n, 1 ≤ n → name = Scope.loopVariable n →
      ∃ (types : TypeSystem) (data : JavaType) (c : Context),
        c.Reachable ⟨types, config⟩ data ∧ name ∈ c.scope.loopVariables := by
  refine ⟨fun _ _ _ _ _ _ => Scope.mem_loopVariables_iff, ?_⟩
  rintro name - n hn rfl
  obtain ⟨depth, rfl⟩ := Nat.exists_eq_add_of_le' hn
  obtain ⟨c, hc, hdepth, hlookup⟩ := Numbers.exists_reachable_of_depth config depth
  refine ⟨_, _, _, hc.child (Numbers.getChild_lines config hlookup), ?_⟩
  refine Scope.mem_loopVariables_iff.2 ⟨_, Scope.self_mem_chain _, rfl, ?_, ?_⟩
  · exact Nat.le_add_left 1 c.scope.depth
  · exact congrArg (fun d => Scope.loopVariable (d + 1)) hdepth.symm

/-- The data has the name of the outermost loops' variables. -/
theorem variables_captured_element1 :
    ∃ (types : TypeSystem) (data : JavaType) (c : Context),
      c.Reachable ⟨types, { dataName := "element1" }⟩ data ∧ "element1" ∈ c.scope.loopVariables ∧
        ∃ e ∈ c.scope.chain, e.isLoop = true ∧ 1 ≤ e.depth ∧
          "element1" = Scope.loopVariable e.depth := by
  have hname : "element1" ∈ Config.variables { dataName := "element1" } := by decide
  obtain ⟨types, data, c, hc, hmem⟩ :=
    (variables_captured { dataName := "element1" }).2 _ hname 1 (Nat.le_refl 1) (by decide)
  exact ⟨types, data, c, hc, hmem, ((variables_captured _).1 types data c hc _ hname).1 hmem⟩

/-- A document may name the data like a loop variable. Inside the loop over the items of a page,
the name of the page stands for an item then. -/
theorem element1_captures_data :
    ∃ (config : Config) (c d : Context),
      Config.parse "\x7b\"data_name\": \"element1\"\x7d" = .ok config ∧
      c.Reachable ⟨Shop.table.toTypeSystem, config⟩ (.declared "Page") ∧
      config.dataName ∈ c.scope.loopVariables ∧
      c.getChild ⟨Shop.table.toTypeSystem, config⟩ "shelf" .escaped = .ok d ∧
      d.current.text = "element1.getShelf()" := by
  let m : Model := ⟨Shop.table.toTypeSystem, { dataName := "element1" }⟩
  have hpage : m.require (.declared "Page") = .ok (.object .declared) := by decide +kernel
  let page : Context :=
    .detached ⟨writers m, .java⟩ .root (.root (m.rootExpression (.declared "Page")))
  have hshelf : (page.getChild m "items" .positive >>= fun c =>
      (c.getChild m "shelf" .escaped).map fun d => (c.scope.loopVariables, d.current.text)) =
        .ok (["element1"], "element1.getShelf()") := by
    decide +kernel
  obtain ⟨c, hc, hshelf⟩ := bind_eq_ok.1 hshelf
  obtain ⟨d, hd, heq⟩ := map_eq_ok.1 hshelf
  obtain ⟨hvariables, htext⟩ := Prod.mk.inj heq
  refine ⟨{ dataName := "element1" }, c, d, rfl, (Reachable.root (root_eq_ok hpage .java)).child hc,
    ?_, hd, htext⟩
  rw [hvariables]
  exact List.mem_singleton_self _

end Context

end TypedMustache
